import PlateVault.Grouping.Laws
import PlateVault.Sessions.Associated
import PlateVault.Sessions.Evidence
import PlateVault.Library.Decided

/-!
# Sessions over runs

Beside the vault a run keeps, for each asset, the key the last grouping of it gave and the evidence
it was given for. Every call leaves each asset in the one current session of that key.
-/

namespace PlateVault.Library

variable {P : Platform} {R : Reader}

namespace Sessions

structure Changes (s s' : Sessions P) : Prop where
  superseded : ∀ id key lineage, s.identity id = some (key, some lineage) →
    s'.identity id = some (key, some lineage)
  current : ∀ id key, s.identity id = some (key, none) → s'.identity id = some (key, none) ∨
    s'.identity id = some (key, some s.lineages.length)
  keeps : ∀ id id', s.IsCurrent id → s'.IsCurrent id' → (id' = id ↔ Extends s s' id id')
  lineage : (∀ id, s.IsCurrent id → s'.IsCurrent id) ∧ s'.lineages = s.lineages ∨
    ∃ row, s'.lineages = s.lineages ++ [row] ∧ row.lineage.predecessors ≠ [] ∧
      Lineage s s' row.lineage
  inherits : ∀ id, s.identity id = none → s'.IsCurrent id → ∀ kind, InheritsFrom s s' id kind

theorem Regroups.changes {result : List (SessionCandidate P)} {s s' : Sessions P}
    (h : Regroups result s s') : Changes s s' :=
  ⟨h.superseded, h.current, h.keeps, h.lineage, h.inherits⟩

section

variable {s s' s'' : Sessions P}

theorem Reassociates.isCurrent (h : Reassociates s s') (id : Uuid) :
    s'.IsCurrent id ↔ s.IsCurrent id := by
  unfold IsCurrent
  rw [h.identity]

theorem Reassociates.extends_right (h : Reassociates s' s'') (id id' : Uuid) :
    Extends s s'' id id' ↔ Extends s s' id id' := by
  constructor
  · rintro ⟨hkey, hheld, hadded⟩
    rw [h.identity] at hkey
    rw [h.sessionOf] at hheld hadded
    exact ⟨hkey, hheld, hadded⟩
  · rintro ⟨hkey, hheld, hadded⟩
    rw [← h.identity] at hkey
    rw [← h.sessionOf] at hheld hadded
    exact ⟨hkey, hheld, hadded⟩

theorem Reassociates.lineage_right (h : Reassociates s' s'') {lineage : SessionLineage}
    (hlineage : Lineage s s' lineage) : Lineage s s'' lineage where
  predecessors := fun id => by
    rw [hlineage.predecessors, h.isCurrent]
  successors := fun id => by
    rw [hlineage.successors, h.isCurrent, h.sessionOf]

theorem Changes.reassociate (h : Changes s s') (hre : Reassociates s' s'')
    (hmade : ∀ id, s.identity id = none → s'.IsCurrent id → ∀ kind,
      s''.associations id kind = s'.associations id kind) : Changes s s'' where
  superseded := fun id key lineage hid => by
    rw [hre.identity]
    exact h.superseded id key lineage hid
  current := fun id key hid => by
    rw [hre.identity]
    exact h.current id key hid
  keeps := fun id id' hid hid' => by
    rw [hre.extends_right]
    exact h.keeps id id' hid ((hre.isCurrent id').mp hid')
  lineage := by
    rw [hre.lineages]
    refine h.lineage.imp (fun hnone => ⟨fun id hid => ?_, hnone.2⟩) ?_
    · exact (hre.isCurrent id).mpr (hnone.1 id hid)
    · rintro ⟨row, hadd, hne, hlineage⟩
      exact ⟨row, hadd, hne, hre.lineage_right hlineage⟩
  inherits := fun id hfresh hcurrent kind => by
    have hcurrent' := (hre.isCurrent id).mp hcurrent
    obtain ⟨members, hmembers, hinherits⟩ := h.inherits id hfresh hcurrent' kind
    refine ⟨members, fun asset => ?_, ?_⟩
    · rw [hre.sessionOf]
      exact hmembers asset
    · rw [hmade id hfresh hcurrent' kind]
      exact hinherits

theorem InheritsFrom.owned {id : Uuid} {kind : AssociationKind} (h : InheritsFrom s s' id kind) :
    ∀ association ∈ s'.associations id kind, userOwned association = true := by
  obtain ⟨members, -, hinherits⟩ := h
  intro association hassociation
  by_cases hconfirmed : association.state = .confirmed
  · simp [userOwned, hconfirmed]
  · simp [userOwned, (hinherits.review association hassociation hconfirmed).1]

end

end Sessions

/-! ## Steps -/

/-- The vault, with the key each asset was last given and the evidence it was given for. -/
structure Watched (P : Platform) (R : Reader) where
  vault : Vault P R
  given : Uuid → Option (Text × R.Metadata)

def Vault.groupedBy (v : Vault P R) :
    VaultCall P R → Option (GroupContext P R × List (SessionCandidate P))
  | .catalog call correctionId given =>
    match v.catalog.half correctionId call with
    | .ok (.regroups catalog changed _ _) =>
      if (Ordered.ascending changed.regroup).isEmpty then none
      else ({ v with catalog }.grouped (Ordered.ascending changed.regroup) given.grouping).toOption
    | _ => none
  | _ => none

/-- A grouping gives its candidates' keys to their assets. -/
def recordGiven (grouped : Option (GroupContext P R × List (SessionCandidate P)))
    (given : Uuid → Option (Text × R.Metadata)) (asset : Uuid) : Option (Text × R.Metadata) :=
  match grouped with
  | none => given asset
  | some (context, result) =>
    match result.find? (·.assetIds.contains asset), context.assets.find? (·.id = asset) with
    | some candidate, some a => some (candidate.key, a.effective)
    | _, _ => given asset

namespace Watched

def empty : Watched P R where
  vault := .empty
  given := fun _ => none

def Step (w : Watched P R) (call : VaultCall P R) (w' : Watched P R) : Prop :=
  w.vault.Step call w'.vault ∧ w'.given = recordGiven (w.vault.groupedBy call) w.given

/-- Each asset is in a current session of the key its evidence was given, but for `pending` ones. -/
def Keyed (pending : Uuid → Prop) (w : Watched P R) : Prop :=
  ∀ a ∈ w.vault.catalog.assets.rows, ¬ pending a.id → ∃ id key,
    w.vault.sessions.sessionOf a.id = some id ∧ w.vault.sessions.identity id = some (key, none) ∧
      w.given a.id = some (key, a.effective)

end Watched

namespace Vault

section

variable {v v' : Vault P R} {moved : Uuid → Prop} {c' : Catalog R}

theorem Sound.moves (hsound : v.Sound fun _ => False) (hmoves : Catalog.Moves moved v.catalog c') :
    ({ v with catalog := c' } : Vault P R).Sound moved where
  current := hsound.current
  recorded := fun asset id hasset => by
    obtain ⟨a, ha, rfl⟩ := hsound.recorded asset id hasset
    obtain ⟨a', ha', hid, -⟩ := hmoves.kept a ha
    exact ⟨a', ha', hid⟩
  grouped := fun a' ha' hnone => by
    rcases hmoves.row a' ha' with ⟨a, ha, hid, -⟩ | ⟨hmoved, -⟩
    · exact (hsound.grouped a ha (hid ▸ hnone)).elim
    · exact hmoved
  member := hsound.member
  inhabited := hsound.inhabited
  owned := hsound.owned
  kind := hsound.kind
  associated := hsound.associated
  superseded := hsound.superseded

theorem Sound.reassociate {pending : Uuid → Prop} (hsound : v.Sound pending)
    (hcatalog : v'.catalog = v.catalog) (hre : Sessions.Reassociates v.sessions v'.sessions) :
    v'.Sound pending where
  current := fun asset id hasset => by
    rw [hre.sessionOf] at hasset
    exact (hre.isCurrent id).mpr (hsound.current asset id hasset)
  recorded := fun asset id hasset => by
    rw [hre.sessionOf] at hasset
    rw [hcatalog]
    exact hsound.recorded asset id hasset
  grouped := fun a ha hnone => by
    rw [hcatalog] at ha
    rw [hre.sessionOf] at hnone
    exact hsound.grouped a ha hnone
  member := fun id hid asset => by
    rw [hre.members, hre.sessionOf]
    exact hsound.member id ((hre.isCurrent id).mp hid) asset
  inhabited := fun id hid => by
    rw [hre.sessionOf]
    exact hsound.inhabited id ((hre.isCurrent id).mp hid)
  owned := fun id asset hmem => by
    rw [hre.members] at hmem
    rw [hre.identity]
    exact hsound.owned id asset hmem
  kind := hre.kind hsound.kind
  associated := fun session kind association hassociation hnone => by
    rw [hre.identity] at hnone
    rw [hre.unknown session hnone] at hassociation
    exact hsound.associated session kind association hassociation hnone
  superseded := fun id key lineage hid => by
    rw [hre.identity] at hid
    rw [hre.lineages]
    exact hsound.superseded id key lineage hid

theorem Sound.unchanged {pending : Uuid → Prop} (hsound : v.Sound pending) :
    v.sessions.Changes v.sessions where
  superseded := fun _ _ _ hid => hid
  current := fun _ _ hid => .inl hid
  keeps := fun id id' hid hid' => by
    refine ⟨fun heq => heq ▸ ⟨rfl, fun _ h => h, fun _ h => .inl h⟩, fun hextends => ?_⟩
    obtain ⟨asset, hasset⟩ := hsound.inhabited id hid
    exact Option.some.inj ((hextends.held asset hasset).symm.trans hasset)
  lineage := .inl ⟨fun _ hid => hid, rfl⟩
  inherits := fun id hnone hcurrent => by
    obtain ⟨key, hkey⟩ := hcurrent
    rw [hnone] at hkey
    cases hkey

end

/-! ## One call -/

section

variable {v v' : Vault P R} {given : Regrouping P R} {cause : Cause}

theorem Grouped.keyed {changed closure : List Uuid} {context : GroupContext P R}
    {result : List (SessionCandidate P)} {keys : Uuid → Option (Text × R.Metadata)}
    (hgrouped : v.Grouped changed closure context result)
    (hregroups : v.sessions.Regroups result v'.sessions) (hcatalog : v'.catalog = v.catalog)
    (hsound : v'.Sound fun _ => False)
    (hkeyed : (Watched.mk v keys).Keyed (· ∈ changed)) :
    (Watched.mk v' (recordGiven (some (context, result)) keys)).Keyed fun _ => False := by
  intro a ha _
  simp only [hcatalog] at ha
  by_cases hclosure : a.id ∈ closure
  · obtain ⟨candidate, hcandidate, hmem⟩ : ∃ candidate,
        result.find? (·.assetIds.contains a.id) = some candidate ∧ a.id ∈ candidate.assetIds := by
      obtain ⟨candidate, hcandidate, hmem⟩ :=
        List.mem_flatMap.mp ((hgrouped.checked.mem a.id).mpr hclosure)
      obtain ⟨found, hfound⟩ := Option.isSome_iff_exists.mp
        (List.find?_isSome (p := fun c : SessionCandidate P => c.assetIds.contains a.id)
          |>.mpr ⟨candidate, hcandidate, by simpa using hmem⟩)
      exact ⟨found, hfound, by simpa using List.find?_some hfound⟩
    obtain ⟨read, hread, heffective⟩ : ∃ read,
        context.assets.find? (·.id = a.id) = some read ∧ read.effective = a.effective := by
      obtain ⟨read, hread, hid⟩ := hgrouped.loaded a.id hclosure
      obtain ⟨found, hfound⟩ := Option.isSome_iff_exists.mp
        (List.find?_isSome (p := fun b : Asset R => b.id = a.id)
          |>.mpr ⟨read, hread, by simpa using hid⟩)
      have hfoundId : found.id = a.id := by simpa using List.find?_some hfound
      obtain ⟨row, hrow, rfl⟩ := hgrouped.assets found (List.mem_of_find?_eq_some hfound)
      rw [Catalog.fromRow_id] at hfoundId
      obtain rfl : row = a := Table.eq_of_key hrow ha hfoundId
      exact ⟨_, hfound, v.catalog.fromRow_effective row⟩
    obtain ⟨id, hid, hidentity⟩ :=
      hregroups.keyed candidate (List.mem_of_find?_eq_some hcandidate) a.id hmem
    exact ⟨id, candidate.key, hid, hidentity, by simp only [recordGiven, hcandidate, hread, heffective]⟩
  · have hout : ∀ candidate ∈ result, a.id ∉ candidate.assetIds := fun candidate hcandidate hmem =>
      hclosure ((hgrouped.checked.mem a.id).mp (List.mem_flatMap.mpr ⟨candidate, hcandidate, hmem⟩))
    obtain ⟨id, key, hid, hidentity, hgiven⟩ := hkeyed a ha fun hmem =>
      hclosure ((hgrouped.regrouped a.id).mpr (.inl hmem))
    have hstays := (hregroups.others a.id hout).trans hid
    refine ⟨id, key, hstays, ?_, ?_⟩
    · obtain ⟨key', hkey'⟩ := hsound.current a.id id hstays
      rcases hregroups.current id key hidentity with hcurrent | hsuperseded
      · exact hcurrent
      · rw [hsuperseded] at hkey'
        cases hkey'
    · have hnone : result.find? (·.assetIds.contains a.id) = none := by
        simpa [List.find?_eq_none] using hout
      simp only [recordGiven, hnone]
      exact hgiven

theorem regroup_keeps {changed : List Uuid} {lineage : Option SessionLineage}
    {keys : Uuid → Option (Text × R.Metadata)} (hsound : v.Sound (· ∈ changed))
    (hkeyed : (Watched.mk v keys).Keyed (· ∈ changed))
    (h : v.regroup changed given cause = .ok (v', lineage)) :
    v'.catalog = v.catalog ∧ v'.Sound (fun _ => False) ∧ v.sessions.Changes v'.sessions ∧
      v.sessions.Retains v'.sessions ∧
      (Watched.mk v' (recordGiven (if changed.isEmpty then none
        else (v.grouped changed given.grouping).toOption) keys)).Keyed fun _ => False := by
  by_cases hne : changed = []
  · subst hne
    simp only [regroup, List.isEmpty_nil, if_true, Except.ok.injEq, Prod.mk.injEq] at h
    obtain ⟨rfl, -⟩ := h
    simp only [List.not_mem_nil] at hsound hkeyed
    exact ⟨rfl, hsound, hsound.unchanged, .refl _, hkeyed⟩
  · obtain ⟨closure, context, result, hgrouping, hgrouped, hcatalog, hregroups, hsound'⟩ :=
      regroup_eq_ok hsound (fun _ h => h) hne h
    refine ⟨hcatalog, hsound', hregroups.changes, fun id kind association hassociation howned => ?_, ?_⟩
    · refine ⟨association, ?_, howned, rfl⟩
      rw [hregroups.associations id (hsound.associated id kind association hassociation)]
      exact hassociation
    · rw [if_neg (by simpa using hne), hgrouping]
      exact hgrouped.keyed hregroups hcatalog hsound' hkeyed

end

theorem rebinds_of_regroups {c c₁ c₀ : Catalog R} {call : Call R} {correctionId : Uuid}
    {changed : BatchChanges} {cause : Cause} {rest : Catalog R → Result (Catalog R)}
    (h : c.half correctionId call = .ok (.regroups c₁ changed cause rest)) (v : Vault P R) :
    v.rebinds c₀ call = v := by
  cases call with
  | applyRemap | moveAssetRecord =>
    simp only [Catalog.half, Result.bind_eq_ok, Result.pure_eq_ok] at h
    obtain ⟨_, -, h⟩ := h
    cases h
  | _ => rfl

theorem regroup_catalog {v v' : Vault P R} {changed : List Uuid} {given : Regrouping P R}
    {cause : Cause} {lineage : Option SessionLineage}
    (h : v.regroup changed given cause = .ok (v', lineage)) : v'.catalog = v.catalog := by
  unfold regroup at h
  split at h
  · cases h
    rfl
  · simp only [Result.bind_eq_ok, Result.pure_eq_ok, Prod.mk.injEq] at h
    obtain ⟨-, -, -, -, rfl, -⟩ := h
    rfl

theorem Step.catalog {v v' : Vault P R} {call : Call R} {correctionId : Uuid}
    {given : Regrouping P R} (h : v.Step (.catalog call correctionId given) v') :
    Catalog.Step v.catalog call v'.catalog := by
  simp only [Step, perform, Result.bind_eq_ok, Result.pure_eq_ok] at h
  obtain ⟨half, hhalf, v₁, hcompleted, rfl⟩ := h
  have hrebinds : (v₁.rebinds v.catalog call).catalog = v₁.catalog := by
    unfold rebinds
    split
    · split <;> rfl
    · rfl
    · rfl
  rw [hrebinds]
  refine Catalog.perform_half hhalf ?_
  cases half with
  | settled c' =>
    cases hcompleted
    rfl
  | regroups c₁ changed cause rest =>
    simp only [completed, regrouped, Result.bind_eq_ok, Result.pure_eq_ok] at hcompleted
    obtain ⟨_, ⟨⟨v₂, lineage⟩, hregroup, rfl⟩, c₂, hrest, rfl⟩ := hcompleted
    have hcatalog := regroup_catalog hregroup
    simp only [invalidateInferences, hcatalog] at hrest
    exact hrest

end Vault

/-- The call on the catalog that a call on the vault makes. -/
def VaultCall.onCatalog : VaultCall P R → Option (Call R)
  | .catalog call _ _ => some call
  | _ => none

namespace Watched

variable {w w' : Watched P R} {call : VaultCall P R}

theorem Keyed.moves {moved : Uuid → Prop} {c' : Catalog R} (hkeyed : w.Keyed fun _ => False)
    (hmoves : Catalog.Moves moved w.vault.catalog c') :
    (Watched.mk { w.vault with catalog := c' } w.given).Keyed moved := by
  intro a' ha' hnot
  rcases hmoves.row a' ha' with ⟨a, ha, hid, -, heffective⟩ | ⟨hmoved, -⟩
  · obtain ⟨id, key, hsession, hidentity, hgiven⟩ := hkeyed a ha (fun h => h)
    rw [hid] at hsession hgiven heffective
    rw [heffective.resolve_right hnot]
    exact ⟨id, key, hsession, hidentity, hgiven⟩
  · exact absurd hmoved hnot

theorem Keyed.reassociate {pending : Uuid → Prop} {v' : Vault P R} (hkeyed : w.Keyed pending)
    (hcatalog : v'.catalog = w.vault.catalog)
    (hre : Sessions.Reassociates w.vault.sessions v'.sessions) :
    (Watched.mk v' w.given).Keyed pending := by
  intro a ha hnot
  simp only [hcatalog] at ha
  obtain ⟨id, key, hsession, hidentity, hgiven⟩ := hkeyed a ha hnot
  refine ⟨id, key, ?_, ?_, hgiven⟩
  · rw [hre.sessionOf]
    exact hsession
  · rw [hre.identity]
    exact hidentity

def confirms : VaultCall P R → Prop
  | .confirm .. => True
  | _ => False

/-- What one call keeps, and what it does to the sessions. -/
structure Keeps (w : Watched P R) (call : VaultCall P R) (w' : Watched P R) : Prop where
  recorded : ∀ a ∈ w.vault.catalog.assets.rows, ∃ a' ∈ w'.vault.catalog.assets.rows, a'.id = a.id
  sound : w'.vault.Sound fun _ => False
  keyed : w'.Keyed fun _ => False
  changes : w.vault.sessions.Changes w'.vault.sessions
  retains : ¬ confirms call → w.vault.sessions.Retains w'.vault.sessions

theorem Keeps.reassociate {v' : Vault P R} (hsound : w.vault.Sound fun _ => False)
    (hkeyed : w.Keyed fun _ => False) (hcatalog : v'.catalog = w.vault.catalog)
    (hre : Sessions.Reassociates w.vault.sessions v'.sessions)
    (hretains : ¬ confirms call → w.vault.sessions.Retains v'.sessions) :
    Keeps w call ⟨v', w.given⟩ where
  recorded := fun a ha => ⟨a, hcatalog ▸ ha, rfl⟩
  sound := hsound.reassociate hcatalog hre
  keyed := hkeyed.reassociate hcatalog hre
  changes := hsound.unchanged.reassociate hre fun id hid _ kind => hre.unknown id hid kind
  retains := hretains

theorem completed_keeps {c₁ : Catalog R} {changed : BatchChanges} {cause : Cause}
    {rest : Catalog R → Result (Catalog R)} {v' : Vault P R} {given : Regrouping P R}
    (hsound : w.vault.Sound fun _ => False) (hkeyed : w.Keyed fun _ => False)
    (hmoves : Catalog.Moves (· ∈ changed.regroup) w.vault.catalog c₁)
    (hrest : ∀ c c', rest c = .ok c' → Catalog.Moves (fun _ => False) c c')
    (h : w.vault.completed given (.regroups c₁ changed cause rest) = .ok v') :
    Keeps w call ⟨v', recordGiven
      (if (Ordered.ascending changed.regroup).isEmpty then none
        else (Vault.grouped ⟨c₁, w.vault.sessions⟩ (Ordered.ascending changed.regroup)
          given.grouping).toOption) w.given⟩ := by
  simp only [Vault.completed, Vault.regrouped, Result.bind_eq_ok, Result.pure_eq_ok] at h
  obtain ⟨_, ⟨⟨v₁, lineage⟩, hregroup, rfl⟩, c₂, hc₂, rfl⟩ := h
  have hmoves' : Catalog.Moves (· ∈ Ordered.ascending changed.regroup) w.vault.catalog c₁ :=
    hmoves.mono fun id hid => Ordered.mem_ascending.mpr hid
  obtain ⟨hcatalog, hsound₁, hchanges, hretains, hkeyed₁⟩ :=
    Vault.regroup_keeps (hsound.moves hmoves') (hkeyed.moves hmoves') hregroup
  obtain ⟨hre, hretains'⟩ :=
    Vault.invalidateInferences_still hsound₁ (Ordered.ascending changed.evidence)
  have hsound₂ : (v₁.invalidateInferences (Ordered.ascending changed.evidence)).Sound
      fun _ => False := hsound₁.reassociate rfl hre
  have hkeyed₂ : (Watched.mk (v₁.invalidateInferences (Ordered.ascending changed.evidence)) _).Keyed
      fun _ => False := hkeyed₁.reassociate rfl hre
  refine ⟨fun a ha => ?_, hsound₂.moves (hrest _ _ hc₂), hkeyed₂.moves (hrest _ _ hc₂), ?_,
    fun _ => hretains.trans hretains'⟩
  · obtain ⟨a₁, ha₁, hid₁, -⟩ := hmoves.kept a ha
    obtain ⟨a₂, ha₂, hid₂, -⟩ := (hrest _ _ hc₂).kept a₁ (hcatalog ▸ ha₁)
    exact ⟨a₂, ha₂, hid₂.trans hid₁⟩
  refine hchanges.reassociate hre fun id hfresh hcurrent kind => ?_
  -- what a new session inherited is the user's, and no inference
  cases hassociation : v₁.sessions.associations id kind with
  | none =>
    simp only [Vault.invalidateInferences]
    split
    · rw [hassociation, Option.map_none]
    · exact hassociation
  | some association =>
    have howned := (hchanges.inherits id hfresh hcurrent kind).owned association hassociation
    simp only [Vault.invalidateInferences]
    split
    · rw [hassociation, Option.map_some, Vault.invalidated_owned howned]
    · exact hassociation

theorem Step.keeps (hsound : w.vault.Sound fun _ => False) (hkeyed : w.Keyed fun _ => False)
    (h : w.Step call w') : Keeps w call w' := by
  obtain ⟨v', given'⟩ := w'
  obtain ⟨hstep, hgiven⟩ := h
  simp only at hstep hgiven
  subst hgiven
  cases call with
  | catalog call correctionId given =>
    simp only [Vault.Step, Vault.perform, Result.bind_eq_ok, Result.pure_eq_ok] at hstep
    obtain ⟨half, hhalf, v₁, hcompleted, rfl⟩ := hstep
    cases Catalog.half_cuts hhalf with
    | settled still =>
      cases hcompleted
      have hsound₁ := hsound.moves still
      have hkeyed₁ := hkeyed.moves still
      obtain ⟨hcatalog, hre, hretains⟩ := Vault.rebinds_still hsound₁ w.vault.catalog call
      have hkeeps : Keeps _ (.catalog call correctionId given) _ :=
        Keeps.reassociate hsound₁ hkeyed₁ hcatalog hre fun _ => hretains
      simp only [Vault.groupedBy, hhalf]
      refine ⟨fun a ha => ?_, hkeeps.sound, hkeeps.keyed, hkeeps.changes, hkeeps.retains⟩
      obtain ⟨a', ha', hid, -⟩ := still.kept a ha
      obtain ⟨a'', ha'', hid'⟩ := hkeeps.recorded a' ha'
      exact ⟨a'', ha'', hid'.trans hid⟩
    | regroups moves still =>
      rw [Vault.rebinds_of_regroups hhalf]
      simp only [Vault.groupedBy, hhalf]
      exact completed_keeps hsound hkeyed moves still hcompleted
  | confirm expected kind subject found recorded =>
    obtain ⟨hcatalog, hre⟩ := Vault.confirmAssociation_still hstep
    exact .reassociate hsound hkeyed hcatalog hre fun hnot => absurd trivial hnot
  | suggest suggestions found =>
    obtain ⟨hcatalog, hre, hretains⟩ := Vault.recordSuggestions_still hstep
    exact .reassociate hsound hkeyed hcatalog hre fun _ => hretains
  | markConflict session =>
    obtain ⟨hcatalog, hre, hretains⟩ := Vault.markAssessmentConflict_still hstep
    exact .reassociate hsound hkeyed hcatalog hre fun _ => hretains

/-! ## Runs -/

theorem empty_sound : (Vault.empty : Vault P R).Sound fun _ => False where
  current := fun _ _ hasset => by cases hasset
  recorded := fun _ _ hasset => by cases hasset
  grouped := fun a ha _ => List.not_mem_nil ha
  member := fun _ ⟨_, hkey⟩ => by cases hkey
  inhabited := fun _ ⟨_, hkey⟩ => by cases hkey
  owned := fun _ _ hmem => absurd hmem List.not_mem_nil
  kind := fun _ _ _ hassociation => by cases hassociation
  associated := fun _ _ _ hassociation => by cases hassociation
  superseded := fun _ _ _ hid => by cases hid

theorem empty_keyed : (empty : Watched P R).Keyed fun _ => False :=
  fun _ ha _ => absurd ha List.not_mem_nil

def Reachable (w : Watched P R) : Prop := ∃ calls, Run Step empty calls w

theorem Reachable.kept {w : Watched P R} (h : w.Reachable) :
    w.vault.Sound (fun _ => False) ∧ w.Keyed fun _ => False := by
  obtain ⟨calls, hrun⟩ := h
  refine hrun.invariant (I := fun w => w.vault.Sound (fun _ => False) ∧ w.Keyed fun _ => False)
    (fun w call w' ⟨hsound, hkeyed⟩ hstep => ?_) ⟨empty_sound, empty_keyed⟩
  have hkeeps := hstep.keeps hsound hkeyed
  exact ⟨hkeeps.sound, hkeeps.keyed⟩

theorem Reachable.keeps {w w' : Watched P R} {call : VaultCall P R} (h : w.Reachable)
    (hstep : w.Step call w') : Keeps w call w' :=
  hstep.keeps h.kept.1 h.kept.2

/-- An asset is in a session whose association bears a value of the user's. -/
def Bears (s : Sessions P) (asset : Uuid) (kind : AssociationKind) (value : Text) : Prop :=
  ∃ id, s.sessionOf asset = some id ∧
    ∃ association ∈ s.associations id kind, value ∈ userValues association

theorem Keeps.bears (h : Keeps w call w') (hsound : w.vault.Sound fun _ => False)
    (hcall : ¬ confirms call) {asset : Uuid} {kind : AssociationKind} {value : Text}
    (hbears : Bears w.vault.sessions asset kind value) :
    Bears w'.vault.sessions asset kind value := by
  obtain ⟨id, hid, association, hassociation, hvalue⟩ := hbears
  have howned := userOwned_of_mem_userValues hvalue
  obtain ⟨a, ha, rfl⟩ := hsound.recorded asset id hid
  obtain ⟨a', ha', haid⟩ := h.recorded a ha
  obtain ⟨id', -, hid', -⟩ := h.keyed a' ha' fun h => h
  rw [haid] at hid'
  have hcurrent' := h.sound.current a.id id' hid'
  by_cases hfresh : w.vault.sessions.identity id' = none
  · -- a session made by this call took the asset
    obtain ⟨members, hmembers, hinherits⟩ := h.changes.inherits id' hfresh hcurrent' kind
    have hmember : a.id ∈ members := (hmembers a.id).mpr hid'
    have hprior : (w.vault.sessions.sessionOf a.id).bind (w.vault.sessions.associations · kind) =
        some association := by
      rw [hid, Option.bind_some, hassociation]
    obtain ⟨association', hassociation'⟩ : ∃ association', w'.vault.sessions.associations id' kind =
        some association' := by
      refine Option.ne_none_iff_exists'.mp fun hnone => ?_
      have := hinherits.nothing.mp hnone a.id hmember
      rw [hprior, Option.any_some, howned] at this
      cases this
    refine ⟨id', hid', association', hassociation', ?_⟩
    by_cases hconfirmed : association'.state = .confirmed
    · obtain ⟨-, hall⟩ := (hinherits.confirmed association'.subjectId).mp
        ⟨association', hassociation', hconfirmed, rfl⟩
      obtain ⟨other, hother, hstate, hsubject⟩ := hall a.id hmember
      obtain rfl : association = other := Option.some.inj (hprior.symm.trans hother)
      simpa only [userValues, hconfirmed, hstate, if_true, subjectText, hsubject] using hvalue
    · obtain ⟨hpending, -, hvalues⟩ := hinherits.review association' hassociation' hconfirmed
      simp only [userValues, hconfirmed, if_false, hpending, if_true]
      refine (hvalues value).mpr ⟨a.id, hmember, ?_⟩
      rw [hprior, priorValues_of_userOwned howned]
      exact hvalue
  · -- the session the asset is in was there before, and is the one it was in
    have hcurrent : w.vault.sessions.IsCurrent id' := by
      obtain ⟨⟨key, superseded⟩, hkey⟩ := Option.ne_none_iff_exists'.mp hfresh
      cases superseded with
      | none => exact ⟨key, hkey⟩
      | some lineage =>
        obtain ⟨key', hkey'⟩ := hcurrent'
        rw [h.changes.superseded id' key lineage hkey] at hkey'
        cases hkey'
    have hextends := (h.changes.keeps id' id' hcurrent hcurrent').mp rfl
    obtain rfl : id = id' := by
      rcases hextends.added a.id hid' with hsame | hnone
      · exact Option.some.inj (hid.symm.trans hsame)
      · rw [hid] at hnone
        cases hnone
    obtain ⟨association', hassociation', -, hvalues⟩ :=
      h.retains hcall id kind association hassociation howned
    exact ⟨id, hid', association', hassociation', hvalues ▸ hvalue⟩

structure Later (w w' : Watched P R) : Prop where
  superseded : ∀ id key lineage, w.vault.sessions.identity id = some (key, some lineage) →
    w'.vault.sessions.identity id = some (key, some lineage)
  lineages : w.vault.sessions.lineages <+: w'.vault.sessions.lineages

theorem Later.trans {w₁ w₂ w₃ : Watched P R} (h : Later w₁ w₂) (h' : Later w₂ w₃) :
    Later w₁ w₃ :=
  ⟨fun id key lineage hid => h'.superseded id key lineage (h.superseded id key lineage hid),
    h.lineages.trans h'.lineages⟩

theorem Keeps.later (h : Keeps w call w') : Later w w' := by
  refine ⟨h.changes.superseded, ?_⟩
  rcases h.changes.lineage with ⟨-, hsame⟩ | ⟨row, hadd, -⟩
  · rw [hsame]
  · rw [hadd]
    exact List.prefix_append _ _

theorem later_of_run {w w' : Watched P R} {calls : List (VaultCall P R)} (h : w.Reachable)
    (hrun : Run Step w calls w') : Later w w' := by
  refine hrun.relates (I := fun w => w.vault.Sound (fun _ => False) ∧ w.Keyed fun _ => False)
    (R := Later) (fun w => ⟨fun _ _ _ hid => hid, List.prefix_refl _⟩) (fun _ _ _ => Later.trans)
    (fun w call w' hw hstep => ?_) (fun w call w' hw hstep => (hstep.keeps hw.1 hw.2).later) h.kept
  exact ⟨(hstep.keeps hw.1 hw.2).sound, (hstep.keeps hw.1 hw.2).keyed⟩

theorem bears_of_run {w w' : Watched P R} {calls : List (VaultCall P R)} (h : w.Reachable)
    (hrun : Run Step w calls w') (hcalls : ∀ call ∈ calls, ¬ confirms call) {asset : Uuid}
    {kind : AssociationKind} {value : Text} (hbears : Bears w.vault.sessions asset kind value) :
    Bears w'.vault.sessions asset kind value := by
  obtain ⟨hsound, hkeyed⟩ := h.kept
  clear h
  induction hrun with
  | nil => exact hbears
  | cons hstep _ ih =>
    have hkeeps := hstep.keeps hsound hkeyed
    exact ih (fun call hcall => hcalls call (List.mem_cons_of_mem _ hcall))
      (hkeeps.bears hsound (hcalls _ List.mem_cons_self) hbears) hkeeps.sound hkeeps.keyed

theorem Keeps.lineage_of_superseded (h : Keeps w call w') {id : Uuid}
    (hold : w.vault.sessions.IsCurrent id) (hnot : ¬ w'.vault.sessions.IsCurrent id) :
    ∃ key row, w'.vault.sessions.identity id =
        some (key, some w.vault.sessions.lineages.length) ∧
      w'.vault.sessions.lineages = w.vault.sessions.lineages ++ [row] ∧
      w.vault.sessions.Lineage w'.vault.sessions row.lineage := by
  obtain ⟨key, hkey⟩ := hold
  rcases h.changes.lineage with ⟨hstays, -⟩ | ⟨row, hadd, -, hlineage⟩
  · exact absurd (hstays id ⟨key, hkey⟩) hnot
  · rcases h.changes.current id key hkey with hcurrent | hsuperseded
    · exact absurd ⟨key, hcurrent⟩ hnot
    · exact ⟨key, row, hsuperseded, hadd, hlineage⟩

/-- Without its sessions every run of calls is a run of the catalog alone, of the calls made on it:
sessions, associations, suggestions and regroups write nothing of it. -/
theorem run_catalog {calls : List (VaultCall P R)} (h : Run Step w calls w') :
    Run Catalog.Step w.vault.catalog (calls.filterMap VaultCall.onCatalog) w'.vault.catalog := by
  induction h with
  | nil => exact .nil _
  | @cons w call w₁ calls w' hstep _ ih =>
    cases call with
    | catalog call correctionId given => exact .cons (Vault.Step.catalog hstep.1) ih
    | confirm expected kind subject found recorded =>
      rw [← (Vault.confirmAssociation_still hstep.1).1]
      exact ih
    | suggest suggestions found =>
      rw [← (Vault.recordSuggestions_still hstep.1).1]
      exact ih
    | markConflict session =>
      rw [← (Vault.markAssessmentConflict_still hstep.1).1]
      exact ih

/-- Sessions over any run of calls. Every recorded asset is a member of exactly one current session,
of the key the last grouping of it gave for the evidence it still has. What a later run finds
superseded stays so, and what the user confirmed or has yet to review goes with the assets until a
confirmation. A call keeps a session exactly where one has its key, its assets, and besides only
assets of no session; the lineage of those it supersedes names the sessions that took their assets;
and a session it makes is Confirmed only where all its assets were. -/
theorem sessions_over_regroups {w : Watched P R} (h : w.Reachable) :
    (∀ a ∈ w.vault.catalog.assets.rows, ∃ id key,
      (∀ other, w.vault.sessions.IsCurrent other ∧ (other, a.id) ∈ w.vault.sessions.members ↔
        other = id) ∧
      w.vault.sessions.identity id = some (key, none) ∧ w.given a.id = some (key, a.effective)) ∧
    (∀ calls w', Run Step w calls w' → Later w w' ∧
      ((∀ call ∈ calls, ¬ confirms call) → ∀ asset kind value,
        Bears w.vault.sessions asset kind value → Bears w'.vault.sessions asset kind value)) ∧
    ∀ call w', w.Step call w' →
      (∀ id id', w.vault.sessions.IsCurrent id → w'.vault.sessions.IsCurrent id' →
        (id' = id ↔ w.vault.sessions.Extends w'.vault.sessions id id')) ∧
      (∀ id, w.vault.sessions.IsCurrent id → ¬ w'.vault.sessions.IsCurrent id →
        ∃ key row, w'.vault.sessions.identity id =
            some (key, some w.vault.sessions.lineages.length) ∧
          w'.vault.sessions.lineages = w.vault.sessions.lineages ++ [row] ∧
          w.vault.sessions.Lineage w'.vault.sessions row.lineage) ∧
      ∀ id, w.vault.sessions.identity id = none → w'.vault.sessions.IsCurrent id →
        ∀ kind, w.vault.sessions.InheritsFrom w'.vault.sessions id kind := by
  obtain ⟨hsound, hkeyed⟩ := h.kept
  refine ⟨fun a ha => ?_, fun calls w' hrun => ⟨later_of_run h hrun, fun hcalls _ _ _ =>
    bears_of_run h hrun hcalls⟩, fun call w' hstep => ?_⟩
  · obtain ⟨id, key, hsession, hidentity, hgiven⟩ := hkeyed a ha fun h => h
    refine ⟨id, key, fun other => ⟨fun ⟨hcurrent, hmember⟩ => ?_, ?_⟩, hidentity, hgiven⟩
    · have hother := (hsound.member other hcurrent a.id).mp hmember
      exact Option.some.inj (hother.symm.trans hsession)
    · rintro rfl
      have hcurrent := hsound.current a.id other hsession
      exact ⟨hcurrent, (hsound.member other hcurrent a.id).mpr hsession⟩
  · have hkeeps := h.keeps hstep
    exact ⟨hkeeps.changes.keeps, fun id => hkeeps.lineage_of_superseded, hkeeps.changes.inherits⟩

end Watched

/-! ## Two sessions replaced at once -/

/-- A reader whose metadata is one text, which a correction replaces. -/
def textReader : Reader where
  Metadata := Text
  decEq := inferInstance
  applyCorrections := fun observed corrections => .ok ((corrections.map Prod.snd).getLast?.getD observed)
  sameOn := fun left right _ => left = right

def byText : Regrouping wholePlatform textReader where
  grouping := fun assets _ => (assets.map (·.effective)).dedup.map fun (text : textReader.Metadata) =>
    ⟨text, (assets.filter (·.effective = text)).map Asset.id, [], none, none⟩
  isLight := fun _ => none
  ids := fun i => Fin.ofNat _ (10 + i)
  effects := ⟨fun _ => .ok (), .ok (), fun _ => .ok ()⟩

/-- A frame of a filter, as a scan finds it after a write at `modifiedNs`. -/
def filterFile (name fileId : String) (modifiedNs : Int) (filter : String) : ScanFile textReader :=
  ⟨[name.toList],
    { frameOn "card" with identity := ⟨volumeNamed "card", some fileId⟩, modifiedNs }, .fits,
    filter.toList⟩

def foundTwo (operationId : Uuid) (given : Regrouping wholePlatform textReader)
    (files : List (ScanFile textReader)) (v : Vault wholePlatform textReader) :
    VaultCall wholePlatform textReader :=
  .catalog (.applyScanBatch v.catalog operationId cardRoot ⟨files, []⟩
    (fun _ => .error (.sourceUnavailable "not hashed"))
    (fun path => if path = ["a.fits".toList] then 3 else 4) 1) 0 given

/-- A location is scanned, which holds a frame of each of two filters, and scanned again. -/
def scanTwo : List (Vault wholePlatform textReader → VaultCall wholePlatform textReader) :=
  [fun _ => .catalog (.registerLocation 1 [] ⟨true, []⟩ cardRoot (.ok ())) 0 byText,
    fun _ => .catalog (.beginScan 2 1 none 0) 0 byText,
    foundTwo 2 byText [filterFile "a.fits" "7" 5 "Ha", filterFile "b.fits" "8" 5 "OIII"],
    fun _ => .catalog (.abortScan 2 .canceled "canceled") 0 byText,
    fun _ => .catalog (.beginScan 5 1 none 10) 0 byText]

/-- The second scan finds other filters in the headers of both. -/
def rewrittenTwo : Vault wholePlatform textReader → VaultCall wholePlatform textReader :=
  foundTwo 5 { byText with ids := fun i => Fin.ofNat _ (20 + i) }
    [filterFile "a.fits" "7" 6 "R", filterFile "b.fits" "8" 6 "G"]

/-- Calls made one after the other, each made of the vault it is made on. -/
def Vault.follow (v : Vault P R) : List (Vault P R → VaultCall P R) → Option (Vault P R)
  | [] => some v
  | call :: calls =>
    match v.perform (call v) with
    | .ok v' => v'.follow calls
    | .error _ => none

namespace Watched

theorem run_of_follow {calls : List (Vault P R → VaultCall P R)} {w : Watched P R} {v : Vault P R}
    (h : w.vault.follow calls = some v) : ∃ made w', Run Step w made w' ∧ w'.vault = v := by
  induction calls generalizing w with
  | nil =>
    cases h
    exact ⟨[], w, .nil w, rfl⟩
  | cons call calls ih =>
    simp only [Vault.follow] at h
    split at h
    · next v₁ hstep =>
      obtain ⟨made, w', hrun, hw'⟩ :=
        ih (w := ⟨v₁, recordGiven (w.vault.groupedBy (call w.vault)) w.given⟩) h
      have hone : w.Step (call w.vault)
        ⟨v₁, recordGiven (w.vault.groupedBy (call w.vault)) w.given⟩ := ⟨hstep, rfl⟩
      exact ⟨call w.vault :: made, w', .cons hone hrun, hw'⟩
    · cases h

theorem run_catalog_of_two : ∃ (calls : List (VaultCall wholePlatform textReader)) (c : Catalog textReader),
    Run Catalog.Step .empty (calls.filterMap VaultCall.onCatalog) c ∧ ∃ a ∈ c.assets.rows, a.id = 3 := by
  have hfollow : ((Vault.empty.follow scanTwo).any fun v =>
      v.catalog.assets.rows.any fun a => a.id = 3) = true := by decide
  obtain ⟨v, hv, hany⟩ := (Option.any_eq_true _ _).mp hfollow
  obtain ⟨a, ha, hid⟩ := List.any_eq_true.mp hany
  obtain ⟨made, w, hrun, rfl⟩ := run_of_follow (w := empty) hv
  exact ⟨made, w.vault.catalog, run_catalog hrun, a, ha, of_decide_eq_true hid⟩

theorem sessions_over_regroups_of_two : ∃ w : Watched wholePlatform textReader,
    w.Reachable ∧ ∃ a ∈ w.vault.catalog.assets.rows, a.id = 3 ∧ ∃ id key,
      (∀ other, w.vault.sessions.IsCurrent other ∧ (other, a.id) ∈ w.vault.sessions.members ↔
        other = id) ∧
      w.vault.sessions.identity id = some (key, none) ∧ w.given a.id = some (key, a.effective) := by
  have hfollow : ((Vault.empty.follow scanTwo).any fun v =>
      v.catalog.assets.rows.any fun a => a.id = 3) = true := by decide
  obtain ⟨v, hv, hany⟩ := (Option.any_eq_true _ _).mp hfollow
  obtain ⟨a, ha, hid⟩ := List.any_eq_true.mp hany
  obtain ⟨made, w, hrun, rfl⟩ := run_of_follow (w := empty) hv
  exact ⟨w, ⟨made, hrun⟩, a, ha, of_decide_eq_true hid,
    (sessions_over_regroups ⟨made, hrun⟩).1 a ha⟩

/-- Where one regroup supersedes two sessions, the lineage of the one names a session that took no
asset of its own. -/
theorem lineage_names_another_successor : ∃ (w w' : Watched wholePlatform textReader),
    w.Reachable ∧ w.Step (rewrittenTwo w.vault) w' ∧ ∃ id key row successor,
      w.vault.sessions.identity id = some (key, none) ∧
      w'.vault.sessions.identity id = some (key, some 0) ∧
      w'.vault.sessions.lineages[0]? = some row ∧ successor ∈ row.lineage.successors ∧
      ∀ asset, w'.vault.sessions.sessionOf asset = some successor →
        w.vault.sessions.sessionOf asset ≠ some id := by
  have hfollow : ((Vault.empty.follow scanTwo).any fun v =>
      match v.perform (rewrittenTwo v) with
      | .ok v' => v.sessions.identity 10 = some ("Ha".toList, none) &&
        v'.sessions.identity 10 = some ("Ha".toList, some 0) &&
        (v'.sessions.lineages[0]?).any (fun row => row.lineage.successors.contains 21) &&
        v'.catalog.assets.rows.all fun a => !(v'.sessions.sessionOf a.id = some 21 &&
          v.sessions.sessionOf a.id = some 10)
      | .error _ => false) = true := by decide +kernel
  obtain ⟨v, hv, hcheck⟩ := (Option.any_eq_true _ _).mp hfollow
  obtain ⟨made, w, hrun, rfl⟩ := run_of_follow (w := empty) hv
  split at hcheck
  · next v' hstep =>
    simp only [Bool.and_eq_true, decide_eq_true_eq] at hcheck
    obtain ⟨⟨⟨hold, hnew⟩, hlineage⟩, hall⟩ := hcheck
    obtain ⟨row, hrow, hsuccessor⟩ := (Option.any_eq_true _ _).mp hlineage
    have hreachable : w.Reachable := ⟨made, hrun⟩
    have hw' : w.Step (rewrittenTwo w.vault)
      ⟨v', recordGiven (w.vault.groupedBy (rewrittenTwo w.vault)) w.given⟩ := ⟨hstep, rfl⟩
    refine ⟨w, _, hreachable, hw', 10, _, row, 21, hold, hnew, hrow, by simpa using hsuccessor, ?_⟩
    intro asset hasset hbefore
    obtain ⟨a, ha, rfl⟩ := (hreachable.keeps hw').sound.recorded asset 21 hasset
    have hnot := List.all_eq_true.mp hall a ha
    simp only [Bool.not_eq_true', Bool.and_eq_false_iff, decide_eq_false_iff_not] at hnot
    exact hnot.elim (· hasset) (· hbefore)
  · cases hcheck

end Watched

end PlateVault.Library
