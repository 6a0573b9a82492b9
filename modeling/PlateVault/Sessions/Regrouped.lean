import PlateVault.Sessions.Committed

/-!
# What a regroup does

Between calls every asset is in exactly one current session, and a current session's recorded
members are its assets. A regroup of the assets that are in none yet, among others, keeps this: the
sessions it touches are regrouped whole, and a session continues exactly where one has its key and
all its assets, and beside these only assets that were in no session.
-/

namespace PlateVault.Library

variable {P : Platform} {R : Reader}

namespace Sessions

def IsCurrent (s : Sessions P) (id : Uuid) : Prop := ∃ key, s.identity id = some (key, none)

/-- The session `id'` is `id` with assets in no session added, if any. -/
structure Extends (s s' : Sessions P) (id id' : Uuid) : Prop where
  key : (s'.identity id').map Prod.fst = (s.identity id).map Prod.fst
  held : ∀ asset, s.sessionOf asset = some id → s'.sessionOf asset = some id'
  added : ∀ asset, s'.sessionOf asset = some id' →
    s.sessionOf asset = some id ∨ s.sessionOf asset = none

/-- What `id` is associated with, where each of its assets was in a session of `s` or in none. -/
def InheritsFrom (s s' : Sessions P) (id : Uuid) (kind : AssociationKind) : Prop :=
  ∃ members, (∀ asset, asset ∈ members ↔ s'.sessionOf asset = some id) ∧
    Inherits members (fun asset => (s.sessionOf asset).bind (s.associations · kind))
      (s'.associations id kind)

/-- The lineage of a regroup that superseded sessions: its successors are the sessions that took
their assets. -/
structure Lineage (s s' : Sessions P) (lineage : SessionLineage) : Prop where
  predecessors : ∀ id, id ∈ lineage.predecessors ↔ s.IsCurrent id ∧ ¬ s'.IsCurrent id
  successors : ∀ id, id ∈ lineage.successors ↔ s'.IsCurrent id ∧
    ∃ asset, s'.sessionOf asset = some id ∧
      ∃ old ∈ lineage.predecessors, s.sessionOf asset = some old

/-- Sessions before and after a regroup whose grouping returned `result`. -/
structure Regroups (result : List (SessionCandidate P)) (s s' : Sessions P) : Prop where
  keyed : ∀ candidate ∈ result, ∀ asset ∈ candidate.assetIds,
    ∃ id, s'.sessionOf asset = some id ∧ s'.identity id = some (candidate.key, none)
  others : ∀ asset, (∀ candidate ∈ result, asset ∉ candidate.assetIds) →
    s'.sessionOf asset = s.sessionOf asset
  superseded : ∀ id key lineage, s.identity id = some (key, some lineage) →
    s'.identity id = some (key, some lineage)
  current : ∀ id key, s.identity id = some (key, none) → s'.identity id = some (key, none) ∨
    s'.identity id = some (key, some s.lineages.length)
  keeps : ∀ id id', s.IsCurrent id → s'.IsCurrent id' → (id' = id ↔ Extends s s' id id')
  lineage : (∀ id, s.IsCurrent id → s'.IsCurrent id) ∧ s'.lineages = s.lineages ∨
    ∃ row, s'.lineages = s.lineages ++ [row] ∧ row.lineage.predecessors ≠ [] ∧
      Lineage s s' row.lineage
  inherits : ∀ id, s.identity id = none → s'.IsCurrent id → ∀ kind, InheritsFrom s s' id kind
  associations : ∀ id, s.identity id ≠ none → s'.associations id = s.associations id

end Sessions

namespace Vault

/-- What holds of the sessions between calls, but for assets `pending` a regroup. -/
structure Sound (pending : Uuid → Prop) (v : Vault P R) : Prop where
  current : ∀ asset id, v.sessions.sessionOf asset = some id → v.sessions.IsCurrent id
  recorded : ∀ asset id, v.sessions.sessionOf asset = some id →
    ∃ a ∈ v.catalog.assets.rows, a.id = asset
  grouped : ∀ a ∈ v.catalog.assets.rows, v.sessions.sessionOf a.id = none → pending a.id
  member : ∀ id, v.sessions.IsCurrent id → ∀ asset,
    (id, asset) ∈ v.sessions.members ↔ v.sessions.sessionOf asset = some id
  inhabited : ∀ id, v.sessions.IsCurrent id → ∃ asset, v.sessions.sessionOf asset = some id
  owned : ∀ id asset, (id, asset) ∈ v.sessions.members → v.sessions.identity id ≠ none
  kind : ∀ session kind, ∀ association ∈ v.sessions.associations session kind,
    association.kind = kind
  associated : ∀ session kind, ∀ association ∈ v.sessions.associations session kind,
    v.sessions.identity session ≠ none
  superseded : ∀ id key lineage, v.sessions.identity id = some (key, some lineage) →
    ∃ row, v.sessions.lineages[lineage]? = some row ∧ id ∈ row.lineage.predecessors

/-! ## What is grouped -/

/-- What a regroup read: the sessions it touches with all of their assets, and these and the
changed assets grouped. -/
structure Grouped (v : Vault P R) (changed closure : List Uuid) (context : GroupContext P R)
    (result : List (SessionCandidate P)) : Prop where
  once : (context.prior.map PriorSession.id).Nodup
  prior : ∀ session ∈ context.prior, v.sessions.identity session.id = some (session.key, none) ∧
    ∀ asset, asset ∈ session.members ↔ v.sessions.sessionOf asset = some session.id
  touched : ∀ asset ∈ closure, ∀ id, v.sessions.sessionOf asset = some id →
    ∃ session ∈ context.prior, session.id = id
  regrouped : ∀ asset, asset ∈ closure ↔
    asset ∈ changed ∨ ∃ session ∈ context.prior, asset ∈ session.members
  old : ∀ asset ∈ closure, context.oldSessionOf asset = v.sessions.sessionOf asset
  assets : ∀ a ∈ context.assets, ∃ row ∈ v.catalog.assets.rows, a = v.catalog.fromRow row
  loaded : ∀ asset ∈ closure, ∃ a ∈ context.assets, a.id = asset
  checked : Checked result closure

theorem loadAssets_eq_ok {c : Catalog R} {ids : List Uuid} {assets : List (Asset R)}
    (h : c.loadAssets ids = .ok assets) :
    (∀ a ∈ assets, ∃ row ∈ c.assets.rows, a = c.fromRow row) ∧
      ∀ id ∈ ids, ∃ a ∈ assets, a.id = id := by
  simp only [Catalog.loadAssets, Result.bind_eq_ok, Result.require_eq_ok, decide_eq_true_eq,
    Result.pure_eq_ok] at h
  obtain ⟨-, hlength, rfl⟩ := h
  have hid : ∀ row : Asset R, (c.fromRow row).id = row.id := fun row => by
    obtain ⟨availability, heq, -⟩ := c.fromRow_eq row
    rw [heq]
  constructor
  · intro a ha
    obtain ⟨row, hrow, rfl⟩ := List.mem_map.mp ha
    exact ⟨row, (List.mem_filter.mp (Ordered.mem_sortBy.mp hrow)).1, rfl⟩
  · -- as many rows as ids, all of them among the ids
    have hperm := Ordered.perm_sortBy Asset.id (c.assets.rows.filter fun a => a.id ∈ ids)
    have hnodup : ((c.assets.rows.filter fun a => a.id ∈ ids).map Asset.id).Nodup :=
      c.assets.nodup.sublist (List.filter_sublist.map Asset.id)
    have hsub : (c.assets.rows.filter fun a => a.id ∈ ids).map Asset.id ⊆ ids := by
      intro id hmem
      obtain ⟨row, hrow, rfl⟩ := List.mem_map.mp hmem
      simpa using (List.mem_filter.mp hrow).2
    have hall := (List.subperm_of_subset hnodup hsub).perm_of_length_le (by
      rw [List.length_map, ← hperm.length_eq, ← hlength, List.length_map])
    intro id hmem
    obtain ⟨row, hrow, rfl⟩ := List.mem_map.mp (hall.mem_iff.mpr hmem)
    exact ⟨c.fromRow row, List.mem_map_of_mem (Ordered.mem_sortBy.mpr hrow), hid row⟩

section Grouping

variable {v : Vault P R} {pending : Uuid → Prop} {changed : List Uuid} {grouping : Grouping P R}
  {context : GroupContext P R} {result : List (SessionCandidate P)}

theorem Sound.mem_currentMembers (hsound : v.Sound pending) {id asset : Uuid} :
    asset ∈ v.currentMembers id ↔ v.sessions.sessionOf asset = some id := by
  simp only [currentMembers, Ordered.mem_ascending, List.mem_filter, decide_eq_true_eq]
  refine ⟨And.right, fun h => ⟨?_, h⟩⟩
  obtain ⟨a, ha, rfl⟩ := hsound.recorded asset id h
  exact List.mem_map_of_mem ha

theorem Sound.affected_current (hsound : v.Sound pending) {first : List (SessionCandidate P)}
    {id : Uuid} (h : id ∈ v.affected changed first) : v.sessions.IsCurrent id := by
  simp only [affected, Ordered.mem_ascending, List.mem_append, List.mem_filterMap,
    List.mem_flatMap] at h
  rcases h with ⟨asset, -, hsession⟩ | ⟨candidate, -, hkey⟩
  · exact hsound.current asset id hsession
  · obtain ⟨row, hrow, rfl⟩ := List.mem_map.mp hkey
    simp only [List.mem_filter, Bool.and_eq_true, Option.isNone_iff_eq_none] at hrow
    obtain ⟨hrow, ⟨-, hnone⟩, -⟩ := hrow
    exact ⟨row.key, by rw [Sessions.identity, Table.find?_of_mem hrow, Option.map_some, hnone]⟩

theorem grouped_eq_ok (hsound : v.Sound pending)
    (h : v.grouped changed grouping = .ok (context, result)) :
    ∃ closure, v.Grouped changed closure context result ∧
      ∃ standing, result = grouping context.assets standing := by
  simp only [grouped, Result.bind_eq_ok, Result.pure_eq_ok, Prod.mk.injEq] at h
  obtain ⟨changedAssets, -, first, -, prior, hprior, assets, hassets, result', hresult, rfl, rfl⟩ := h
  obtain ⟨rfl, hchecked⟩ := checkedGrouping_eq_ok hresult
  refine ⟨Ordered.ascending (changed ++ prior.flatMap PriorSession.members), ?_, _, rfl⟩
  have hids : prior.map PriorSession.id = v.affected changed first := by
    refine Result.map_of_mapM (fun id session hsession => ?_) hprior
    simp only [priorSession, Result.bind_eq_ok, Result.pure_eq_ok] at hsession
    obtain ⟨row, -, rfl⟩ := hsession
    rfl
  have hclosed : ∀ session ∈ prior,
      v.sessions.identity session.id = some (session.key, none) ∧
        ∀ asset, asset ∈ session.members ↔ v.sessions.sessionOf asset = some session.id := by
    intro session hsession
    obtain ⟨id, hid, hload⟩ := Result.mem_mapM hprior hsession
    obtain ⟨key, hkey⟩ := hsound.affected_current hid
    simp only [priorSession, Sessions.loadSessionRow, Result.bind_eq_ok, Result.orElse_eq_ok,
      Result.pure_eq_ok] at hload
    obtain ⟨row, hrow, rfl⟩ := hload
    simp only [Sessions.identity, hrow, Option.map_some, Option.some.injEq, Prod.mk.injEq] at hkey
    refine ⟨?_, fun asset => hsound.mem_currentMembers⟩
    rw [Sessions.identity, hrow, Option.map_some, hkey.2]
  obtain ⟨hrows, hloaded⟩ := loadAssets_eq_ok hassets
  refine ⟨by rw [hids]; exact Ordered.nodup_ascending _, hclosed, fun asset hasset id hid => ?_,
    by simp, fun asset hasset => if_pos hasset, hrows, hloaded, hchecked⟩
  simp only [Ordered.mem_ascending, List.mem_append, List.mem_flatMap] at hasset
  rcases hasset with hasset | ⟨session, hsession, hmember⟩
  · have : id ∈ prior.map PriorSession.id := by
      rw [hids]
      simp only [affected, Ordered.mem_ascending, List.mem_append, List.mem_filterMap]
      exact .inl ⟨asset, hasset, hid⟩
    exact List.mem_map.mp this
  · have := ((hclosed session hsession).2 asset).mp hmember
    exact ⟨session, hsession, Option.some.inj (this.symm.trans hid)⟩

end Grouping

/-! ## The sessions after a commit -/

structure Committed (v : Vault P R) (changed closure : List Uuid) (context : GroupContext P R)
    (result : List (SessionCandidate P)) (plan : GroupPlan P) (cause : Cause)
    (created : List (Uuid × SessionCandidate P)) (s' : Sessions P) : Prop where
  grouped : v.Grouped changed closure context result
  planned : Planned context.prior context.oldSessionOf result plan
  superseded : ∀ id, id ∈ plan.superseded ↔ (∃ session ∈ context.prior, session.id = id) ∧
    ∀ kept ∈ plan.kept, kept.id ≠ id
  commits : Sessions.Commits plan context cause created v.sessions s'

section Commit

variable {v : Vault P R} {pending : Uuid → Prop} {changed closure : List Uuid}
  {context : GroupContext P R} {result : List (SessionCandidate P)} {plan : GroupPlan P}
  {cause : Cause} {created : List (Uuid × SessionCandidate P)} {s' : Sessions P}

theorem Grouped.disjoint (hgrouped : v.Grouped changed closure context result)
    (hplanned : Planned context.prior context.oldSessionOf result plan) :
    (plan.kept.map KeptSession.candidate ++ plan.created).Pairwise fun c c' =>
      ∀ asset ∈ c.assetIds, asset ∉ c'.assetIds :=
  hplanned.perm.symm.pairwise hgrouped.checked.disjoint
    fun hdisjoint asset hasset hasset' => hdisjoint asset hasset' hasset

theorem Grouped.commit_disjoint (hgrouped : v.Grouped changed closure context result)
    (hplanned : Planned context.prior context.oldSessionOf result plan) :
    (plan.created.map candidateMembers ++ plan.kept.map KeptSession.added).Pairwise
      fun assets assets' => ∀ asset ∈ assets, asset ∉ assets' := by
  obtain ⟨hkept, hcreated, hacross⟩ := List.pairwise_append.mp (hgrouped.disjoint hplanned)
  have hadded : ∀ kept ∈ plan.kept, ∀ asset ∈ kept.added, asset ∈ kept.candidate.assetIds := by
    intro kept hmem asset hasset
    obtain ⟨session, hkeeps⟩ := hplanned.kept kept hmem
    exact ((hkeeps.added asset).mp hasset).1
  refine List.pairwise_append.mpr ⟨?_, ?_, ?_⟩
  · refine List.pairwise_map.mpr (hcreated.imp fun hdisjoint asset hasset hasset' => ?_)
    exact hdisjoint asset (mem_candidateMembers.mp hasset) (mem_candidateMembers.mp hasset')
  · refine List.pairwise_map.mpr ((List.pairwise_map.mp hkept).imp_of_mem
      fun hmem hmem' hdisjoint asset hasset hasset' => ?_)
    exact hdisjoint asset (hadded _ hmem asset hasset) (hadded _ hmem' asset hasset')
  · intro members hmembers added hadd asset hasset hasset'
    obtain ⟨candidate, hcandidate, rfl⟩ := List.mem_map.mp hmembers
    obtain ⟨kept, hmem, rfl⟩ := List.mem_map.mp hadd
    exact hacross _ (List.mem_map_of_mem hmem) candidate hcandidate asset
      (hadded kept hmem asset hasset') (mem_candidateMembers.mp hasset)

namespace Committed

variable (h : Committed v changed closure context result plan cause created s')
include h

theorem created_mem {entry : Uuid × SessionCandidate P} (hentry : entry ∈ created) :
    entry.2 ∈ plan.created := by
  rw [← h.commits.candidates]
  exact List.mem_map_of_mem hentry

theorem created_kept {entry : Uuid × SessionCandidate P} (hentry : entry ∈ created)
    {kept : KeptSession P} (hkept : kept ∈ plan.kept) {asset : Uuid}
    (hasset : asset ∈ entry.2.assetIds) : asset ∉ kept.candidate.assetIds := fun hmem =>
  (List.pairwise_append.mp (h.grouped.disjoint h.planned)).2.2 _ (List.mem_map_of_mem hkept) _
    (h.created_mem hentry) asset hmem hasset

theorem kept_unique {kept kept' : KeptSession P} (hkept : kept ∈ plan.kept)
    (hkept' : kept' ∈ plan.kept) {asset : Uuid} (hasset : asset ∈ kept.candidate.assetIds)
    (hasset' : asset ∈ kept'.candidate.assetIds) : kept = kept' := by
  by_contra hne
  have hpairwise := List.pairwise_map.mp
    (List.pairwise_append.mp (h.grouped.disjoint h.planned)).1
  have : Std.Symm fun (k k' : KeptSession P) =>
      ∀ asset ∈ k.candidate.assetIds, asset ∉ k'.candidate.assetIds :=
    ⟨fun _ _ hdisjoint asset hasset hasset' => hdisjoint asset hasset' hasset⟩
  exact hpairwise.forall hkept hkept' hne asset hasset hasset'

theorem created_held {entry : Uuid × SessionCandidate P} (hentry : entry ∈ created) {asset : Uuid}
    (hasset : asset ∈ entry.2.assetIds) : s'.sessionOf asset = some entry.1 :=
  h.commits.attached.held _ (List.mem_append_left _ (List.mem_map_of_mem hentry)) asset
    (mem_candidateMembers.mpr hasset)

theorem unmoved {asset : Uuid} (hcreated : ∀ entry ∈ created, asset ∉ entry.2.assetIds)
    (hkept : ∀ kept ∈ plan.kept, asset ∉ kept.added) :
    s'.sessionOf asset = v.sessions.sessionOf asset := by
  refine h.commits.attached.rest asset fun given hgiven => ?_
  rcases List.mem_append.mp hgiven with hgiven | hgiven
  · obtain ⟨entry, hentry, rfl⟩ := List.mem_map.mp hgiven
    exact fun hmem => hcreated entry hentry (mem_candidateMembers.mp hmem)
  · obtain ⟨kept, hmem, rfl⟩ := List.mem_map.mp hgiven
    exact hkept kept hmem

theorem kept_held {kept : KeptSession P} (hkept : kept ∈ plan.kept) {asset : Uuid}
    (hasset : asset ∈ kept.candidate.assetIds) : s'.sessionOf asset = some kept.id := by
  obtain ⟨session, hkeeps⟩ := h.planned.kept kept hkept
  by_cases hold : asset ∈ session.members
  · rw [h.unmoved (fun entry hentry hmem =>
      h.created_kept hentry hkept hmem hasset), ← hkeeps.id]
    · exact ((h.grouped.prior session hkeeps.mem).2 asset).mp hold
    · intro kept' hkept' hadded
      obtain ⟨session', hkeeps'⟩ := h.planned.kept kept' hkept'
      have hin := (hkeeps'.added asset).mp hadded
      obtain rfl := h.kept_unique hkept hkept' hasset hin.1
      obtain rfl : session' = session := List.inj_on_of_nodup_map h.grouped.once hkeeps'.mem
        hkeeps.mem (hkeeps'.id.trans hkeeps.id.symm)
      exact hin.2 hold
  · refine h.commits.attached.held (Sessions.keptGift kept)
      (List.mem_append_right _ (List.mem_map_of_mem hkept)) asset ?_
    exact (hkeeps.added asset).mpr ⟨hasset, hold⟩

theorem outside_held {asset : Uuid} (hasset : asset ∉ closure) :
    s'.sessionOf asset = v.sessions.sessionOf asset := by
  refine h.unmoved (fun entry hentry hmem => hasset ?_) fun kept hkept hmem => hasset ?_
  · exact h.grouped.checked.mem_expected
      (h.planned.mem_done.mpr (.inr (h.created_mem hentry))) hmem
  · obtain ⟨session, hkeeps⟩ := h.planned.kept kept hkept
    exact h.grouped.checked.mem_expected (h.planned.mem_done.mpr (.inl ⟨kept, hkept, rfl⟩))
      ((hkeeps.added asset).mp hmem).1

theorem inside {asset : Uuid} (hasset : asset ∈ closure) :
    (∃ kept ∈ plan.kept, asset ∈ kept.candidate.assetIds) ∨
      ∃ entry ∈ created, asset ∈ entry.2.assetIds := by
  obtain ⟨candidate, hcandidate, hmem⟩ := List.mem_flatMap.mp ((h.grouped.checked.mem asset).mpr hasset)
  rcases h.planned.mem_done.mp hcandidate with ⟨kept, hkept, rfl⟩ | hcreated
  · exact .inl ⟨kept, hkept, hmem⟩
  · rw [← h.commits.candidates] at hcreated
    obtain ⟨entry, hentry, rfl⟩ := List.mem_map.mp hcreated
    exact .inr ⟨entry, hentry, hmem⟩

theorem kept_identity {kept : KeptSession P} (hkept : kept ∈ plan.kept) :
    v.sessions.identity kept.id = some (kept.candidate.key, none) := by
  obtain ⟨session, hkeeps⟩ := h.planned.kept kept hkept
  rw [← hkeeps.id, (h.grouped.prior session hkeeps.mem).1, hkeeps.continues.key]

theorem not_created {id : Uuid} (hid : v.sessions.identity id ≠ none) :
    ∀ entry ∈ created, entry.1 ≠ id := fun entry hentry heq =>
  hid (heq ▸ h.commits.fresh entry hentry)

theorem identity_of_known {id : Uuid} (hid : v.sessions.identity id ≠ none) : s'.identity id =
    if id ∈ plan.superseded
    then (v.sessions.identity id).map fun known => (known.1, some v.sessions.lineages.length)
    else v.sessions.identity id :=
  h.commits.identityRest id (h.not_created hid)

theorem superseded_current {id : Uuid} (hid : id ∈ plan.superseded) : v.sessions.IsCurrent id := by
  obtain ⟨⟨session, hsession, rfl⟩, -⟩ := (h.superseded id).mp hid
  exact ⟨session.key, (h.grouped.prior session hsession).1⟩

theorem isCurrent_iff {id : Uuid} : s'.IsCurrent id ↔ (∃ entry ∈ created, entry.1 = id) ∨
    v.sessions.IsCurrent id ∧ id ∉ plan.superseded := by
  by_cases hcreated : ∃ entry ∈ created, entry.1 = id
  · obtain ⟨entry, hentry, rfl⟩ := hcreated
    exact ⟨fun _ => .inl ⟨entry, hentry, rfl⟩, fun _ => ⟨_, h.commits.identity entry hentry⟩⟩
  · have hrest := h.commits.identityRest id fun entry hentry heq => hcreated ⟨entry, hentry, heq⟩
    unfold Sessions.IsCurrent
    rw [hrest]
    split
    · next hsuperseded =>
      simp [hcreated, hsuperseded]
    · next hsuperseded =>
      simp [hcreated, hsuperseded]

/-! ## What becomes of each session -/

theorem oldSessionOf_eq_none {asset : Uuid} (hasset : asset ∈ closure)
    (hnone : context.oldSessionOf asset = none) : v.sessions.sessionOf asset = none :=
  (h.grouped.old asset hasset).symm.trans hnone

theorem extends_self {id : Uuid} (hold : v.sessions.IsCurrent id) (hid : id ∉ plan.superseded) :
    v.sessions.Extends s' id id := by
  obtain ⟨key, hkey⟩ := hold
  have hknown : v.sessions.identity id ≠ none := by simp [hkey]
  refine ⟨?_, fun asset hasset => ?_, fun asset hasset => ?_⟩
  · rw [h.identity_of_known hknown, if_neg hid]
  · by_cases hclosure : asset ∈ closure
    · -- a touched session that was not superseded is kept
      have hkept : ∃ kept ∈ plan.kept, kept.id = id := by
        by_contra hnone
        push Not at hnone
        exact hid ((h.superseded id).mpr ⟨h.grouped.touched asset hclosure id hasset, hnone⟩)
      obtain ⟨kept, hmem, rfl⟩ := hkept
      obtain ⟨session, hkeeps⟩ := h.planned.kept kept hmem
      refine h.kept_held hmem (hkeeps.continues.members asset ?_)
      exact ((h.grouped.prior session hkeeps.mem).2 asset).mpr (hkeeps.id ▸ hasset)
    · rw [h.outside_held hclosure, hasset]
  · by_cases hclosure : asset ∈ closure
    · rcases h.inside hclosure with ⟨kept, hmem, hin⟩ | ⟨entry, hentry, hin⟩
      · obtain rfl : kept.id = id := Option.some.inj ((h.kept_held hmem hin).symm.trans hasset)
        obtain ⟨session, hkeeps⟩ := h.planned.kept kept hmem
        rcases hkeeps.continues.added asset hin with hmember | hnone
        · exact .inl (hkeeps.id ▸ ((h.grouped.prior session hkeeps.mem).2 asset).mp hmember)
        · exact .inr (h.oldSessionOf_eq_none hclosure hnone)
      · have heq : entry.1 = id := Option.some.inj ((h.created_held hentry hin).symm.trans hasset)
        exact absurd heq (h.not_created hknown entry hentry)
    · exact .inl ((h.outside_held hclosure).symm.trans hasset)

theorem created_assets (hsound : v.Sound pending) {entry : Uuid × SessionCandidate P}
    (hentry : entry ∈ created) {asset : Uuid} : s'.sessionOf asset = some entry.1 ↔ asset ∈ entry.2.assetIds := by
  refine ⟨fun hasset => ?_, h.created_held hentry⟩
  have hfresh := h.commits.fresh entry hentry
  by_cases hclosure : asset ∈ closure
  · rcases h.inside hclosure with ⟨kept, hmem, hin⟩ | ⟨other, hother, hin⟩
    · have heq : kept.id = entry.1 := Option.some.inj ((h.kept_held hmem hin).symm.trans hasset)
      rw [← heq, h.kept_identity hmem] at hfresh
      cases hfresh
    · have heq : other.1 = entry.1 :=
        Option.some.inj ((h.created_held hother hin).symm.trans hasset)
      rwa [List.inj_on_of_nodup_map h.commits.once hother hentry heq] at hin
  · rw [h.outside_held hclosure] at hasset
    obtain ⟨key, hkey⟩ := hsound.current asset entry.1 hasset
    rw [hkey] at hfresh
    cases hfresh

theorem keeps (hsound : v.Sound pending) {id id' : Uuid} (hid : v.sessions.IsCurrent id) (hid' : s'.IsCurrent id') :
    id' = id ↔ v.sessions.Extends s' id id' := by
  rcases h.isCurrent_iff.mp hid' with ⟨entry, hentry, rfl⟩ | ⟨hold', hkept'⟩
  · obtain ⟨key, hkey⟩ := hid
    refine ⟨fun heq => ?_, fun hextends => ?_⟩
    · have hfresh := h.commits.fresh entry hentry
      rw [heq, hkey] at hfresh
      cases hfresh
    · -- a candidate that continues a prior session is not created
      exfalso
      obtain ⟨asset, hasset⟩ := hsound.inhabited id ⟨key, hkey⟩
      have hin := (h.created_assets hsound hentry).mp (hextends.held asset hasset)
      have hresult := h.planned.mem_done.mpr (.inr (h.created_mem hentry))
      have hclosure := h.grouped.checked.mem_expected hresult hin
      obtain ⟨session, hsession, rfl⟩ := h.grouped.touched asset hclosure id hasset
      obtain ⟨hidentity, hmembers⟩ := h.grouped.prior session hsession
      refine h.planned.created _ (h.created_mem hentry) session hsession ⟨?_, ?_, ?_, ?_⟩
      · have := hextends.key
        rw [h.commits.identity entry hentry, hidentity] at this
        exact (Option.some.inj this).symm
      · exact List.ne_nil_of_mem ((hmembers asset).mpr hasset)
      · exact fun other hother =>
          (h.created_assets hsound hentry).mp (hextends.held other ((hmembers other).mp hother))
      · intro other hother
        refine (hextends.added other (h.created_held hentry hother)).imp
          (hmembers other).mpr fun hnone => ?_
        rw [h.grouped.old other (h.grouped.checked.mem_expected hresult hother), hnone]
  · refine ⟨fun heq => heq ▸ h.extends_self hold' hkept', fun hextends => ?_⟩
    obtain ⟨asset, hasset⟩ := hsound.inhabited id hid
    rcases (h.extends_self hold' hkept').added asset (hextends.held asset hasset) with
      hsame | hnone
    · exact Option.some.inj (hsame.symm.trans hasset)
    · rw [hasset] at hnone
      cases hnone

theorem mem_superseded_iff {id : Uuid} :
    id ∈ plan.superseded ↔ v.sessions.IsCurrent id ∧ ¬ s'.IsCurrent id := by
  constructor
  · intro hid
    have hold := h.superseded_current hid
    refine ⟨hold, fun hcurrent => ?_⟩
    rcases h.isCurrent_iff.mp hcurrent with ⟨entry, hentry, rfl⟩ | ⟨-, hnot⟩
    · obtain ⟨key, hkey⟩ := hold
      exact h.not_created (by simp [hkey]) entry hentry rfl
    · exact hnot hid
  · rintro ⟨hold, hnot⟩
    by_contra hid
    exact hnot (h.isCurrent_iff.mpr (.inr ⟨hold, hid⟩))

theorem superseded_grouped {id asset : Uuid} (hid : id ∈ plan.superseded)
    (hasset : v.sessions.sessionOf asset = some id) : asset ∈ closure := by
  obtain ⟨⟨session, hsession, rfl⟩, -⟩ := (h.superseded id).mp hid
  exact (h.grouped.regrouped asset).mpr
    (.inr ⟨session, hsession, ((h.grouped.prior session hsession).2 asset).mpr hasset⟩)

theorem mem_successorIds {id : Uuid} :
    id ∈ successorIds plan.superseded context.oldSessionOf created ↔ s'.IsCurrent id ∧
      ∃ asset, s'.sessionOf asset = some id ∧
        ∃ old ∈ plan.superseded, v.sessions.sessionOf asset = some old := by
  have hold : ∀ entry ∈ created, ∀ asset ∈ entry.2.assetIds,
      context.oldSessionOf asset = v.sessions.sessionOf asset := fun entry hentry asset hasset =>
    h.grouped.old asset (h.grouped.checked.mem_expected
      (h.planned.mem_done.mpr (.inr (h.created_mem hentry))) hasset)
  simp only [successorIds, List.mem_map, List.mem_filter, List.any_eq_true, mem_candidateMembers,
    Option.any_eq_true, List.contains_eq_mem, decide_eq_true_eq]
  constructor
  · rintro ⟨entry, ⟨hentry, asset, hasset, old, hsession, hsuperseded⟩, rfl⟩
    rw [hold entry hentry asset hasset] at hsession
    exact ⟨h.isCurrent_iff.mpr (.inl ⟨entry, hentry, rfl⟩), asset, h.created_held hentry hasset,
      old, hsuperseded, hsession⟩
  · rintro ⟨hcurrent, asset, hasset, old, hsuperseded, hsession⟩
    rcases h.inside (h.superseded_grouped hsuperseded hsession) with
      ⟨kept, hmem, hin⟩ | ⟨entry, hentry, hin⟩
    · -- a kept session's assets come from itself or from no session
      exfalso
      obtain ⟨session, hkeeps⟩ := h.planned.kept kept hmem
      have hgrouped := h.superseded_grouped hsuperseded hsession
      rcases hkeeps.continues.added asset hin with hmember | hnone
      · have := ((h.grouped.prior session hkeeps.mem).2 asset).mp hmember
        obtain rfl : session.id = old := Option.some.inj (this.symm.trans hsession)
        exact ((h.superseded _).mp hsuperseded).2 kept hmem hkeeps.id.symm
      · rw [h.oldSessionOf_eq_none hgrouped hnone] at hsession
        cases hsession
    · obtain rfl : entry.1 = id :=
        Option.some.inj ((h.created_held hentry hin).symm.trans hasset)
      exact ⟨entry, ⟨hentry, asset, hin, old,
        (hold entry hentry asset hin).trans hsession, hsuperseded⟩, rfl⟩

theorem inheritsFrom (hsound : v.Sound pending) {entry : Uuid × SessionCandidate P}
    (hentry : entry ∈ created) (kind : AssociationKind) :
    v.sessions.InheritsFrom s' entry.1 kind := by
  refine ⟨candidateMembers entry.2, fun asset => ?_, ?_⟩
  · rw [mem_candidateMembers]
    exact (h.created_assets hsound hentry).symm
  · have hprior : ∀ asset ∈ candidateMembers entry.2,
        (context.oldSessionOf asset).bind (associationsOf v.sessions plan.superseded · kind) =
          (v.sessions.sessionOf asset).bind (v.sessions.associations · kind) := by
      intro asset hasset
      rw [mem_candidateMembers] at hasset
      have hclosure := h.grouped.checked.mem_expected
        (h.planned.mem_done.mpr (.inr (h.created_mem hentry))) hasset
      rw [h.grouped.old asset hclosure]
      cases hsession : v.sessions.sessionOf asset with
      | none => rfl
      | some old =>
        -- the session an asset of a created one came from is superseded
        have hsuperseded : old ∈ plan.superseded := by
          refine h.mem_superseded_iff.mpr ⟨hsound.current asset old hsession, fun hcurrent => ?_⟩
          have hextends := h.extends_self (hsound.current asset old hsession) fun hmem =>
            (h.mem_superseded_iff.mp hmem).2 hcurrent
          have heq : entry.1 = old := Option.some.inj
            ((h.created_held hentry hasset).symm.trans (hextends.held asset hsession))
          obtain ⟨key, hkey⟩ := hsound.current asset old hsession
          exact h.not_created (by simp [hkey]) entry hentry heq
        rw [Option.bind_some, Option.bind_some, associationsOf, if_pos hsuperseded]
    have hnone : v.sessions.associations entry.1 kind = none := by
      rw [Option.eq_none_iff_forall_not_mem]
      exact fun association hmem =>
        hsound.associated entry.1 kind association hmem (h.commits.fresh entry hentry)
    rw [h.commits.associations entry hentry kind, hnone, Option.or_none]
    exact inherited_inherits.congr hprior

theorem regroups (hsound : v.Sound pending) : v.sessions.Regroups result s' where
  keyed := by
    intro candidate hcandidate asset hasset
    rcases h.planned.mem_done.mp hcandidate with ⟨kept, hkept, rfl⟩ | hcreated
    · refine ⟨kept.id, h.kept_held hkept hasset, ?_⟩
      have hnot : kept.id ∉ plan.superseded := fun hmem =>
        ((h.superseded _).mp hmem).2 kept hkept rfl
      rw [h.identity_of_known (by simp [h.kept_identity hkept]), if_neg hnot, h.kept_identity hkept]
    · rw [← h.commits.candidates] at hcreated
      obtain ⟨entry, hentry, rfl⟩ := List.mem_map.mp hcreated
      exact ⟨entry.1, h.created_held hentry hasset, h.commits.identity entry hentry⟩
  others := by
    intro asset hasset
    refine h.outside_held fun hclosure => ?_
    obtain ⟨candidate, hcandidate, hmem⟩ :=
      List.mem_flatMap.mp ((h.grouped.checked.mem asset).mpr hclosure)
    exact hasset candidate hcandidate hmem
  superseded := by
    intro id key lineage hid
    have hnot : id ∉ plan.superseded := fun hmem => by
      obtain ⟨key', hkey'⟩ := h.superseded_current hmem
      rw [hid] at hkey'
      cases hkey'
    rw [h.identity_of_known (by simp [hid]), if_neg hnot, hid]
  current := by
    intro id key hid
    rw [h.identity_of_known (by simp [hid])]
    split
    · exact .inr (by rw [hid, Option.map_some])
    · exact .inl hid
  keeps := fun id id' hid hid' => h.keeps hsound hid hid'
  lineage := by
    rcases h.commits.lineages with ⟨hnone, hsame⟩ | ⟨hsome, lineage, hadd, hpred, hsucc⟩
    · refine .inl ⟨fun id hid => ?_, hsame⟩
      exact h.isCurrent_iff.mpr (.inr ⟨hid, by simp [hnone]⟩)
    · refine .inr ⟨_, hadd, hpred ▸ hsome, fun id => ?_, fun id => ?_⟩
      · rw [hpred]
        exact h.mem_superseded_iff
      · rw [hpred, hsucc]
        exact h.mem_successorIds
  inherits := by
    intro id hfresh hcurrent kind
    rcases h.isCurrent_iff.mp hcurrent with ⟨entry, hentry, rfl⟩ | ⟨⟨key, hkey⟩, -⟩
    · exact h.inheritsFrom hsound hentry kind
    · rw [hfresh] at hkey
      cases hkey
  associations := fun id hid => h.commits.associationsRest id (h.not_created hid)

theorem sound (hsound : v.Sound pending) (hpending : ∀ asset, pending asset → asset ∈ changed) :
    ({ v with sessions := s' } : Vault P R).Sound fun _ => False where
  current := by
    intro asset id hasset
    by_cases hclosure : asset ∈ closure
    · obtain ⟨candidate, hcandidate, hmem⟩ :=
        List.mem_flatMap.mp ((h.grouped.checked.mem asset).mpr hclosure)
      obtain ⟨id', hid', hidentity⟩ := (h.regroups hsound).keyed candidate hcandidate asset hmem
      obtain rfl : id' = id := Option.some.inj (hid'.symm.trans hasset)
      exact ⟨candidate.key, hidentity⟩
    · rw [h.outside_held hclosure] at hasset
      refine h.isCurrent_iff.mpr (.inr ⟨hsound.current asset id hasset, fun hmem => ?_⟩)
      exact hclosure (h.superseded_grouped hmem hasset)
  recorded := by
    intro asset id hasset
    by_cases hclosure : asset ∈ closure
    · obtain ⟨a, ha, rfl⟩ := h.grouped.loaded asset hclosure
      obtain ⟨row, hrow, rfl⟩ := h.grouped.assets a ha
      obtain ⟨availability, heq, -⟩ := v.catalog.fromRow_eq row
      exact ⟨row, hrow, by rw [heq]⟩
    · rw [h.outside_held hclosure] at hasset
      exact hsound.recorded asset id hasset
  grouped := by
    intro a ha hnone
    by_cases hclosure : a.id ∈ closure
    · rcases h.inside hclosure with ⟨kept, hkept, hmem⟩ | ⟨entry, hentry, hmem⟩
      · rw [h.kept_held hkept hmem] at hnone
        cases hnone
      · rw [h.created_held hentry hmem] at hnone
        cases hnone
    · rw [h.outside_held hclosure] at hnone
      exact hclosure ((h.grouped.regrouped a.id).mpr (.inl (hpending _ (hsound.grouped a ha hnone))))
  member := by
    intro id hcurrent asset
    rw [h.commits.attached.members]
    rcases h.isCurrent_iff.mp hcurrent with ⟨entry, hentry, rfl⟩ | ⟨hold, hnot⟩
    · constructor
      · rintro (hmem | ⟨given, hgiven, heq, hasset⟩)
        · exact absurd (h.commits.fresh entry hentry) (hsound.owned _ asset hmem)
        · rw [← heq]
          exact h.commits.attached.held given hgiven asset hasset
      · intro hasset
        refine .inr ⟨Sessions.gift entry,
          List.mem_append_left _ (List.mem_map_of_mem hentry), rfl, ?_⟩
        exact mem_candidateMembers.mpr ((h.created_assets hsound hentry).mp hasset)
    · have hextends := h.extends_self hold hnot
      constructor
      · rintro (hmem | ⟨given, hgiven, heq, hasset⟩)
        · exact hextends.held asset ((hsound.member id hold asset).mp hmem)
        · rw [← heq]
          exact h.commits.attached.held given hgiven asset hasset
      · intro hasset
        by_cases hmem : v.sessions.sessionOf asset = some id
        · exact .inl ((hsound.member id hold asset).mpr hmem)
        · -- an asset a session gained is a gift
          by_contra hnone
          push Not at hnone
          have hrest := h.commits.attached.rest asset fun given hgiven hin => by
            have heq : given.1 = id := Option.some.inj
              ((h.commits.attached.held given hgiven asset hin).symm.trans hasset)
            exact hnone.2 given hgiven heq hin
          exact hmem (hrest.symm.trans hasset)
  inhabited := by
    intro id hcurrent
    rcases h.isCurrent_iff.mp hcurrent with ⟨entry, hentry, rfl⟩ | ⟨hold, hnot⟩
    · have hresult := h.planned.mem_done.mpr (.inr (h.created_mem hentry))
      obtain ⟨asset, hasset⟩ :=
        List.exists_mem_of_ne_nil _ (h.grouped.checked.sound entry.2 hresult).inhabited
      exact ⟨asset, h.created_held hentry hasset⟩
    · obtain ⟨asset, hasset⟩ := hsound.inhabited id hold
      exact ⟨asset, (h.extends_self hold hnot).held asset hasset⟩
  owned := by
    intro id asset hmem hnone
    rcases (h.commits.attached.members id asset).mp hmem with hold | ⟨given, hgiven, rfl, -⟩
    · have hknown := hsound.owned id asset hold
      rw [h.identity_of_known hknown] at hnone
      split at hnone
      · exact hknown (Option.map_eq_none_iff.mp hnone)
      · exact hknown hnone
    · rcases List.mem_append.mp hgiven with hgiven | hgiven
      · obtain ⟨entry, hentry, rfl⟩ := List.mem_map.mp hgiven
        rw [Sessions.gift, h.commits.identity entry hentry] at hnone
        cases hnone
      · obtain ⟨kept, hkept, rfl⟩ := List.mem_map.mp hgiven
        have hknown : v.sessions.identity kept.id ≠ none := by simp [h.kept_identity hkept]
        rw [Sessions.keptGift, h.identity_of_known hknown] at hnone
        split at hnone
        · exact hknown (Option.map_eq_none_iff.mp hnone)
        · exact hknown hnone
  kind := by
    intro session kind association hassociation
    by_cases hcreated : ∃ entry ∈ created, entry.1 = session
    · obtain ⟨entry, hentry, rfl⟩ := hcreated
      rw [Option.mem_def, h.commits.associations entry hentry kind, Option.or_eq_some_iff] at hassociation
      rcases hassociation with hnew | ⟨-, hold⟩
      · refine (inherited_names (fun old kind association hmem => ?_) association hnew).2
        rw [Option.mem_def, associationsOf] at hmem
        split at hmem
        · exact hsound.kind old kind association hmem
        · cases hmem
      · exact hsound.kind _ _ _ hold
    · rw [h.commits.associationsRest session fun entry hentry heq => hcreated ⟨entry, hentry, heq⟩]
        at hassociation
      exact hsound.kind session kind association hassociation
  associated := by
    intro session kind association hassociation hnone
    by_cases hcreated : ∃ entry ∈ created, entry.1 = session
    · obtain ⟨entry, hentry, rfl⟩ := hcreated
      rw [h.commits.identity entry hentry] at hnone
      cases hnone
    · rw [h.commits.associationsRest session fun entry hentry heq => hcreated ⟨entry, hentry, heq⟩]
        at hassociation
      have hknown := hsound.associated session kind association hassociation
      rw [h.identity_of_known hknown] at hnone
      split at hnone
      · exact hknown (Option.map_eq_none_iff.mp hnone)
      · exact hknown hnone
  superseded := by
    intro id key lineage hid
    have hnot : ∀ entry ∈ created, entry.1 ≠ id := by
      rintro entry hentry rfl
      rw [h.commits.identity entry hentry] at hid
      cases hid
    rw [h.commits.identityRest id hnot] at hid
    split at hid
    · next hmem =>
      obtain ⟨⟨key', known⟩, -, heq⟩ := Option.map_eq_some_iff.mp hid
      cases heq
      rcases h.commits.lineages with ⟨hnone, -⟩ | ⟨-, row, hadd, hpred, -⟩
      · rw [hnone] at hmem
        cases hmem
      · exact ⟨⟨cause, row⟩, by simp [hadd], hpred ▸ hmem⟩
    · obtain ⟨row, hrow, hmem⟩ := hsound.superseded id key lineage hid
      refine ⟨row, ?_, hmem⟩
      rcases h.commits.lineages with ⟨-, hsame⟩ | ⟨-, _, hadd, -⟩
      · rw [hsame, hrow]
      · rw [hadd, List.getElem?_append_left (List.getElem?_eq_some_iff.mp hrow).1, hrow]

end Committed

end Commit

/-! ## One regroup -/

theorem regroup_eq_ok {v v' : Vault P R} {pending : Uuid → Prop} {changed : List Uuid}
    {given : Regrouping P R} {cause : Cause} {lineage : Option SessionLineage}
    (hsound : v.Sound pending) (hpending : ∀ asset, pending asset → asset ∈ changed)
    (hne : changed ≠ []) (h : v.regroup changed given cause = .ok (v', lineage)) :
    ∃ closure context result, v.grouped changed given.grouping = .ok (context, result) ∧
      v.Grouped changed closure context result ∧ v'.catalog = v.catalog ∧
      v.sessions.Regroups result v'.sessions ∧ v'.Sound fun _ => False := by
  unfold regroup at h
  rw [if_neg (by simpa using hne)] at h
  simp only [Result.bind_eq_ok, Result.pure_eq_ok, Prod.mk.injEq] at h
  obtain ⟨⟨context, result⟩, hgrouping, ⟨s', recorded⟩, hcommit, rfl, rfl⟩ := h
  obtain ⟨closure, hgrouped, -⟩ := grouped_eq_ok hsound hgrouping
  have hplanned : Planned context.prior context.oldSessionOf result
      (planGrouping context.prior context.oldSessionOf result) :=
    planGrouping_planned hgrouped.once hgrouped.checked
  obtain ⟨created, hcommits⟩ := Sessions.commitPlan_commits hsound.kind (fun id hid => by
      obtain ⟨⟨session, hsession, rfl⟩, -⟩ := mem_superseded.mp hid
      simp [(hgrouped.prior session hsession).1])
    (hgrouped.commit_disjoint hplanned) hcommit
  have hcommitted : Committed v changed closure context result
      (planGrouping context.prior context.oldSessionOf result) cause created s' :=
    ⟨hgrouped, hplanned, fun id => mem_superseded, hcommits⟩
  exact ⟨closure, context, result, hgrouping, hgrouped, rfl, hcommitted.regroups hsound,
    hcommitted.sound hsound hpending⟩

end Vault

end PlateVault.Library
