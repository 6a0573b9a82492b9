import PlateVault.Sessions.Inherited

/-!
# What committing a plan does

Of a session's row only its key and what superseded it say which session it is. Beside these a
commit changes whose assets are whose, the new sessions' associations, and the lineages.
-/

namespace PlateVault.Library

variable {P : Platform} {R : Reader}

namespace Sessions

/-- A session's key and what superseded it; `none` of an id no session has. -/
def identity (s : Sessions P) (id : Uuid) : Option (Text × Option Nat) :=
  (s.rows.find? id).map fun row => (row.key, row.supersededBy)

/-! ## The writes one by one -/

theorem updateRow_identity {s : Sessions P} {id : Uuid} {f : SessionRow P → SessionRow P} {hid}
    (hkey : ∀ row, (f row).key = row.key)
    (hsuperseded : ∀ row, (f row).supersededBy = row.supersededBy) (id' : Uuid) :
    (s.updateRow id f hid).identity id' = s.identity id' := by
  unfold identity updateRow
  rw [Table.find?_modify]
  split
  · next heq =>
    subst heq
    rw [Option.map_map]
    exact Option.map_congr fun row _ => by simp [hkey, hsuperseded]
  · rfl

theorem insertSession_eq_ok {s s' : Sessions P} {id : Uuid} {candidate : SessionCandidate P}
    {groupingRevision : Nat} (h : s.insertSession id candidate groupingRevision = .ok s') :
    s.identity id = none ∧
      (∀ id', s'.identity id' = if id' = id then some (candidate.key, none) else s.identity id') ∧
      s'.members = s.members ∧ s'.sessionOf = s.sessionOf ∧ s'.lineages = s.lineages ∧
      s'.associations = s.associations := by
  simp only [insertSession, Result.bind_eq_ok, Result.orElse_eq_ok, Result.pure_eq_ok] at h
  obtain ⟨rows, hinsert, rfl⟩ := h
  refine ⟨by simp [identity, (Table.insert?_eq_some hinsert).1], fun id' => ?_, rfl, rfl, rfl, rfl⟩
  unfold identity
  rw [Table.find?_insert? hinsert]
  split <;> rfl

structure Framed (s s' : Sessions P) : Prop where
  identity : ∀ id, s'.identity id = s.identity id
  members : s'.members = s.members
  sessionOf : s'.sessionOf = s.sessionOf
  lineages : s'.lineages = s.lineages
  associations : s'.associations = s.associations

theorem Framed.refl (s : Sessions P) : Framed s s := ⟨fun _ => rfl, rfl, rfl, rfl, rfl⟩

theorem Framed.trans {s s' s'' : Sessions P} (h : Framed s s') (h' : Framed s' s'') :
    Framed s s'' where
  identity := fun id => (h'.identity id).trans (h.identity id)
  members := h'.members.trans h.members
  sessionOf := h'.sessionOf.trans h.sessionOf
  lineages := h'.lineages.trans h.lineages
  associations := h'.associations.trans h.associations

theorem updateRow_framed {s : Sessions P} {id : Uuid} {f : SessionRow P → SessionRow P} {hid}
    (hkey : ∀ row, (f row).key = row.key)
    (hsuperseded : ∀ row, (f row).supersededBy = row.supersededBy) :
    Framed s (s.updateRow id f hid) :=
  ⟨updateRow_identity hkey hsuperseded, rfl, rfl, rfl, rfl⟩

theorem refreshKept_framed (s : Sessions P) (kept : List (KeptSession P)) :
    Framed s (s.refreshKept kept) := by
  unfold refreshKept
  induction kept generalizing s with
  | nil => exact .refl s
  | cons kept rest ih =>
    refine .trans (updateRow_framed ?_ ?_) (ih _)
    · exact fun _ => rfl
    · exact fun _ => rfl

/-! ## Attaching members -/

/-- Lists of assets given to sessions, no asset to two. -/
structure Attached (given : List (Uuid × List Uuid)) (s s' : Sessions P) : Prop where
  members : ∀ session asset, (session, asset) ∈ s'.members ↔ (session, asset) ∈ s.members ∨
    ∃ gift ∈ given, gift.1 = session ∧ asset ∈ gift.2
  held : ∀ gift ∈ given, ∀ asset ∈ gift.2, s'.sessionOf asset = some gift.1
  rest : ∀ asset, (∀ gift ∈ given, asset ∉ gift.2) → s'.sessionOf asset = s.sessionOf asset

theorem Attached.refl (s : Sessions P) : Attached [] s s :=
  ⟨by simp, by simp, fun _ _ => rfl⟩

theorem Attached.congr {given : List (Uuid × List Uuid)} {s s' t t' : Sessions P}
    (h : Attached given s s') (hmembers : t.members = s.members) (hsession : t.sessionOf = s.sessionOf)
    (hmembers' : t'.members = s'.members) (hsession' : t'.sessionOf = s'.sessionOf) :
    Attached given t t' := by
  refine ⟨fun session asset => ?_, fun gift hgift asset hasset => ?_, fun asset hasset => ?_⟩
  · rw [hmembers, hmembers']
    exact h.members session asset
  · rw [hsession']
    exact h.held gift hgift asset hasset
  · rw [hsession, hsession']
    exact h.rest asset hasset

theorem Attached.append {given given' : List (Uuid × List Uuid)} {s s' s'' : Sessions P}
    (hdisjoint : ∀ gift ∈ given, ∀ asset ∈ gift.2, ∀ gift' ∈ given', asset ∉ gift'.2)
    (h : Attached given s s') (h' : Attached given' s' s'') : Attached (given ++ given') s s'' := by
  refine ⟨fun session asset => ?_, fun gift hgift asset hasset => ?_, fun asset hasset => ?_⟩
  · rw [h'.members, h.members, or_assoc]
    refine or_congr_right ?_
    simp only [List.mem_append, or_and_right, exists_or]
  · rcases List.mem_append.mp hgift with hgift | hgift
    · rw [h'.rest asset (hdisjoint gift hgift asset hasset)]
      exact h.held gift hgift asset hasset
    · exact h'.held gift hgift asset hasset
  · rw [h'.rest asset fun gift hgift => hasset gift (List.mem_append_right _ hgift)]
    exact h.rest asset fun gift hgift => hasset gift (List.mem_append_left _ hgift)

theorem attachMembers_attached (s : Sessions P) (session : Uuid) (assets : List Uuid) :
    Attached [(session, assets)] s (s.attachMembers session assets) ∧
      (s.attachMembers session assets).rows = s.rows ∧
      (s.attachMembers session assets).lineages = s.lineages ∧
      (s.attachMembers session assets).associations = s.associations := by
  induction assets generalizing s with
  | nil => exact ⟨⟨by simp [attachMembers], by simp, fun _ _ => rfl⟩, rfl, rfl, rfl⟩
  | cons asset assets ih =>
    obtain ⟨⟨hmembers, hheld, hrest⟩, hframe⟩ := ih (s.attachMember session asset)
    refine ⟨⟨fun session' asset' => ?_, ?_, fun asset' hasset' => ?_⟩, hframe⟩
    · refine (hmembers session' asset').trans ?_
      have hone : (session', asset') ∈ (s.attachMember session asset).members ↔
          (session', asset') ∈ s.members ∨ session = session' ∧ asset' = asset := by
        unfold attachMember
        simp only [List.contains_eq_mem, decide_eq_true_eq]
        split
        · next hmem =>
          constructor
          · exact .inl
          · rintro (hold | ⟨rfl, rfl⟩)
            · exact hold
            · exact hmem
        · simp [eq_comm]
      rw [hone]
      constructor
      · rintro ((hold | ⟨rfl, rfl⟩) | ⟨gift, hgift, rfl, hasset⟩)
        · exact .inl hold
        · exact .inr ⟨_, List.mem_singleton_self _, rfl, List.mem_cons_self⟩
        · rw [List.mem_singleton] at hgift
          subst hgift
          exact .inr ⟨_, List.mem_singleton_self _, rfl, List.mem_cons_of_mem _ hasset⟩
      · rintro (hold | ⟨gift, hgift, rfl, hasset⟩)
        · exact .inl (.inl hold)
        · rw [List.mem_singleton] at hgift
          subst hgift
          rcases List.mem_cons.mp hasset with rfl | hasset
          · exact .inl (.inr ⟨rfl, rfl⟩)
          · exact .inr ⟨_, List.mem_singleton_self _, rfl, hasset⟩
    · intro gift hgift asset' hasset'
      rw [List.mem_singleton] at hgift
      subst hgift
      by_cases hin : asset' ∈ assets
      · exact hheld _ (List.mem_singleton_self _) asset' hin
      · obtain rfl : asset' = asset := (List.mem_cons.mp hasset').resolve_right hin
        refine (hrest asset' (by simpa using hin)).trans ?_
        simp [attachMember]
    · have hne : asset' ≠ asset ∧ asset' ∉ assets := by simpa using hasset'
      refine (hrest asset' (by simpa using hne.2)).trans ?_
      simp [attachMember, hne.1]

/-! ## Creating sessions -/

theorem upsertAssociations_frame (s : Sessions P) (associations : List (Association P)) :
    (s.upsertAssociations associations).rows = s.rows ∧
      (s.upsertAssociations associations).members = s.members ∧
      (s.upsertAssociations associations).sessionOf = s.sessionOf ∧
      (s.upsertAssociations associations).lineages = s.lineages := by
  induction associations generalizing s with
  | nil => exact ⟨rfl, rfl, rfl, rfl⟩
  | cons association associations ih => exact ih (s.upsertAssociation association)

theorem upsertAssociations_associations {s : Sessions P} {id : Uuid}
    {f : AssociationKind → Option (Association P)}
    (hnames : ∀ kind, ∀ association ∈ f kind, association.sessionId = id ∧ association.kind = kind)
    (session : Uuid) (kind : AssociationKind) :
    (s.upsertAssociations ([AssociationKind.target, .equipment].filterMap f)).associations session
      kind = if session = id then (f kind).or (s.associations session kind)
        else s.associations session kind := by
  cases htarget : f .target with
  | none =>
    cases hequipment : f .equipment with
    | none => cases kind <;> simp [upsertAssociations, htarget, hequipment]
    | some equipment =>
      obtain ⟨hid, hkind⟩ := hnames _ _ hequipment
      cases kind <;>
        simp [upsertAssociations, upsertAssociation, htarget, hequipment, hid, hkind]
  | some target =>
    obtain ⟨hid, hkind⟩ := hnames _ _ htarget
    cases hequipment : f .equipment with
    | none =>
      cases kind <;>
        simp [upsertAssociations, upsertAssociation, htarget, hequipment, hid, hkind]
    | some equipment =>
      obtain ⟨hid', hkind'⟩ := hnames _ _ hequipment
      cases kind <;>
        simp [upsertAssociations, upsertAssociation, htarget, hequipment, hid, hkind, hid', hkind']

section Create

variable {context : GroupContext P R} {index : AssociationIndex P} {effects : Effects}
  {groupingRevision : Nat}

/-- What a new session inherits from its members' sessions before. -/
def inherits (context : GroupContext P R) (index : AssociationIndex P) (id : Uuid)
    (candidate : SessionCandidate P) (kind : AssociationKind) : Option (Association P) :=
  inherited id (candidateMembers candidate) index context.oldSessionOf
    (context.basis (candidateMembers candidate)) kind

def gift (entry : Uuid × SessionCandidate P) : Uuid × List Uuid :=
  (entry.1, candidateMembers entry.2)

/-- Sessions created under new ids, each with its members and what it inherits. -/
structure Created (context : GroupContext P R) (index : AssociationIndex P)
    (created : List (Uuid × SessionCandidate P)) (s s' : Sessions P) : Prop where
  attached : Attached (created.map gift) s s'
  once : (created.map Prod.fst).Nodup
  fresh : ∀ entry ∈ created, s.identity entry.1 = none
  identity : ∀ entry ∈ created, s'.identity entry.1 = some (entry.2.key, none)
  identityRest : ∀ id, (∀ entry ∈ created, entry.1 ≠ id) → s'.identity id = s.identity id
  associations : ∀ entry ∈ created, ∀ kind, s'.associations entry.1 kind =
    (inherits context index entry.1 entry.2 kind).or (s.associations entry.1 kind)
  associationsRest : ∀ id, (∀ entry ∈ created, entry.1 ≠ id) →
    s'.associations id = s.associations id
  lineages : s'.lineages = s.lineages

variable (hindex : ∀ session kind, ∀ association ∈ index session kind, association.kind = kind)
include hindex

theorem createSession_created {s s' : Sessions P} {id : Uuid} {candidate : SessionCandidate P}
    (h : s.createSession context index effects groupingRevision id candidate = .ok s') :
    Created context index [(id, candidate)] s s' := by
  simp only [createSession, Result.bind_eq_ok, Result.pure_eq_ok] at h
  obtain ⟨s₁, hinsert, _, _, rfl⟩ := h
  obtain ⟨hfresh, hidentity, hmembers, hsession, hlineages, hassociations⟩ :=
    insertSession_eq_ok hinsert
  obtain ⟨hattached, hrows₂, hlineages₂, hassociations₂⟩ :=
    attachMembers_attached s₁ id (candidateMembers candidate)
  have hnames : ∀ kind, ∀ association ∈ inherits context index id candidate kind,
      association.sessionId = id ∧ association.kind = kind := fun kind => inherited_names hindex
  generalize s₁.attachMembers id (candidateMembers candidate) = s₂ at *
  have hnew := upsertAssociations_associations (s := s₂) hnames
  obtain ⟨hrows₃, hmembers₃, hsession₃, hlineages₃⟩ := upsertAssociations_frame s₂
    ([AssociationKind.target, .equipment].filterMap (inherits context index id candidate))
  change Created context index [(id, candidate)] s (s₂.upsertAssociations
    ([AssociationKind.target, .equipment].filterMap (inherits context index id candidate)))
  generalize s₂.upsertAssociations
    ([AssociationKind.target, .equipment].filterMap (inherits context index id candidate)) = s₃ at *
  have hsame : ∀ id', s₃.identity id' = s₁.identity id' := fun id' => by
    rw [identity, identity, hrows₃, hrows₂]
  refine ⟨?_, by simp, by simpa using hfresh, ?_, fun id' hid' => ?_, ?_, fun id' hid' => ?_, ?_⟩
  · exact hattached.congr hmembers.symm hsession.symm hmembers₃ hsession₃
  · intro entry hentry
    rw [List.mem_singleton] at hentry
    subst hentry
    rw [hsame, hidentity, if_pos rfl]
  · rw [hsame, hidentity, if_neg (hid' _ (List.mem_singleton_self _)).symm]
  · intro entry hentry kind
    rw [List.mem_singleton] at hentry
    subst hentry
    rw [hnew, if_pos rfl, hassociations₂, hassociations]
  · funext kind
    rw [hnew, if_neg (hid' _ (List.mem_singleton_self _)).symm, hassociations₂, hassociations]
  · rw [hlineages₃, hlineages₂, hlineages]

theorem createSessions_created {created : List (Uuid × SessionCandidate P)} {s s' : Sessions P}
    (hdisjoint : (created.map gift).Pairwise fun g g' => ∀ asset ∈ g.2, asset ∉ g'.2)
    (h : s.createSessions context index effects groupingRevision created = .ok s') :
    Created context index created s s' := by
  induction created generalizing s with
  | nil =>
    cases h
    exact ⟨.refl _, .nil, by simp, by simp, fun _ _ => rfl, by simp, fun _ _ => rfl, rfl⟩
  | cons entry created ih =>
    obtain ⟨id, candidate⟩ := entry
    simp only [createSessions, Result.bind_eq_ok] at h
    obtain ⟨s₁, hcreate, hrest⟩ := h
    rw [List.map_cons, List.pairwise_cons] at hdisjoint
    have hone := createSession_created hindex hcreate
    have hall := ih hdisjoint.2 hrest
    have hid : s₁.identity id = some (candidate.key, none) :=
      hone.identity _ (List.mem_singleton_self _)
    have hnew : ∀ other ∈ created, other.1 ≠ id := fun other hother heq => by
      have := hall.fresh other hother
      rw [heq, hid] at this
      cases this
    have hold : ∀ {id'}, id' ≠ id → ∀ other ∈ [(id, candidate)], other.1 ≠ id' := by
      intro id' hne other hother
      rw [List.mem_singleton] at hother
      exact hother ▸ hne.symm
    refine ⟨?_, ?_, ?_, ?_, fun id' hid' => ?_, ?_, fun id' hid' => ?_, ?_⟩
    · refine hone.attached.append (fun g hg asset hasset g' hg' => ?_) hall.attached
      rw [List.map_singleton, List.mem_singleton] at hg
      exact hdisjoint.1 g' hg' asset (hg ▸ hasset)
    · rw [List.map_cons, List.nodup_cons]
      refine ⟨fun hmem => ?_, hall.once⟩
      obtain ⟨other, hother, heq⟩ := List.mem_map.mp hmem
      exact hnew other hother heq
    · rintro other (_ | ⟨_, hother⟩)
      · exact hone.fresh _ (List.mem_singleton_self _)
      · rw [← hone.identityRest _ (hold (hnew other hother))]
        exact hall.fresh other hother
    · rintro other (_ | ⟨_, hother⟩)
      · rw [hall.identityRest id hnew]
        exact hid
      · exact hall.identity other hother
    · rw [hall.identityRest id' fun other hother => hid' other (List.mem_cons_of_mem _ hother)]
      exact hone.identityRest id' (hold (hid' _ List.mem_cons_self).symm)
    · rintro other (_ | ⟨_, hother⟩) kind
      · rw [hall.associationsRest id hnew]
        exact hone.associations _ (List.mem_singleton_self _) kind
      · rw [← hone.associationsRest _ (hold (hnew other hother))]
        exact hall.associations other hother kind
    · rw [hall.associationsRest id' fun other hother => hid' other (List.mem_cons_of_mem _ hother)]
      exact hone.associationsRest id' (hold (hid' _ List.mem_cons_self).symm)
    · rw [hall.lineages, hone.lineages]

end Create

/-! ## Growing and superseding sessions -/

def keptGift (kept : KeptSession P) : Uuid × List Uuid := (kept.id, kept.added)

theorem growKept_attached {kept : List (KeptSession P)} {groupingRevision : Nat} {s : Sessions P}
    (hdisjoint : (kept.map keptGift).Pairwise fun g g' => ∀ asset ∈ g.2, asset ∉ g'.2) :
    Attached (kept.map keptGift) s (s.growKept kept groupingRevision) ∧
      (∀ id, (s.growKept kept groupingRevision).identity id = s.identity id) ∧
      (s.growKept kept groupingRevision).lineages = s.lineages ∧
      (s.growKept kept groupingRevision).associations = s.associations := by
  induction kept generalizing s with
  | nil => exact ⟨.refl s, fun _ => rfl, rfl, rfl⟩
  | cons kept rest ih =>
    rw [List.map_cons, List.pairwise_cons] at hdisjoint
    -- the first kept session, with nothing to gain or with its gains attached
    have hone : ∃ s₁, (kept :: rest).foldl (fun s kept =>
          if kept.added.isEmpty then s
          else (s.attachMembers kept.id kept.added).updateRow kept.id fun row =>
            { row with groupingRevision }) s = s₁.growKept rest groupingRevision ∧
        Attached [keptGift kept] s s₁ ∧ (∀ id, s₁.identity id = s.identity id) ∧
        s₁.lineages = s.lineages ∧ s₁.associations = s.associations := by
      rw [List.foldl_cons]
      split
      · next hempty =>
        rw [List.isEmpty_iff] at hempty
        exact ⟨s, rfl, ⟨by simp [keptGift, hempty], by simp [keptGift, hempty], fun _ _ => rfl⟩,
          fun _ => rfl, rfl, rfl⟩
      · obtain ⟨hattached, hrows, hlineages, hassociations⟩ :=
          attachMembers_attached s kept.id kept.added
        refine ⟨_, rfl, hattached.congr rfl rfl rfl rfl, fun id => ?_, hlineages, hassociations⟩
        rw [updateRow_identity, identity, identity, hrows]
        · exact fun _ => rfl
        · exact fun _ => rfl
    obtain ⟨s₁, heq, hattached, hidentity, hlineages, hassociations⟩ := hone
    obtain ⟨hattached', hidentity', hlineages', hassociations'⟩ := ih (s := s₁) hdisjoint.2
    unfold growKept
    rw [heq]
    refine ⟨?_, fun id => ?_, ?_, ?_⟩
    · refine hattached.append (fun g hg asset hasset g' hg' => ?_) hattached'
      rw [List.mem_singleton] at hg
      exact hdisjoint.1 g' hg' asset (hg ▸ hasset)
    · exact (hidentity' id).trans (hidentity id)
    · exact hlineages'.trans hlineages
    · exact hassociations'.trans hassociations

theorem supersede_identity {s : Sessions P} {predecessors : List Uuid} {lineage : Nat} (id : Uuid) :
    (s.supersede predecessors lineage).identity id = if id ∈ predecessors
      then (s.identity id).map fun known => (known.1, some lineage) else s.identity id := by
  unfold supersede
  induction predecessors generalizing s with
  | nil => simp
  | cons predecessor predecessors ih =>
    rw [List.foldl_cons, ih]
    have hone : (s.updateRow predecessor fun row =>
        { row with supersededBy := some lineage }).identity id = if id = predecessor
          then (s.identity id).map fun known => (known.1, some lineage) else s.identity id := by
      unfold identity updateRow
      rw [Table.find?_modify]
      split
      · next heq =>
        subst heq
        simp [Option.map_map, Function.comp_def]
      · rfl
    rw [hone]
    by_cases heq : id = predecessor
    · subst heq
      simp [Option.map_map, Function.comp_def]
    · simp [heq]

theorem supersede_frame (s : Sessions P) (predecessors : List Uuid) (lineage : Nat) :
    (s.supersede predecessors lineage).members = s.members ∧
      (s.supersede predecessors lineage).sessionOf = s.sessionOf ∧
      (s.supersede predecessors lineage).lineages = s.lineages ∧
      (s.supersede predecessors lineage).associations = s.associations := by
  induction predecessors generalizing s with
  | nil => exact ⟨rfl, rfl, rfl, rfl⟩
  | cons predecessor predecessors ih => exact ih _

theorem recordLineage_eq_ok {s s' : Sessions P} {lineage : SessionLineage} {cause : Cause}
    {effects : Effects} {recorded : Option SessionLineage}
    (h : s.recordLineage lineage cause effects = .ok (s', recorded)) :
    (∀ id, s'.identity id = if id ∈ lineage.predecessors
      then (s.identity id).map fun known => (known.1, some s.lineages.length) else s.identity id) ∧
      (s'.members = s.members ∧ s'.sessionOf = s.sessionOf ∧ s'.associations = s.associations) ∧
      (lineage.predecessors = [] ∧ s'.lineages = s.lineages ∨
        lineage.predecessors ≠ [] ∧ s'.lineages = s.lineages ++ [⟨cause, lineage⟩]) := by
  unfold recordLineage at h
  split at h
  · next hnone =>
    rw [List.isEmpty_iff] at hnone
    cases h
    exact ⟨fun id => by simp [hnone], ⟨rfl, rfl, rfl⟩, .inl ⟨hnone, rfl⟩⟩
  · next hsome =>
    rw [List.isEmpty_iff] at hsome
    simp only [Result.bind_eq_ok, Result.pure_eq_ok, Prod.mk.injEq] at h
    obtain ⟨_, _, rfl, -⟩ := h
    obtain ⟨hmembers, hsession, hlineages, hassociations⟩ := supersede_frame
      { s with lineages := s.lineages ++ [⟨cause, lineage⟩] } lineage.predecessors s.lineages.length
    exact ⟨supersede_identity, ⟨hmembers, hsession, hassociations⟩, .inr ⟨hsome, hlineages⟩⟩

/-! ## The whole commit -/

/-- What committing a plan leaves, where the sessions created are `created`. -/
structure Commits (plan : GroupPlan P) (context : GroupContext P R) (cause : Cause)
    (created : List (Uuid × SessionCandidate P)) (s s' : Sessions P) : Prop where
  candidates : created.map Prod.snd = plan.created
  attached : Attached (created.map gift ++ plan.kept.map keptGift) s s'
  once : (created.map Prod.fst).Nodup
  fresh : ∀ entry ∈ created, s.identity entry.1 = none
  identity : ∀ entry ∈ created, s'.identity entry.1 = some (entry.2.key, none)
  identityRest : ∀ id, (∀ entry ∈ created, entry.1 ≠ id) → s'.identity id =
    if id ∈ plan.superseded then (s.identity id).map fun known => (known.1, some s.lineages.length)
    else s.identity id
  associations : ∀ entry ∈ created, ∀ kind, s'.associations entry.1 kind =
    (inherits context (associationsOf s plan.superseded) entry.1 entry.2 kind).or
      (s.associations entry.1 kind)
  associationsRest : ∀ id, (∀ entry ∈ created, entry.1 ≠ id) →
    s'.associations id = s.associations id
  lineages : plan.superseded = [] ∧ s'.lineages = s.lineages ∨
    plan.superseded ≠ [] ∧ ∃ lineage, s'.lineages = s.lineages ++ [⟨cause, lineage⟩] ∧
      lineage.predecessors = plan.superseded ∧
      lineage.successors = successorIds plan.superseded context.oldSessionOf created

section Commit

variable {plan : GroupPlan P} {context : GroupContext P R} {given : Regrouping P R} {cause : Cause}
  {s s' : Sessions P} {lineage : Option SessionLineage}

theorem commitPlan_commits (hkind : ∀ session kind, ∀ association ∈ s.associations session kind,
      association.kind = kind)
    (hsuperseded : ∀ id ∈ plan.superseded, s.identity id ≠ none)
    (hdisjoint : (plan.created.map candidateMembers ++ plan.kept.map KeptSession.added).Pairwise
      fun assets assets' => ∀ asset ∈ assets, asset ∉ assets')
    (h : s.commitPlan plan context given cause = .ok (s', lineage)) :
    ∃ created, Commits plan context cause created s s' := by
  obtain ⟨hcreated, hkept, hacross⟩ := List.pairwise_append.mp hdisjoint
  have hframed := refreshKept_framed s plan.kept
  unfold commitPlan at h
  simp only at h
  generalize s.refreshKept plan.kept = s₀ at h hframed
  split at h
  · next hnothing =>
    simp only [Result.pure_eq_ok, Prod.mk.injEq] at h
    obtain ⟨rfl, -⟩ := h
    simp only [Bool.and_eq_true, List.isEmpty_iff, List.all_eq_true] at hnothing
    obtain ⟨⟨hnone, hsame⟩, hadded⟩ := hnothing
    refine ⟨[], by simp [hnone], ?_, .nil, by simp, by simp, fun id _ => ?_, by simp,
      fun id _ => ?_, .inl ⟨hsame, hframed.lineages⟩⟩
    · refine ⟨fun session asset => ?_, fun g hg asset hasset => ?_, fun asset _ => ?_⟩
      · rw [hframed.members]
        refine ⟨.inl, fun hor => hor.resolve_right ?_⟩
        rintro ⟨g, hg, -, hasset⟩
        obtain ⟨kept, hmem, rfl⟩ := List.mem_map.mp hg
        simp [keptGift, hadded kept hmem] at hasset
      · obtain ⟨kept, hmem, rfl⟩ := List.mem_map.mp hg
        simp [keptGift, hadded kept hmem] at hasset
      · rw [hframed.sessionOf]
    · rw [if_neg (by simp [hsame]), hframed.identity]
    · rw [hframed.associations]
  · simp only [Result.bind_eq_ok] at h
    obtain ⟨s₁, hcreate, -, -, hrecord⟩ := h
    have hsnd : (plan.created.mapIdx fun i candidate => (given.ids i, candidate)).map Prod.snd =
        plan.created := by
      apply List.ext_getElem <;> simp
    generalize (plan.created.mapIdx fun i candidate => (given.ids i, candidate)) = created at *
    have hgifts : (created.map gift).map Prod.snd = plan.created.map candidateMembers := by
      rw [← hsnd, List.map_map, List.map_map]
      rfl
    have hkepts : (plan.kept.map keptGift).map Prod.snd = plan.kept.map KeptSession.added := by
      rw [List.map_map]
      rfl
    rw [← hgifts] at hcreated hacross
    rw [← hkepts] at hkept hacross
    have hindex : ∀ session kind, ∀ association ∈ associationsOf s₀ plan.superseded session kind,
        association.kind = kind := by
      intro session kind association hassociation
      rw [Option.mem_def, associationsOf, hframed.associations] at hassociation
      split at hassociation
      · exact hkind session kind association hassociation
      · cases hassociation
    have hmade := createSessions_created hindex (List.pairwise_map.mp hcreated) hcreate
    obtain ⟨hgrown, hidentity₂, hlineages₂, hassociations₂⟩ := growKept_attached
      (s := s₁) (List.pairwise_map.mp hkept)
    generalize s₁.growKept plan.kept (s₀.groupingRevision + 1) = s₂ at *
    obtain ⟨hidentity, ⟨hmembers, hsession, hassociations⟩, hlineages⟩ := recordLineage_eq_ok hrecord
    have hindexes : associationsOf s₀ plan.superseded = associationsOf s plan.superseded := by
      funext session kind
      rw [associationsOf, associationsOf, hframed.associations]
    have hfirst : ∀ id, Sessions.identity { s₀ with groupingRevision := s₀.groupingRevision + 1 } id =
        s.identity id := hframed.identity
    have hnew : ∀ entry ∈ created, entry.1 ∉ plan.superseded := fun entry hentry hmem =>
      hsuperseded _ hmem ((hfirst _).symm.trans (hmade.fresh entry hentry))
    refine ⟨created, hsnd, ?_, hmade.once, fun entry hentry => ?_, fun entry hentry => ?_,
      fun id hid => ?_, fun entry hentry kind => ?_, fun id hid => ?_, ?_⟩
    · refine (hmade.attached.append (fun g hg asset hasset g' hg' => ?_) hgrown).congr
        hframed.members.symm hframed.sessionOf.symm hmembers hsession
      exact hacross _ (List.mem_map_of_mem hg) _ (List.mem_map_of_mem hg') asset hasset
    · exact (hfirst _).symm.trans (hmade.fresh entry hentry)
    · rw [hidentity, if_neg (hnew entry hentry), hidentity₂]
      exact hmade.identity entry hentry
    · rw [hidentity, hidentity₂, hmade.identityRest id hid, hfirst, hlineages₂, hmade.lineages,
        hframed.lineages]
    · rw [hassociations, hassociations₂, hmade.associations entry hentry kind, hindexes]
      exact congrArg _ (congrFun (congrFun hframed.associations _) _)
    · rw [hassociations, hassociations₂, hmade.associationsRest id hid]
      exact congrFun hframed.associations id
    · rw [hlineages₂, hmade.lineages, hframed.lineages] at hlineages
      rcases hlineages with ⟨hnone, hsame⟩ | ⟨hsome, hadd⟩
      · exact .inl ⟨hnone, hsame⟩
      · exact .inr ⟨hsome, _, hadd, rfl, rfl⟩

end Commit

end Sessions

end PlateVault.Library
