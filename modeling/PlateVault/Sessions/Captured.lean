import Mathlib.Data.Finset.Card
import PlateVault.Grouping.Laws
import PlateVault.Library.Trashed
import PlateVault.Sessions.Captures

/-!
# What a capture is

Two copies are one capture when a chain of shared digests and recorded links joins them. What the
worklist visits is closed under both joins when it ends, and its forest joins exactly what they
join; so the capture of an asset does not depend on the assets it was asked for with.
-/

namespace PlateVault.Library

variable {P : Platform} {R : Reader}

/-! ## Captures -/

/-- A digest recorded on live copies of two active locations. -/
def Catalog.Shared (c : Catalog R) (digest : Text) : Prop :=
  ∃ a ∈ c.assets.rows, ∃ b ∈ c.assets.rows, c.joinable a = true ∧ c.joinable b = true ∧
    a.fingerprint.contentSha256 = some digest ∧ b.fingerprint.contentSha256 = some digest ∧
    a.locationId ≠ b.locationId

/-- Two copies with one shared digest, or with a recorded link between them. -/
def Catalog.Joined (c : Catalog R) (a b : Asset R) : Prop :=
  (∃ digest, a.fingerprint.contentSha256 = some digest ∧ b.fingerprint.contentSha256 = some digest ∧
    c.Shared digest) ∨ (a.id, b.id) ∈ c.copyLinks ∨ (b.id, a.id) ∈ c.copyLinks

theorem Catalog.Joined.symm {c : Catalog R} {a b : Asset R} (h : c.Joined a b) : c.Joined b a := by
  rcases h with ⟨digest, ha, hb, hshared⟩ | h | h
  · exact .inl ⟨digest, hb, ha, hshared⟩
  · exact .inr (.inr h)
  · exact .inr (.inl h)

def Catalog.Joins (c : Catalog R) (x y : Uuid) : Prop :=
  ∃ a ∈ c.assets.rows, ∃ b ∈ c.assets.rows, a.id = x ∧ b.id = y ∧ c.joinable a = true ∧
    c.joinable b = true ∧ c.Joined a b

theorem Catalog.Joins.symm {c : Catalog R} {x y : Uuid} (h : c.Joins x y) : c.Joins y x := by
  obtain ⟨a, ha, b, hb, hx, hy, hjoin, hjoin', hjoined⟩ := h
  exact ⟨b, hb, a, ha, hy, hx, hjoin', hjoin, hjoined.symm⟩

def Catalog.OneCapture (c : Catalog R) : Uuid → Uuid → Prop := Relation.EqvGen c.Joins

theorem Catalog.oneCapture_equivalence (c : Catalog R) : Equivalence c.OneCapture :=
  Relation.EqvGen.is_equivalence _

/-- What every committed catalog keeps: its assets have sessions, and no stored availability is one
that only a read gives. -/
structure Vault.Kept (v : Vault P R) : Prop where
  grouped : ∀ a ∈ v.catalog.assets.rows, (v.sessions.sessionOf a.id).isSome = true
  stored : ∀ a ∈ v.catalog.assets.rows, a.availability ≠ .retired
  locations : ∀ location ∈ v.catalog.locations.rows,
    location.availability ≠ .retired ∧ location.availability ≠ .trashed

/-! ## Reads -/

namespace Catalog

def Reads (c : Catalog R) (asset : Asset R) : Prop := ∃ row ∈ c.assets.rows, c.fromRow row = asset

theorem Reads.eq_of_id {c : Catalog R} {a b : Asset R} (ha : c.Reads a) (hb : c.Reads b)
    (h : a.id = b.id) : a = b := by
  obtain ⟨row, hrow, rfl⟩ := ha
  obtain ⟨other, hother, rfl⟩ := hb
  rw [fromRow_id, fromRow_id] at h
  rw [c.assets.toTable.eq_of_key hrow hother h]

end Catalog

theorem Vault.Kept.read_of_joinable {v : Vault P R} (h : v.Kept) {row : Asset R}
    (hrow : row ∈ v.catalog.assets.rows) (hjoin : v.catalog.joinable row = true) :
    ¬((v.catalog.fromRow row).availability = .retired ∨
      (v.catalog.fromRow row).availability = .trashed) := by
  simp only [Catalog.joinable, Bool.and_eq_true, Asset.live, decide_eq_true_eq,
    Catalog.activeLocation] at hjoin
  obtain ⟨hlive, hactive⟩ := hjoin
  obtain ⟨location, hfind, hlifecycle⟩ := (Option.any_eq_true _ _).mp hactive
  have hstored := h.stored row hrow
  obtain ⟨hretired, htrashed⟩ := h.locations location (Table.find?_eq_some.mp hfind).1
  have hread : (v.catalog.fromRow row).availability =
      Catalog.readAvailability .active location.availability row.availability := by
    unfold Catalog.fromRow
    rw [hfind, ← of_decide_eq_true hlifecycle]
  rw [hread]
  cases hrowAvailability : row.availability <;> cases hlocation : location.availability <;>
    simp_all [Catalog.readAvailability]

/-! ## Visits -/

theorem hasNode_iff {nodes : List (Asset R)} {id : Uuid} :
    hasNode nodes id = true ↔ id ∈ nodes.map Asset.id := by
  simp [hasNode]

def Asset.asks (a : Asset R) : Prop := ¬(a.availability = .retired ∨ a.availability = .trashed)

/-- What some visits did: each visited asset is a node, and each new node that asks had its digest
and its id asked for. -/
structure Visits.Led (before after : Visits R) (fresh : List (Asset R)) : Prop where
  kept : before.nodes <+: after.nodes
  nodes : ∀ a ∈ after.nodes, a ∈ before.nodes ∨ a ∈ fresh ∧ (a.asks → a.id ∈ after.ids ∧
    ∀ digest, a.fingerprint.contentSha256 = some digest → digest ∈ after.seenDigests)
  visited : ∀ a ∈ fresh, a.id ∈ after.nodes.map Asset.id
  nodup : (before.nodes.map Asset.id).Nodup → (after.nodes.map Asset.id).Nodup
  seenKept : ∀ digest ∈ before.seenDigests, digest ∈ after.seenDigests
  asked : ∀ digest ∈ after.seenDigests, digest ∈ before.seenDigests ∨ digest ∈ after.digests
  digestsKept : ∀ digest ∈ before.digests, digest ∈ after.digests
  idsKept : ∀ id ∈ before.ids, id ∈ after.ids

namespace Visits

theorem Led.refl (visits : Visits R) : visits.Led visits [] where
  kept := List.prefix_rfl
  nodes := fun _ ha => .inl ha
  visited := fun _ ha => absurd ha List.not_mem_nil
  nodup := id
  seenKept := fun _ h => h
  asked := fun _ h => .inl h
  digestsKept := fun _ h => h
  idsKept := fun _ h => h

theorem Led.trans {a b c : Visits R} {l l' : List (Asset R)} (h : a.Led b l) (h' : b.Led c l') :
    a.Led c (l ++ l') where
  kept := h.kept.trans h'.kept
  nodes := fun x hx => by
    rcases h'.nodes x hx with hx | ⟨hx, hasks⟩
    · refine (h.nodes x hx).imp id fun ⟨hmem, hasks⟩ => ⟨List.mem_append_left _ hmem, fun hx => ?_⟩
      obtain ⟨hid, hdigest⟩ := hasks hx
      exact ⟨h'.idsKept _ hid, fun digest hsha => h'.seenKept _ (hdigest digest hsha)⟩
    · exact .inr ⟨List.mem_append_right _ hx, hasks⟩
  visited := fun x hx => by
    rcases List.mem_append.mp hx with hx | hx
    · exact List.map_subset _ h'.kept.subset (h.visited x hx)
    · exact h'.visited x hx
  nodup := fun hnodup => h'.nodup (h.nodup hnodup)
  seenKept := fun digest hd => h'.seenKept _ (h.seenKept digest hd)
  asked := fun digest hd => by
    rcases h'.asked digest hd with hd | hd
    · exact (h.asked digest hd).imp id (h'.digestsKept digest)
    · exact .inr hd
  digestsKept := fun digest hd => h'.digestsKept _ (h.digestsKept digest hd)
  idsKept := fun id hid => h'.idsKept _ (h.idsKept id hid)

theorem visit_led (visits : Visits R) (asset : Asset R) :
    visits.Led (visits.visit asset) [asset] := by
  unfold visit
  split
  · next hnode =>
    exact { Led.refl visits with
      nodes := fun _ ha => .inl ha
      visited := fun a ha => List.mem_singleton.mp ha ▸ hasNode_iff.mp hnode }
  · next hnode =>
    have hfresh : asset.id ∉ visits.nodes.map Asset.id := mt hasNode_iff.mpr hnode
    have hnodup : (visits.nodes.map Asset.id).Nodup →
        ((visits.nodes ++ [asset]).map Asset.id).Nodup := by
      intro hnodup
      rw [List.map_append, List.map_singleton]
      exact List.nodup_append.mpr ⟨hnodup, List.nodup_singleton _, by
        rintro x hx y hy rfl
        exact hfresh (List.mem_singleton.mp hy ▸ hx)⟩
    split
    · next hclosed =>
      refine ⟨List.prefix_append _ _, fun a ha => ?_, fun a ha => ?_, hnodup, fun _ h => h,
        fun _ h => .inl h, fun _ h => h, fun _ h => h⟩
      · refine (List.mem_append.mp ha).imp id fun ha => ⟨ha, fun hasks => ?_⟩
        exact absurd (List.mem_singleton.mp ha ▸ hclosed) hasks
      · rw [List.mem_singleton.mp ha]
        simp
    · refine ⟨List.prefix_append _ _, fun a ha => ?_, fun a ha => ?_, hnodup,
        fun _ h => List.mem_append_left _ h, fun digest h => ?_, fun _ h => List.mem_append_left _ h,
        fun _ h => List.mem_append_left _ h⟩
      · refine (List.mem_append.mp ha).imp id fun ha => ⟨ha, fun _ => ?_⟩
        rw [List.mem_singleton.mp ha]
        refine ⟨by simp, fun digest hsha => ?_⟩
        by_cases hseen : digest ∈ visits.seenDigests
        · exact List.mem_append_left _ hseen
        · exact List.mem_append_right _ (by simp [hsha, hseen])
      · rw [List.mem_singleton.mp ha]
        simp
      · exact (List.mem_append.mp h).imp id fun h => List.mem_append_right _ h

theorem foldl_led (visits : Visits R) (fresh : List (Asset R)) :
    visits.Led (fresh.foldl visit visits) fresh := by
  induction fresh generalizing visits with
  | nil => exact .refl visits
  | cons asset fresh ih => exact (visit_led visits asset).trans (ih _)

end Visits

/-! ## One round's queries -/

/-- What a query that joins assets found: it joins only copies of one capture, separates none, and
gives assets as a read does. -/
structure Leads (c : Catalog R) (before : Forest Uuid) (found : List (Asset R))
    (after : Forest Uuid) : Prop where
  within : before.Within c.OneCapture → after.Within c.OneCapture
  roots : ∀ x y, before.root x = before.root y → after.root x = after.root y
  reads : ∀ a ∈ found, c.Reads a

theorem Leads.refl (c : Catalog R) (forest : Forest Uuid) : Leads c forest [] forest :=
  ⟨id, fun _ _ h => h, fun _ h => absurd h List.not_mem_nil⟩

theorem Leads.trans {c : Catalog R} {f f' f'' : Forest Uuid} {l l' : List (Asset R)}
    (h : Leads c f l f') (h' : Leads c f' l' f'') : Leads c f (l ++ l') f'' where
  within := fun hf => h'.within (h.within hf)
  roots := fun x y hxy => h'.roots x y (h.roots x y hxy)
  reads := fun a ha => (List.mem_append.mp ha).elim (h.reads a) (h'.reads a)

def Gathers (c : Catalog R) (digest : Text) (found : List (Asset R)) (after : Forest Uuid) : Prop :=
  c.Shared digest → ∀ a ∈ c.assets.rows, c.joinable a = true →
    a.fingerprint.contentSha256 = some digest → c.fromRow a ∈ found ∧
      ∀ b ∈ c.assets.rows, c.joinable b = true → b.fingerprint.contentSha256 = some digest →
        after.root a.id = after.root b.id

namespace Vault

theorem mem_copiesWithDigests {v : Vault P R} {digests : List Text} {a : Asset R} :
    a ∈ v.copiesWithDigests digests ↔ ∃ row ∈ v.catalog.assets.rows, v.catalog.fromRow row = a ∧
      v.catalog.joinable row = true ∧ (v.sessions.sessionOf row.id).isSome = true ∧
      ∃ digest ∈ digests, row.fingerprint.contentSha256 = some digest := by
  simp only [copiesWithDigests, List.mem_map, Ordered.mem_sortBy, List.mem_filter, Bool.and_eq_true,
    Catalog.joinable, Option.any_eq_true, decide_eq_true_eq]
  constructor
  · rintro ⟨row, ⟨hrow, ⟨⟨hlive, digest, hsha, hdigest⟩, hsession⟩, hactive⟩, rfl⟩
    exact ⟨row, hrow, rfl, ⟨hlive, hactive⟩, hsession, digest, hdigest, hsha⟩
  · rintro ⟨row, hrow, rfl, ⟨hlive, hactive⟩, hsession, digest, hdigest, hsha⟩
    exact ⟨row, ⟨hrow, ⟨⟨hlive, digest, hsha, hdigest⟩, hsession⟩, hactive⟩, rfl⟩

theorem mem_group {v : Vault P R} {digests : List Text} {digest : Text} {a : Asset R}
    (h : a ∈ (v.copiesWithDigests digests).filter fun copy =>
      copy.fingerprint.contentSha256 = some digest) :
    ∃ row ∈ v.catalog.assets.rows, v.catalog.fromRow row = a ∧ v.catalog.joinable row = true ∧
      row.fingerprint.contentSha256 = some digest := by
  rw [List.mem_filter, decide_eq_true_eq] at h
  obtain ⟨row, hrow, rfl, hjoin, -, -⟩ := mem_copiesWithDigests.mp h.1
  exact ⟨row, hrow, rfl, hjoin, by simpa using h.2⟩

theorem Kept.mem_group {v : Vault P R} (hv : v.Kept) {digests : List Text} {digest : Text}
    (hdigest : digest ∈ digests) {row : Asset R} (hrow : row ∈ v.catalog.assets.rows)
    (hjoin : v.catalog.joinable row = true)
    (hsha : row.fingerprint.contentSha256 = some digest) :
    v.catalog.fromRow row ∈ (v.copiesWithDigests digests).filter fun copy =>
      copy.fingerprint.contentSha256 = some digest := by
  rw [List.mem_filter, decide_eq_true_eq]
  refine ⟨mem_copiesWithDigests.mpr
    ⟨row, hrow, rfl, hjoin, hv.grouped row hrow, digest, hdigest, hsha⟩, ?_⟩
  simpa using hsha

theorem one_lt_locations_iff {group : List (Asset R)} :
    1 < (group.map Asset.locationId).dedup.length ↔
      ∃ a ∈ group, ∃ b ∈ group, a.locationId ≠ b.locationId := by
  rw [← List.card_toFinset, Finset.one_lt_card]
  simp

theorem joinDigest_leads {v : Vault P R} (hv : v.Kept) {digests : List Text} (digest : Text)
    (found : List (Asset R)) (forest : Forest Uuid) :
    ∃ more forest', joinDigest (v.copiesWithDigests digests) (found, forest) digest =
        (found ++ more, forest') ∧ Leads v.catalog forest more forest' ∧
      (digest ∈ digests → Gathers v.catalog digest more forest') := by
  unfold joinDigest
  simp only
  split
  · next hmany =>
    obtain ⟨a, ha, b, hb, hne⟩ := one_lt_locations_iff.mp hmany
    obtain ⟨row, hrow, rfl, hjoin, hsha⟩ := mem_group ha
    obtain ⟨other, hother, rfl, hjoin', hsha'⟩ := mem_group hb
    have hshared : v.catalog.Shared digest :=
      ⟨row, hrow, other, hother, hjoin, hjoin', hsha, hsha', by simpa using hne⟩
    refine ⟨_, _, rfl, ⟨fun hwithin => ?_, fun x y h => Forest.root_joinAll_of_eq h _, fun c hc => ?_⟩,
      fun hdigest _ c hc hcjoin hcsha => ?_⟩
    · refine hwithin.joinAll v.catalog.oneCapture_equivalence fun pair hpair => ?_
      obtain ⟨hleft, hright⟩ := List.of_mem_zip hpair
      obtain ⟨x, hx, hxid⟩ := List.mem_map.mp hleft
      obtain ⟨y, hy, hyid⟩ := List.mem_map.mp (List.mem_of_mem_tail hright)
      obtain ⟨left, hleftRow, rfl, hleftJoin, hleftSha⟩ := mem_group hx
      obtain ⟨right, hrightRow, rfl, hrightJoin, hrightSha⟩ := mem_group hy
      rw [← hxid, ← hyid, Catalog.fromRow_id, Catalog.fromRow_id]
      exact .rel _ _ ⟨left, hleftRow, right, hrightRow, rfl, rfl, hleftJoin, hrightJoin,
        .inl ⟨digest, hleftSha, hrightSha, hshared⟩⟩
    · obtain ⟨left, hleft, rfl, -, -⟩ := mem_group hc
      exact ⟨left, hleft, rfl⟩
    · have hmem : ∀ d ∈ v.catalog.assets.rows, v.catalog.joinable d = true →
          d.fingerprint.contentSha256 = some digest →
          d.id ∈ ((v.copiesWithDigests digests).filter fun copy =>
            copy.fingerprint.contentSha256 = some digest).map Asset.id := by
        intro d hd hdjoin hdsha
        exact List.mem_map.mpr ⟨_, hv.mem_group hdigest hd hdjoin hdsha, Catalog.fromRow_id _ _⟩
      exact ⟨hv.mem_group hdigest hc hcjoin hcsha, fun d hd hdjoin hdsha =>
        Forest.root_joinAll_zip_tail (hmem c hc hcjoin hcsha) (hmem d hd hdjoin hdsha)⟩
  · next hfew =>
    refine ⟨[], forest, by rw [List.append_nil], .refl _ _, fun hdigest hshared => ?_⟩
    obtain ⟨a, ha, b, hb, hjoin, hjoin', hsha, hsha', hne⟩ := hshared
    refine absurd (one_lt_locations_iff.mpr ⟨_, hv.mem_group hdigest ha hjoin hsha, _,
      hv.mem_group hdigest hb hjoin' hsha', ?_⟩) hfew
    simpa using hne

theorem foldl_joinDigest_leads {v : Vault P R} (hv : v.Kept) {digests : List Text} (l : List Text)
    (found : List (Asset R)) (forest : Forest Uuid) :
    ∃ more forest', l.foldl (joinDigest (v.copiesWithDigests digests)) (found, forest) =
        (found ++ more, forest') ∧ Leads v.catalog forest more forest' ∧
      ∀ digest ∈ l, digest ∈ digests → Gathers v.catalog digest more forest' := by
  induction l generalizing found forest with
  | nil => exact ⟨[], forest, by simp, .refl _ _, fun _ h => absurd h List.not_mem_nil⟩
  | cons digest l ih =>
    obtain ⟨more, forest₁, hone, hleads, hgathers⟩ := joinDigest_leads hv digest found forest
    obtain ⟨rest, forest₂, hrest, hleads', hgathers'⟩ := ih (found ++ more) forest₁
    refine ⟨more ++ rest, forest₂, ?_, hleads.trans hleads', fun other hother hdigest => ?_⟩
    · rw [List.foldl_cons, hone, hrest, List.append_assoc]
    · rcases List.mem_cons.mp hother with rfl | hother
      · intro hshared a ha hjoin hsha
        obtain ⟨hfound, hroots⟩ := hgathers hdigest hshared a ha hjoin hsha
        exact ⟨List.mem_append_left _ hfound, fun b hb hbjoin hbsha =>
          hleads'.roots _ _ (hroots b hb hbjoin hbsha)⟩
      · intro hshared a ha hjoin hsha
        obtain ⟨hfound, hroots⟩ := hgathers' other hother hdigest hshared a ha hjoin hsha
        exact ⟨List.mem_append_right _ hfound, hroots⟩

theorem copiesByDigest_leads {v : Vault P R} (hv : v.Kept) (digests : List Text)
    (forest : Forest Uuid) :
    Leads v.catalog forest (v.copiesByDigest digests forest).1 (v.copiesByDigest digests forest).2 ∧
      ∀ digest ∈ digests, Gathers v.catalog digest (v.copiesByDigest digests forest).1
        (v.copiesByDigest digests forest).2 := by
  obtain ⟨more, forest', heq, hleads, hgathers⟩ := @foldl_joinDigest_leads _ _ _ hv digests
    (Ordered.ascending ((v.copiesWithDigests digests).filterMap
      fun copy => copy.fingerprint.contentSha256)) [] forest
  have hresult : v.copiesByDigest digests forest = (more, forest') := heq
  rw [hresult]
  refine ⟨hleads, fun digest hdigest hshared a ha hjoin hsha => ?_⟩
  refine hgathers digest ?_ hdigest hshared a ha hjoin hsha
  rw [Ordered.mem_ascending, List.mem_filterMap]
  exact ⟨_, mem_copiesWithDigests.mpr
    ⟨a, ha, rfl, hjoin, hv.grouped a ha, digest, hdigest, hsha⟩, by simpa using hsha⟩

/-! ## Links -/

theorem ends_iff {c : Catalog R} {left right : Uuid} :
    (c.assets.rows.filter fun r => (r.id = left || r.id = right) && c.joinable r).length = 2 ↔
      left ≠ right ∧ ∃ a ∈ c.assets.rows, ∃ b ∈ c.assets.rows, a.id = left ∧ b.id = right ∧
        c.joinable a = true ∧ c.joinable b = true := by
  set ends := c.assets.rows.filter fun r => (r.id = left || r.id = right) && c.joinable r with hends
  have hnodup : (ends.map Asset.id).Nodup :=
    c.assets.nodup.sublist (List.filter_sublist.map Asset.id)
  have hmem : ∀ x, x ∈ (ends.map Asset.id).toFinset ↔
      (x = left ∨ x = right) ∧ ∃ a ∈ c.assets.rows, a.id = x ∧ c.joinable a = true := by
    intro x
    rw [List.mem_toFinset, List.mem_map]
    constructor
    · rintro ⟨a, ha, rfl⟩
      simp only [hends, List.mem_filter, Bool.and_eq_true, Bool.or_eq_true, decide_eq_true_eq] at ha
      exact ⟨ha.2.1, a, ha.1, rfl, ha.2.2⟩
    · rintro ⟨hx, a, ha, rfl, hjoin⟩
      exact ⟨a, by simpa [hends, ha, hjoin] using hx, rfl⟩
  have hcard : (ends.map Asset.id).toFinset.card = ends.length := by
    rw [List.toFinset_card_of_nodup hnodup, List.length_map]
  have hsub : (ends.map Asset.id).toFinset ⊆ {left, right} := by
    intro x hx
    simpa using ((hmem x).mp hx).1
  rw [← hcard]
  constructor
  · intro htwo
    have hpair : ({left, right} : Finset Uuid).card ≤ 2 := Finset.card_le_two
    have heq := Finset.eq_of_subset_of_card_le hsub (by omega)
    obtain ⟨-, a, ha, haid, hjoin⟩ := (hmem left).mp (heq ▸ Finset.mem_insert_self left {right})
    obtain ⟨-, b, hb, hbid, hjoin'⟩ := (hmem right).mp (heq ▸ by simp)
    refine ⟨fun hsame => ?_, a, ha, b, hb, haid, hbid, hjoin, hjoin'⟩
    rw [heq, hsame] at htwo
    simp at htwo
  · rintro ⟨hne, a, ha, b, hb, haid, hbid, hjoin, hjoin'⟩
    have heq : (ends.map Asset.id).toFinset = {left, right} := by
      refine hsub.antisymm fun x hx => (hmem x).mpr ?_
      rcases Finset.mem_insert.mp hx with rfl | hx
      · exact ⟨.inl rfl, a, ha, haid, hjoin⟩
      · rw [Finset.mem_singleton] at hx
        exact ⟨.inr hx, b, hb, hbid.trans hx.symm, hjoin'⟩
    rw [heq, Finset.card_pair hne]

theorem mem_linksOfAssets {c : Catalog R} {ids : List Uuid} {left right : Uuid} :
    (left, right) ∈ c.linksOfAssets ids ↔ (left, right) ∈ c.copyLinks ∧
      (left ∈ ids ∨ right ∈ ids) ∧ left ≠ right ∧
      ∃ a ∈ c.assets.rows, ∃ b ∈ c.assets.rows, a.id = left ∧ b.id = right ∧
        c.joinable a = true ∧ c.joinable b = true := by
  rw [Catalog.linksOfAssets, List.mem_filter, Bool.and_eq_true, Bool.or_eq_true, decide_eq_true_eq,
    decide_eq_true_eq, decide_eq_true_eq, ends_iff]

theorem linkedCopies_leads (v : Vault P R) (ids : List Uuid) (nodes : List (Asset R))
    (forest : Forest Uuid) :
    Leads v.catalog forest (v.linkedCopies ids nodes forest).1 (v.linkedCopies ids nodes forest).2 ∧
      ∀ a ∈ v.catalog.assets.rows, ∀ b ∈ v.catalog.assets.rows, v.catalog.joinable a = true →
        v.catalog.joinable b = true → a.id ≠ b.id → a.id ∈ ids →
        ((a.id, b.id) ∈ v.catalog.copyLinks ∨ (b.id, a.id) ∈ v.catalog.copyLinks) →
          (v.linkedCopies ids nodes forest).2.root a.id =
              (v.linkedCopies ids nodes forest).2.root b.id ∧
            (b.id ∉ nodes.map Asset.id →
              v.catalog.fromRow b ∈ (v.linkedCopies ids nodes forest).1) := by
  refine ⟨⟨fun hwithin => ?_, fun x y h => Forest.root_joinAll_of_eq h _, fun a ha => ?_⟩,
    fun a ha b hb hjoin hjoin' hne hid hlink => ?_⟩
  · refine hwithin.joinAll v.catalog.oneCapture_equivalence fun pair hpair => ?_
    obtain ⟨hrecorded, -, -, a, ha, b, hb, haid, hbid, hjoin, hjoin'⟩ := mem_linksOfAssets.mp hpair
    exact .rel _ _ ⟨a, ha, b, hb, haid, hbid, hjoin, hjoin', .inr (.inl (by rwa [haid, hbid]))⟩
  · simp only [linkedCopies, Catalog.assetsByIds, List.mem_map, List.mem_filter] at ha
    obtain ⟨row, ⟨hrow, -⟩, rfl⟩ := ha
    exact ⟨row, hrow, rfl⟩
  · have hfound : ∀ link ∈ v.catalog.linksOfAssets ids, (b.id = link.1 ∨ b.id = link.2) →
        b.id ∉ nodes.map Asset.id → v.catalog.fromRow b ∈ (v.linkedCopies ids nodes forest).1 := by
      intro link hmem hend hnew
      have hlive : b.live = true := (Bool.and_eq_true _ _ |>.mp hjoin').1
      have hnode : hasNode nodes b.id = false := Bool.eq_false_iff.mpr (mt hasNode_iff.mp hnew)
      refine List.mem_map.mpr ⟨b, List.mem_filter.mpr ⟨hb, ?_⟩, rfl⟩
      rw [Bool.and_eq_true, decide_eq_true_eq, Ordered.mem_ascending, List.mem_filter]
      exact ⟨hlive, List.mem_flatMap.mpr ⟨link, hmem, by simpa using hend⟩, by simp [hnode]⟩
    rcases hlink with hlink | hlink
    · have hmem := mem_linksOfAssets.mpr
        ⟨hlink, .inl hid, hne, a, ha, b, hb, rfl, rfl, hjoin, hjoin'⟩
      exact ⟨Forest.root_joinAll_of_mem hmem, hfound _ hmem (.inr rfl)⟩
    · have hmem := mem_linksOfAssets.mpr
        ⟨hlink, .inr hid, hne.symm, b, hb, a, ha, rfl, rfl, hjoin', hjoin⟩
      exact ⟨(Forest.root_joinAll_of_mem hmem).symm, hfound _ hmem (.inl rfl)⟩

/-! ## The worklist -/

def Met (c : Catalog R) (walk : CaptureWalk R) (fresh : List (Asset R)) (row : Asset R) : Prop :=
  row.id ∈ walk.nodes.map Asset.id ∨ c.fromRow row ∈ fresh

/-- The invariant of the worklist: its forest joins only copies of one capture, and whatever a node
that joins others joins is met, and joined in the forest. -/
structure Walked (v : Vault P R) (walk : CaptureWalk R) (fresh : List (Asset R)) : Prop where
  nodes : ∀ a ∈ walk.nodes, v.catalog.Reads a
  next : ∀ a ∈ fresh, v.catalog.Reads a ∧ a.id ∉ walk.nodes.map Asset.id
  nodup : (walk.nodes.map Asset.id).Nodup
  within : walk.parent.Within v.catalog.OneCapture
  asked : ∀ a ∈ v.catalog.assets.rows, v.catalog.joinable a = true →
    a.id ∈ walk.nodes.map Asset.id → ∀ digest, a.fingerprint.contentSha256 = some digest →
      digest ∈ walk.seenDigests
  gathered : ∀ digest ∈ walk.seenDigests, v.catalog.Shared digest →
    ∀ a ∈ v.catalog.assets.rows, v.catalog.joinable a = true →
      a.fingerprint.contentSha256 = some digest → Met v.catalog walk fresh a ∧
        ∀ b ∈ v.catalog.assets.rows, v.catalog.joinable b = true →
          b.fingerprint.contentSha256 = some digest → walk.parent.root a.id = walk.parent.root b.id
  linked : ∀ a ∈ v.catalog.assets.rows, ∀ b ∈ v.catalog.assets.rows,
    v.catalog.joinable a = true → v.catalog.joinable b = true →
      a.id ∈ walk.nodes.map Asset.id →
        ((a.id, b.id) ∈ v.catalog.copyLinks ∨ (b.id, a.id) ∈ v.catalog.copyLinks) →
          Met v.catalog walk fresh b ∧ walk.parent.root a.id = walk.parent.root b.id

theorem Walked.start {v : Vault P R} {assets : List (Asset R)}
    (h : ∀ a ∈ assets, v.catalog.Reads a) : Walked v ⟨[], .empty, []⟩ assets where
  nodes := fun _ ha => absurd ha List.not_mem_nil
  next := fun a ha => ⟨h a ha, List.not_mem_nil⟩
  nodup := List.nodup_nil
  within := .empty v.catalog.oneCapture_equivalence.refl
  asked := fun _ _ _ ha => absurd ha List.not_mem_nil
  gathered := fun _ hd => absurd hd List.not_mem_nil
  linked := fun _ _ _ _ _ _ ha => absurd ha List.not_mem_nil

theorem Walked.round {v : Vault P R} (hv : v.Kept) {walk : CaptureWalk R} {fresh : List (Asset R)}
    (h : Walked v walk fresh) :
    Walked v (v.captureRound walk fresh).1 (v.captureRound walk fresh).2 ∧
      walk.nodes <+: (v.captureRound walk fresh).1.nodes ∧
      ∀ a ∈ fresh, a.id ∈ (v.captureRound walk fresh).1.nodes.map Asset.id := by
  have hled := Visits.foldl_led ⟨walk.nodes, walk.seenDigests, [], []⟩ fresh
  unfold captureRound
  simp only
  generalize fresh.foldl Visits.visit ⟨walk.nodes, walk.seenDigests, [], []⟩ = visits at hled ⊢
  obtain ⟨hcopies, hgathers⟩ := copiesByDigest_leads hv visits.digests walk.parent
  generalize v.copiesByDigest visits.digests walk.parent = copied at hcopies hgathers ⊢
  obtain ⟨found, forest⟩ := copied
  simp only at hcopies hgathers ⊢
  obtain ⟨hlinks, hends⟩ := linkedCopies_leads v visits.ids visits.nodes forest
  generalize v.linkedCopies visits.ids visits.nodes forest = linked at hlinks hends ⊢
  obtain ⟨linked, forest'⟩ := linked
  simp only at hlinks hends ⊢
  have hall := hcopies.trans hlinks
  have hreads : ∀ a ∈ visits.nodes, v.catalog.Reads a := fun a ha =>
    (hled.nodes a ha).elim (h.nodes a) fun hfresh => (h.next a hfresh.1).1
  -- what a query found is a node by now, or visited next
  have hmet : ∀ a, v.catalog.fromRow a ∈ found ++ linked → Met v.catalog
      ⟨visits.nodes, forest', visits.seenDigests⟩
      ((found ++ linked).filter (!hasNode visits.nodes ·.id)) a := by
    intro a ha
    by_cases hnode : a.id ∈ visits.nodes.map Asset.id
    · exact .inl hnode
    · refine .inr (List.mem_filter.mpr ⟨ha, ?_⟩)
      rw [Catalog.fromRow_id, Bool.not_eq_true', Bool.eq_false_iff]
      exact mt hasNode_iff.mp hnode
  have hold : ∀ a, Met v.catalog walk fresh a → a.id ∈ visits.nodes.map Asset.id := by
    rintro a (ha | ha)
    · exact List.map_subset _ hled.kept.subset ha
    · have := hled.visited _ ha
      rwa [Catalog.fromRow_id] at this
  -- a node is an old one, or one this turn visited
  have hnode : ∀ a ∈ v.catalog.assets.rows, v.catalog.joinable a = true →
      a.id ∈ visits.nodes.map Asset.id → a.id ∈ walk.nodes.map Asset.id ∨ a.id ∈ visits.ids ∧
        ∀ digest, a.fingerprint.contentSha256 = some digest → digest ∈ visits.seenDigests := by
    intro a ha hjoin hmem
    obtain ⟨node, hnode, hid⟩ := List.mem_map.mp hmem
    have hsame : node = v.catalog.fromRow a :=
      (hreads node hnode).eq_of_id ⟨a, ha, rfl⟩ (by rw [hid, Catalog.fromRow_id])
    refine (hled.nodes node hnode).imp (fun hwalk => ?_) fun ⟨_, hasks⟩ => ?_
    · exact List.mem_map.mpr ⟨node, hwalk, hid⟩
    · subst hsame
      have := hasks (hv.read_of_joinable ha hjoin)
      rwa [Catalog.fromRow_id, Catalog.fromRow_fingerprint] at this
  refine ⟨⟨hreads, fun a ha => ?_, hled.nodup h.nodup, hall.within h.within, ?_, ?_, ?_⟩,
    hled.kept, hled.visited⟩
  · obtain ⟨hmem, hnew⟩ := List.mem_filter.mp ha
    refine ⟨hall.reads a hmem, fun hnode => ?_⟩
    rw [hasNode_iff.mpr hnode] at hnew
    cases hnew
  · intro a ha hjoin hmem digest hsha
    rcases hnode a ha hjoin hmem with hwalk | ⟨-, hdigest⟩
    · exact hled.seenKept _ (h.asked a ha hjoin hwalk digest hsha)
    · exact hdigest digest hsha
  · intro digest hdigest hshared a ha hjoin hsha
    rcases hled.asked digest hdigest with hseen | hasked
    · obtain ⟨hwas, hroots⟩ := h.gathered digest hseen hshared a ha hjoin hsha
      exact ⟨.inl (hold a hwas), fun b hb hbjoin hbsha => hall.roots _ _ (hroots b hb hbjoin hbsha)⟩
    · obtain ⟨hfound, hroots⟩ := hgathers digest hasked hshared a ha hjoin hsha
      exact ⟨hmet a (List.mem_append_left _ hfound),
        fun b hb hbjoin hbsha => hlinks.roots _ _ (hroots b hb hbjoin hbsha)⟩
  · intro a ha b hb hjoin hjoin' hmem hlink
    rcases hnode a ha hjoin hmem with hwalk | ⟨hid, -⟩
    · obtain ⟨hwas, hroots⟩ := h.linked a ha b hb hjoin hjoin' hwalk hlink
      exact ⟨.inl (hold b hwas), hall.roots _ _ hroots⟩
    · by_cases hself : a.id = b.id
      · exact ⟨.inl (hself ▸ hmem), by rw [hself]⟩
      · obtain ⟨hroots, hfound⟩ := hends a ha b hb hjoin hjoin' hself hid hlink
        refine ⟨?_, hroots⟩
        by_cases hbnode : b.id ∈ visits.nodes.map Asset.id
        · exact .inl hbnode
        · exact hmet b (List.mem_append_right _ (hfound hbnode))

theorem Walked.rounds {v : Vault P R} (hv : v.Kept) {walk : CaptureWalk R} {fresh : List (Asset R)}
    {fuel : Nat} (h : Walked v walk fresh)
    (hfuel : v.catalog.assets.rows.length < walk.nodes.length + fuel) :
    ∃ last, v.captureRounds fuel walk fresh = some last ∧ Walked v last [] ∧
      walk.nodes <+: last.nodes ∧ ∀ a ∈ fresh, a.id ∈ last.nodes.map Asset.id := by
  induction fuel generalizing walk fresh with
  | zero =>
    have hsub : walk.nodes.map Asset.id ⊆ v.catalog.assets.rows.map Asset.id := by
      intro id hid
      obtain ⟨node, hnode, rfl⟩ := List.mem_map.mp hid
      obtain ⟨row, hrow, rfl⟩ := h.nodes node hnode
      exact List.mem_map.mpr ⟨row, hrow, (Catalog.fromRow_id _ _).symm⟩
    have hlength := (h.nodup.subperm hsub).length_le
    simp only [List.length_map] at hlength
    omega
  | succ fuel ih =>
    cases fresh with
    | nil => exact ⟨walk, rfl, h, List.prefix_rfl, fun _ ha => absurd ha List.not_mem_nil⟩
    | cons asset fresh =>
      obtain ⟨hround, hkept, hvisited⟩ := h.round hv
      have hgrows : walk.nodes.length < (v.captureRound walk (asset :: fresh)).1.nodes.length := by
        refine lt_of_le_of_ne hkept.length_le fun hlength => ?_
        have hsame := hkept.eq_of_length hlength
        exact (h.next asset List.mem_cons_self).2 (hsame ▸ hvisited asset List.mem_cons_self)
      obtain ⟨last, hlast, hwalked, hprefix', hnext⟩ := ih hround (by omega)
      exact ⟨last, hlast, hwalked, hkept.trans hprefix', fun a ha =>
        List.map_subset _ hprefix'.subset (hvisited a ha)⟩

theorem Walked.joins {v : Vault P R} {walk : CaptureWalk R} (h : Walked v walk []) {x y : Uuid}
    (hx : x ∈ walk.nodes.map Asset.id) (hjoins : v.catalog.Joins x y) :
    y ∈ walk.nodes.map Asset.id ∧ walk.parent.root x = walk.parent.root y := by
  obtain ⟨a, ha, b, hb, rfl, rfl, hjoin, hjoin', hjoined⟩ := hjoins
  have hnode : ∀ c, Met v.catalog walk [] c → c.id ∈ walk.nodes.map Asset.id := fun c hc =>
    hc.resolve_right List.not_mem_nil
  rcases hjoined with ⟨digest, hsha, hsha', hshared⟩ | hlink
  · have hdigest := h.asked a ha hjoin hx digest hsha
    obtain ⟨-, hroots⟩ := h.gathered digest hdigest hshared a ha hjoin hsha
    obtain ⟨hmet, -⟩ := h.gathered digest hdigest hshared b hb hjoin' hsha'
    exact ⟨hnode b hmet, hroots b hb hjoin' hsha'⟩
  · obtain ⟨hmet, hroots⟩ := h.linked a ha b hb hjoin hjoin' hx hlink
    exact ⟨hnode b hmet, hroots⟩

theorem Walked.follows {v : Vault P R} {walk : CaptureWalk R} (h : Walked v walk []) {x y : Uuid}
    (hone : v.catalog.OneCapture x y) :
    (x ∈ walk.nodes.map Asset.id ↔ y ∈ walk.nodes.map Asset.id) ∧
      (x ∈ walk.nodes.map Asset.id → walk.parent.root x = walk.parent.root y) := by
  induction hone with
  | rel x y hjoins =>
    exact ⟨⟨fun hx => (h.joins hx hjoins).1, fun hy => (h.joins hy hjoins.symm).1⟩,
      fun hx => (h.joins hx hjoins).2⟩
  | refl x => exact ⟨Iff.rfl, fun _ => rfl⟩
  | symm x y _ ih => exact ⟨ih.1.symm, fun hy => (ih.2 (ih.1.mpr hy)).symm⟩
  | trans x y z _ _ ih ih' =>
    exact ⟨ih.1.trans ih'.1, fun hx => (ih.2 hx).trans (ih'.2 (ih.1.mp hx))⟩

theorem Walked.root_eq_iff {v : Vault P R} {walk : CaptureWalk R} (h : Walked v walk []) {x y : Uuid}
    (hx : x ∈ walk.nodes.map Asset.id) :
    walk.parent.root x = walk.parent.root y ↔ v.catalog.OneCapture x y :=
  ⟨h.within x y, fun hone => (h.follows hone).2 hx⟩

theorem Walked.isLeast_root {v : Vault P R} {walk : CaptureWalk R} (h : Walked v walk []) {x : Uuid}
    (hx : x ∈ walk.nodes.map Asset.id) :
    IsLeast {y | v.catalog.OneCapture x y} (walk.parent.root x) := by
  constructor
  · exact (h.root_eq_iff hx).mp (walk.parent.root_root x).symm
  · intro y hy
    rw [(h.root_eq_iff hx).mpr hy]
    exact walk.parent.root_le y

end Vault

section Capture

open Classical

/-- The recorded copies of an asset's capture, by location and id. -/
noncomputable def Catalog.capture (c : Catalog R) (id : Uuid) : List (Asset R) :=
  Ordered.sortBy (fun copy => toLex (copy.locationId, copy.id))
    ((c.assets.rows.filter fun row => c.OneCapture id row.id).map c.fromRow)

theorem Catalog.mem_capture {c : Catalog R} {id : Uuid} {a : Asset R} :
    a ∈ c.capture id ↔ c.Reads a ∧ c.OneCapture id a.id := by
  rw [capture, Ordered.mem_sortBy, List.mem_map]
  constructor
  · rintro ⟨row, hrow, rfl⟩
    rw [List.mem_filter, decide_eq_true_eq] at hrow
    exact ⟨⟨row, hrow.1, rfl⟩, by rw [fromRow_id]; exact hrow.2⟩
  · rintro ⟨⟨row, hrow, rfl⟩, hone⟩
    rw [fromRow_id] at hone
    exact ⟨row, List.mem_filter.mpr ⟨hrow, decide_eq_true hone⟩, rfl⟩

namespace Vault

theorem Walked.component_eq {v : Vault P R} {walk : CaptureWalk R} (h : Walked v walk []) {x : Uuid}
    (hx : x ∈ walk.nodes.map Asset.id) :
    component walk (walk.parent.root x) = v.catalog.capture x := by
  have hnodup : walk.nodes.Nodup := .of_map Asset.id h.nodup
  have hrows : ((v.catalog.assets.rows.filter fun row =>
      v.catalog.OneCapture x row.id).map v.catalog.fromRow).Nodup := by
    refine .of_map Asset.id ?_
    rw [List.map_map]
    have hids : Asset.id ∘ v.catalog.fromRow = Asset.id := funext (Catalog.fromRow_id _)
    rw [hids]
    exact v.catalog.assets.nodup.sublist (List.filter_sublist.map Asset.id)
  refine Ordered.sortBy_congr ?_ ((List.perm_ext_iff_of_nodup (hnodup.filter _) hrows).mpr ?_)
  · refine (List.pairwise_map.mp (h.nodup.sublist (List.filter_sublist.map Asset.id))).imp ?_
    intro a b hne heq
    exact hne (congrArg (fun key => (ofLex key).2) heq)
  · intro a
    have hcapture := @Catalog.mem_capture _ v.catalog x a
    rw [Catalog.capture, Ordered.mem_sortBy] at hcapture
    rw [hcapture, List.mem_filter, decide_eq_true_eq]
    constructor
    · rintro ⟨hnode, hroot⟩
      exact ⟨h.nodes a hnode, (h.root_eq_iff hx).mp hroot.symm⟩
    · rintro ⟨hreads, hone⟩
      obtain ⟨node, hnode, hid⟩ := List.mem_map.mp ((h.follows hone).1.mp hx)
      rw [← (h.nodes node hnode).eq_of_id hreads hid, hid]
      exact ⟨hnode, ((h.root_eq_iff hx).mpr hone).symm⟩

end Vault

end Capture

namespace Vault

/-! ## The answer -/

/-- Entries that say of an id its root and of a root its component. -/
structure Answers (walk : CaptureWalk R) (captures : Captures R) : Prop where
  keys : ∀ id key, captures.keyOf id = some key → key = (walk.parent.root id).hyphenated
  copies : ∀ (root : Uuid) group, captures.copies root.hyphenated = some group →
    group = component walk root

theorem Answers.entry {walk : CaptureWalk R} {captures : Captures R} (h : Answers walk captures)
    (asset : Asset R) :
    Answers walk (answer walk captures asset) ∧
      ((answer walk captures asset).keyOf asset.id).isSome = true ∧
      (∀ key, ((answer walk captures asset).copies key).isSome =
        ((captures.copies key).isSome || key = (walk.parent.root asset.id).hyphenated)) ∧
      ∀ id, (captures.keyOf id).isSome = true →
        ((answer walk captures asset).keyOf id).isSome = true := by
  unfold Vault.answer
  simp only
  refine ⟨⟨fun id key hkey => ?_, fun root group hgroup => ?_⟩, ?_, fun key => ?_, fun id hid => ?_⟩
  · simp only at hkey
    by_cases hid : id = asset.id
    · subst hid
      rw [Function.update_self] at hkey
      exact (Option.some.inj hkey).symm
    · rw [Function.update_of_ne hid] at hkey
      exact h.keys id key hkey
  · simp only at hgroup
    split at hgroup
    · exact h.copies root group hgroup
    · by_cases hkey : root.hyphenated = (walk.parent.root asset.id).hyphenated
      · rw [hkey, Function.update_self] at hgroup
        rw [Uuid.hyphenated_injective hkey]
        exact (Option.some.inj hgroup).symm
      · rw [Function.update_of_ne hkey] at hgroup
        exact h.copies root group hgroup
  · rw [Function.update_self]
    rfl
  · split
    · next hsome =>
      by_cases hkey : key = (walk.parent.root asset.id).hyphenated
      · rw [hkey, hsome]
        rfl
      · simp [hkey]
    · by_cases hkey : key = (walk.parent.root asset.id).hyphenated
      · rw [hkey, Function.update_self]
        simp
      · rw [Function.update_of_ne hkey]
        simp [hkey]
  · by_cases hsame : id = asset.id
    · rw [hsame, Function.update_self]
      rfl
    · rwa [Function.update_of_ne hsame]

theorem Answers.entries {walk : CaptureWalk R} {captures : Captures R} (h : Answers walk captures)
    (assets : List (Asset R)) :
    Answers walk (assets.foldl (answer walk) captures) ∧
      (∀ key, (captures.copies key).isSome = true →
        ((assets.foldl (answer walk) captures).copies key).isSome = true) ∧
      (∀ id, (captures.keyOf id).isSome = true →
        ((assets.foldl (answer walk) captures).keyOf id).isSome = true) ∧
      ∀ a ∈ assets, ((assets.foldl (answer walk) captures).keyOf a.id).isSome = true ∧
        ((assets.foldl (answer walk) captures).copies
          (walk.parent.root a.id).hyphenated).isSome = true := by
  induction assets generalizing captures with
  | nil => exact ⟨h, fun _ h => h, fun _ h => h, fun _ ha => absurd ha List.not_mem_nil⟩
  | cons asset assets ih =>
    obtain ⟨hanswers, hkey, hcopies, hkept⟩ := h.entry asset
    obtain ⟨hall, hcopiesKept, hkeysKept, hentries⟩ := ih hanswers
    refine ⟨hall, fun key hsome => hcopiesKept key ?_, fun id hsome => hkeysKept id (hkept id hsome),
      fun a ha => ?_⟩
    · rw [hcopies, hsome, Bool.true_or]
    · rcases List.mem_cons.mp ha with rfl | ha
      · exact ⟨hkeysKept _ hkey, hcopiesKept _ (by simp [hcopies])⟩
      · exact hentries a ha

theorem logicalCaptures_eq {v : Vault P R} (hv : v.Kept) {assets : List (Asset R)}
    (hassets : ∀ a ∈ assets, v.catalog.Reads a) :
    ∃ captures, v.logicalCaptures assets = some captures ∧ ∀ a ∈ assets,
      ∃ least, IsLeast {x | v.catalog.OneCapture a.id x} least ∧
        captures.keyOf a.id = some least.hyphenated ∧
        captures.copies least.hyphenated = some (v.catalog.capture a.id) := by
  have hfuel : v.catalog.assets.rows.length <
      ([] : List (Asset R)).length + (v.catalog.assets.rows.length + 1) := by simp
  obtain ⟨walk, hrounds, hwalked, -, hnodes⟩ := (Walked.start hassets).rounds hv hfuel
  have hstart : Answers walk (⟨fun _ => none, fun _ => none⟩ : Captures R) :=
    ⟨fun _ _ h => (by cases h), fun _ _ h => by cases h⟩
  obtain ⟨hanswers, -, -, hentries⟩ := hstart.entries assets
  refine ⟨_, by rw [logicalCaptures, hrounds]; rfl, fun a ha => ?_⟩
  obtain ⟨hkey, hcopies⟩ := hentries a ha
  refine ⟨_, hwalked.isLeast_root (hnodes a ha), ?_, ?_⟩
  · obtain ⟨key, hkey⟩ := Option.isSome_iff_exists.mp hkey
    rw [hkey, hanswers.keys _ _ hkey]
  · obtain ⟨group, hgroup⟩ := Option.isSome_iff_exists.mp hcopies
    rw [hgroup, hanswers.copies _ _ hgroup, hwalked.component_eq (hnodes a ha)]

theorem Kept.alone {v : Vault P R} (hv : v.Kept) {a : Asset R} (ha : v.catalog.Reads a)
    (hclosed : a.availability = .retired ∨ a.availability = .trashed) {x : Uuid}
    (hone : v.catalog.OneCapture a.id x) : x = a.id := by
  have hnone : ∀ y, ¬v.catalog.Joins a.id y := by
    rintro y ⟨row, hrow, -, -, hid, -, hjoin, -, -⟩
    have hsame : v.catalog.fromRow row = a :=
      Catalog.Reads.eq_of_id ⟨row, hrow, rfl⟩ ha (by rw [Catalog.fromRow_id, hid])
    exact hv.read_of_joinable hrow hjoin (hsame ▸ hclosed)
  have hboth : ∀ {x y}, v.catalog.OneCapture x y → (x = a.id ↔ y = a.id) := by
    intro x y hxy
    induction hxy with
    | rel x y hjoins =>
      refine ⟨fun hx => absurd (hx ▸ hjoins) (hnone y), fun hy => ?_⟩
      exact absurd (hy ▸ hjoins.symm) (hnone x)
    | refl x => exact Iff.rfl
    | symm x y _ ih => exact ih.symm
    | trans x y z _ _ ih ih' => exact ih.trans ih'
  exact (hboth hone).mp rfl

/-- A read request's captures are the classes of its assets under the joins: the key of each asset
is the smallest id of its class and its copies are the class, whatever else is asked for. -/
theorem logicalCaptures_laws {v : Vault P R} (hv : v.Kept) {assets : List (Asset R)}
    (hassets : ∀ a ∈ assets, v.catalog.Reads a) :
    ∃ captures, v.logicalCaptures assets = some captures ∧
      (∀ a ∈ assets, ∃ least copies, IsLeast {x | v.catalog.OneCapture a.id x} least ∧
        captures.keyOf a.id = some least.hyphenated ∧
        captures.copies least.hyphenated = some copies ∧
        ∀ b, b ∈ copies ↔ v.catalog.Reads b ∧ v.catalog.OneCapture a.id b.id) ∧
      (∀ a ∈ assets, ∀ b ∈ assets,
        captures.keyOf a.id = captures.keyOf b.id ↔ v.catalog.OneCapture a.id b.id) ∧
      (∀ a ∈ assets, a.availability = .retired ∨ a.availability = .trashed →
        ∀ x, v.catalog.OneCapture a.id x → x = a.id) ∧
      ∀ other : List (Asset R), (∀ a ∈ other, v.catalog.Reads a) →
        ∃ captures', v.logicalCaptures other = some captures' ∧ ∀ a ∈ assets, a ∈ other →
          captures'.keyOf a.id = captures.keyOf a.id ∧
          (captures'.keyOf a.id).bind captures'.copies = (captures.keyOf a.id).bind captures.copies := by
  obtain ⟨captures, hcaptures, hentries⟩ := logicalCaptures_eq hv hassets
  refine ⟨captures, hcaptures, fun a ha => ?_, fun a ha b hb => ?_, fun a ha hclosed x hone => ?_,
    fun other hother => ?_⟩
  · obtain ⟨least, hleast, hkey, hcopies⟩ := hentries a ha
    exact ⟨least, _, hleast, hkey, hcopies, fun b => Catalog.mem_capture⟩
  · obtain ⟨least, hleast, hkey, -⟩ := hentries a ha
    obtain ⟨least', hleast', hkey', -⟩ := hentries b hb
    rw [hkey, hkey']
    have hequiv := v.catalog.oneCapture_equivalence
    constructor
    · intro heq
      have hsame := Uuid.hyphenated_injective (Option.some.inj heq)
      subst hsame
      exact hequiv.trans hleast.1 (hequiv.symm hleast'.1)
    · intro hone
      have hset : {x | v.catalog.OneCapture a.id x} = {x | v.catalog.OneCapture b.id x} := by
        ext x
        exact ⟨hequiv.trans (hequiv.symm hone), hequiv.trans hone⟩
      rw [hset] at hleast
      rw [hleast.unique hleast']
  · exact hv.alone (hassets a ha) hclosed hone
  · obtain ⟨captures', hcaptures', hentries'⟩ := logicalCaptures_eq hv hother
    refine ⟨captures', hcaptures', fun a ha ha' => ?_⟩
    obtain ⟨least, hleast, hkey, hcopies⟩ := hentries a ha
    obtain ⟨least', hleast', hkey', hcopies'⟩ := hentries' a ha'
    have hsame := hleast.unique hleast'
    subst hsame
    rw [hkey, hkey', Option.bind_some, Option.bind_some, hcopies, hcopies']
    exact ⟨rfl, rfl⟩

end Vault

/-! ## One frame on a card and its copy on a disk -/

def driveNamed (id : Uuid) (volume : String) : Location where
  id := id
  name := volume.toList
  path := ⟨true, []⟩
  identity := ⟨volumeNamed volume, some "root"⟩
  availability := .available
  lifecycle := .active
  decisionRevision := 1
  rehashStartedAt := none

def copyOf (id location : Uuid) (volume : String) : Asset plainReader where
  id := id
  locationId := location
  relativePath := ["a.fits".toList]
  fingerprint := { frameOn volume with contentSha256 := some frameSha }
  format := .fits
  availability := .available
  observed := ()
  effective := ()
  observationRevision := 1
  decisionRevision := 0
  quality := .unreviewed
  qualityBasis := none
  verificationPending := false
  lastObservedAt := 0
  lastVerifiedAt := some 0
  lastOperationId := none

def twoCopies : Vault wholePlatform plainReader where
  catalog :=
    { (Catalog.empty : Catalog plainReader) with
      locations := ⟨[driveNamed 1 "card", driveNamed 2 "disk"], by decide⟩
      assets := ⟨⟨[copyOf 3 1 "card", copyOf 4 2 "disk"], by decide⟩, by decide⟩ }
  sessions := { Sessions.empty with sessionOf := fun _ => some 5 }

theorem twoCopies_kept : twoCopies.Kept where
  grouped := fun _ _ => rfl
  stored := by
    intro a ha
    simp only [twoCopies, List.mem_cons, List.not_mem_nil, or_false] at ha
    rcases ha with rfl | rfl <;> decide
  locations := by
    intro location hlocation
    simp only [twoCopies, List.mem_cons, List.not_mem_nil, or_false] at hlocation
    rcases hlocation with rfl | rfl <;> decide

theorem logicalCaptures_laws_twoCopies : ∃ captures,
    twoCopies.logicalCaptures [copyOf 3 1 "card"] = some captures ∧
      ∃ least copies, IsLeast {x | twoCopies.catalog.OneCapture 3 x} least ∧
        captures.keyOf 3 = some least.hyphenated ∧
        captures.copies least.hyphenated = some copies ∧
        ∀ b, b ∈ copies ↔ twoCopies.catalog.Reads b ∧ twoCopies.catalog.OneCapture 3 b.id := by
  have hreads : ∀ a ∈ [copyOf 3 1 "card"], twoCopies.catalog.Reads a := by
    intro a ha
    rw [List.mem_singleton.mp ha]
    exact ⟨copyOf 3 1 "card", List.mem_cons_self, rfl⟩
  obtain ⟨captures, heq, hkeys, -⟩ := Vault.logicalCaptures_laws twoCopies_kept hreads
  exact ⟨captures, heq, hkeys _ List.mem_cons_self⟩

end PlateVault.Library
