import PlateVault.Grouping.Merged
import PlateVault.Import.Review

/-!
# Merging in review

A merge in import review puts one session in the place of those chosen, with all of their lights.
Every other session keeps its lights and its anchor, and a re-split of the merged session takes the
merge back.
-/

namespace PlateVault.Import

variable {P : Platform} {S : Sky P}

/-- Items as an import records them: each seq once, and a `u32`. -/
structure Numbered (items : List (ReviewItem P)) : Prop where
  once : (items.map fun record => record.item.seq).Nodup
  small : ∀ record ∈ items, record.item.seq < 2 ^ 32

theorem frameId_inj {seq seq' : Nat} (h : seq < 2 ^ 32) (h' : seq' < 2 ^ 32)
    (heq : frameId seq = frameId seq') : seq = seq' := by
  have hval := congrArg Fin.val heq
  simp only [frameId, Fin.ofNat, Fin.val_mk] at hval
  rwa [Nat.mod_eq_of_lt (by omega), Nat.mod_eq_of_lt (by omega)] at hval

/-! ## The lights -/

section

variable {items : List (ReviewItem P)} {isIncluded : ReviewItem P → Bool}

theorem light_seq {record : ReviewItem P} {found : Light P}
    (h : light isIncluded record = some found) : found.seq = record.item.seq := by
  unfold light at h
  split at h
  · obtain ⟨metadata, -, rfl⟩ := Option.map_eq_some_iff.mp h
    rfl
  · cases h

theorem lights_seqs : ((lights items isIncluded).map Light.seq).Sublist
    (items.map fun record => record.item.seq) := by
  induction items with
  | nil => exact .slnil
  | cons record items ih =>
    unfold lights at ih ⊢
    cases hlight : light isIncluded record with
    | none =>
      rw [List.filterMap_cons_none hlight]
      exact ih.cons _
    | some found =>
      rw [List.filterMap_cons_some hlight, List.map_cons, List.map_cons, light_seq hlight]
      exact ih.cons_cons _

theorem light_small (h : Numbered items) {found : Light P} (hfound : found ∈ lights items isIncluded) :
    found.seq < 2 ^ 32 := by
  obtain ⟨record, hrecord, hlight⟩ := List.mem_filterMap.mp hfound
  exact light_seq hlight ▸ h.small record hrecord

theorem lights_ids (h : Numbered items) :
    ((lights items isIncluded).map fun light => frameId light.seq).Nodup := by
  refine List.Nodup.map_on (fun left hleft right hright heq => ?_) ?_
  · have hseq := frameId_inj (light_small h hleft) (light_small h hright) heq
    exact List.inj_on_of_nodup_map (h.once.sublist lights_seqs) hleft hright hseq
  · exact (h.once.sublist lights_seqs).of_map _

theorem frames_ids (h : Numbered items) :
    (((lights items isIncluded).map Light.frame).map Frame.id).Nodup := by
  simpa [Function.comp_def, Light.frame] using lights_ids h

theorem byId_of_mem (h : Numbered items) {found : Light P}
    (hfound : found ∈ lights items isIncluded) :
    byId (lights items isIncluded) (frameId found.seq) = some found := by
  cases hfind : byId (lights items isIncluded) (frameId found.seq) with
  | none =>
    have hnot := List.find?_eq_none.mp hfind found hfound
    simp at hnot
  | some other =>
    have hid : frameId other.seq = frameId found.seq := by simpa using List.find?_some hfind
    have hmem : other ∈ lights items isIncluded := List.mem_of_find?_eq_some hfind
    rw [List.inj_on_of_nodup_map (lights_ids h) hmem hfound hid]

theorem byId_eq_some {lights : List (Light P)} {id : Uuid} {found : Light P}
    (h : byId lights id = some found) : found ∈ lights ∧ frameId found.seq = id :=
  ⟨List.mem_of_find?_eq_some h, by simpa using List.find?_some h⟩

end

/-! ## The sessions they form -/

def Formed.unnumbered (formed : Formed P) : Formed P :=
  { formed with
    session := { formed.session with framing := formed.session.framing.map fun _ => 0 } }

/-- A session without its number, of its candidate's outline. -/
def formedOf (lights : List (Light P)) (outline : SessionOutline) : Option (Formed P) :=
  let members := outline.assetIds.filterMap (byId lights)
  ((outline.anchor.bind (byId lights)).or members.head?).map fun lead => {
    session := {
      key := outline.key
      items := members.map Light.seq
      framing := outline.anchor.map fun _ => 0
      merged := members.any fun light => light.metadata.framingLabel.isSome
      lead := lead.seq }
    frames := members.map Light.metadata
    choice := members.findSome? Light.choice }

theorem formed_unnumbered (lights : List (Light P)) (candidate : SessionCandidate P) :
    (formed lights candidate).map Formed.unnumbered = formedOf lights candidate.outline := by
  unfold formed formedOf SessionCandidate.outline Formed.unnumbered
  cases candidate.framing <;> simp [Function.comp_def]

section

variable {items : List (ReviewItem P)} {margins : FramingMargins P}

def candidates (S : Sky P) (items : List (ReviewItem P)) (margins : FramingMargins P) :
    List (SessionCandidate P) :=
  groupFrames S ((lights items importedLight).map Light.frame) [] margins

theorem sessions_eq : sessions S items margins importedLight =
    (candidates S items margins).filterMap (formed (lights items importedLight)) := rfl

theorem exists_light (h : Numbered items) {candidate : SessionCandidate P}
    (hcandidate : candidate ∈ candidates S items margins) {id : Uuid}
    (hid : id ∈ candidate.assetIds) :
    ∃ found ∈ lights items importedLight, frameId found.seq = id := by
  obtain ⟨key, -, houtline⟩ := exists_outline.mp ⟨candidate, hcandidate, rfl⟩
  obtain ⟨frame, hframe, -, rfl⟩ := houtline.frame (frames_ids h) hid
  obtain ⟨found, hfound, rfl⟩ := List.mem_map.mp hframe
  exact ⟨found, hfound, rfl⟩

theorem exists_formed (h : Numbered items) {candidate : SessionCandidate P}
    (hcandidate : candidate ∈ candidates S items margins) :
    ∃ made, formed (lights items importedLight) candidate = some made ∧
      made.session.key = candidate.key ∧ made.session.items.map frameId = candidate.assetIds := by
  have hmembers : ∀ ids : List Uuid, (∀ id ∈ ids, id ∈ candidate.assetIds) →
      (ids.filterMap (byId (lights items importedLight))).map (fun light => frameId light.seq) =
        ids := by
    intro ids hids
    induction ids with
    | nil => rfl
    | cons id ids ih =>
      obtain ⟨found, hfound, hseq⟩ := exists_light h hcandidate (hids id List.mem_cons_self)
      have hbyId := byId_of_mem h hfound
      rw [hseq] at hbyId
      rw [List.filterMap_cons_some hbyId, List.map_cons, hseq,
        ih fun other hother => hids other (List.mem_cons_of_mem _ hother)]
  have hall := hmembers candidate.assetIds fun _ h => h
  obtain ⟨id, hid, -⟩ := (grounded_nil (S := S) (frames_ids h) margins).nonempty hcandidate
  have hhead : (candidate.assetIds.filterMap (byId (lights items importedLight))).head? ≠ none := by
    rw [ne_eq, List.head?_eq_none_iff]
    intro hnil
    rw [hnil, List.map_nil] at hall
    rw [← hall] at hid
    cases hid
  obtain ⟨first, hfirst⟩ := Option.ne_none_iff_exists'.mp hhead
  obtain ⟨lead, hlead⟩ : ∃ lead, (candidate.framing.bind fun framing =>
      byId (lights items importedLight) framing.anchorAssetId).or
        (candidate.assetIds.filterMap (byId (lights items importedLight))).head? = some lead := by
    cases (candidate.framing.bind fun framing =>
        byId (lights items importedLight) framing.anchorAssetId) with
    | some lead => exact ⟨lead, rfl⟩
    | none => exact ⟨first, hfirst⟩
  refine ⟨_, by simp only [formed, hlead, Option.map_some]; rfl, rfl, ?_⟩
  simpa [Function.comp_def] using hall

theorem mem_sessions_iff (h : Numbered items) {made : Formed P} :
    made ∈ sessions S items margins importedLight ↔ ∃ candidate ∈ candidates S items margins,
      formed (lights items importedLight) candidate = some made ∧
        made.session.key = candidate.key ∧ made.session.items.map frameId = candidate.assetIds := by
  rw [sessions_eq, List.mem_filterMap]
  constructor
  · rintro ⟨candidate, hcandidate, hmade⟩
    obtain ⟨other, hother, hkey, hitems⟩ := exists_formed h hcandidate
    obtain rfl : other = made := Option.some.inj (hother.symm.trans hmade)
    exact ⟨candidate, hcandidate, hmade, hkey, hitems⟩
  · rintro ⟨candidate, hcandidate, hmade, -⟩
    exact ⟨candidate, hcandidate, hmade⟩

theorem session_eq_of_mem (h : Numbered items) {made other : Formed P}
    (hmade : made ∈ sessions S items margins importedLight)
    (hother : other ∈ sessions S items margins importedLight) {seq : Nat}
    (hseq : seq ∈ made.session.items) (hshared : seq ∈ other.session.items) : made = other := by
  obtain ⟨candidate, hcandidate, hformed, -, hitems⟩ := (mem_sessions_iff h).mp hmade
  obtain ⟨candidate', hcandidate', hformed', -, hitems'⟩ := (mem_sessions_iff h).mp hother
  obtain rfl := (grounded_nil (S := S) (frames_ids h) margins).eq_of_mem hcandidate hcandidate'
    (hitems ▸ List.mem_map_of_mem hseq) (hitems' ▸ List.mem_map_of_mem hshared)
  exact Option.some.inj (hformed.symm.trans hformed')

theorem item_small (h : Numbered items) {made : Formed P}
    (hmade : made ∈ sessions S items margins importedLight) {seq : Nat}
    (hseq : seq ∈ made.session.items) : seq < 2 ^ 32 := by
  obtain ⟨candidate, -, hformed, -, -⟩ := (mem_sessions_iff h).mp hmade
  obtain ⟨lead, -, rfl⟩ := Option.map_eq_some_iff.mp hformed
  obtain ⟨found, hfound, rfl⟩ := List.mem_map.mp hseq
  obtain ⟨id, -, hbyId⟩ := List.mem_filterMap.mp hfound
  exact light_small h (byId_eq_some hbyId).1

end

/-! ## The chosen sessions -/

theorem chosenFrom_eq_ok {formedSessions : List (Formed P)} {seqs : List Nat}
    {known picked : List ImportSession} (h : chosenFrom formedSessions known seqs = .ok picked)
    (hknown : known.Nodup) : picked.Nodup ∧ ∀ session ∈ picked, session ∈ known ∨
      ∃ made ∈ formedSessions, made.session = session ∧ ∃ seq ∈ seqs, seq ∈ session.items := by
  induction seqs generalizing known with
  | nil =>
    cases h
    exact ⟨hknown, fun session hsession => .inl hsession⟩
  | cons seq seqs ih =>
    simp only [chosenFrom, Result.bind_eq_ok, Result.orElse_eq_ok] at h
    obtain ⟨found, hfound, h⟩ := h
    have hmem := List.mem_of_find?_eq_some hfound
    have hseq : seq ∈ found.session.items := by simpa using List.find?_some hfound
    by_cases hold : known.contains found.session = true
    · rw [if_pos hold] at h
      obtain ⟨hnodup, hall⟩ := ih h hknown
      refine ⟨hnodup, fun session hsession => (hall session hsession).imp_right ?_⟩
      rintro ⟨made, hmade, heq, other, hother, hitem⟩
      exact ⟨made, hmade, heq, other, List.mem_cons_of_mem _ hother, hitem⟩
    · rw [if_neg hold] at h
      have hnew : found.session ∉ known := by simpa using hold
      obtain ⟨hnodup, hall⟩ := ih h (List.nodup_append.mpr ⟨hknown, List.nodup_singleton _, by
        rintro a ha b hb rfl
        exact hnew (List.mem_singleton.mp hb ▸ ha)⟩)
      refine ⟨hnodup, fun session hsession => ?_⟩
      rcases hall session hsession with hmem' | ⟨made, hmade, heq, other, hother, hitem⟩
      · rcases List.mem_append.mp hmem' with hmem' | hmem'
        · exact .inl hmem'
        · obtain rfl := List.mem_singleton.mp hmem'
          exact .inr ⟨found, hmem, rfl, seq, List.mem_cons_self, hseq⟩
      · exact .inr ⟨made, hmade, heq, other, List.mem_cons_of_mem _ hother, hitem⟩

theorem chosen_eq_ok {formedSessions : List (Formed P)} {seqs : List Nat}
    {picked : List ImportSession} (h : chosen formedSessions seqs = .ok picked) :
    picked.Nodup ∧ ∀ session ∈ picked, ∃ made ∈ formedSessions, made.session = session ∧
      session.items ≠ [] := by
  obtain ⟨hnodup, hall⟩ := chosenFrom_eq_ok h List.nodup_nil
  refine ⟨hnodup, fun session hsession => ?_⟩
  obtain ⟨made, hmade, heq, seq, -, hseq⟩ := (hall session hsession).resolve_left List.not_mem_nil
  exact ⟨made, hmade, heq, List.ne_nil_of_mem hseq⟩

/-! ## The label -/

def labelled (members : List Nat) (id : Uuid) : Bool := (members.map frameId).contains id

theorem labelled_iff {members : List Nat} {id : Uuid} :
    labelled members id = true ↔ ∃ seq ∈ members, frameId seq = id := by
  simp [labelled]

def relabelLight (members : List Nat) (label : Text) (light : Light P) : Light P :=
  if labelled members (frameId light.seq) then
    { light with metadata := { light.metadata with framingLabel := some label } }
  else light

section

variable {items : List (ReviewItem P)} {members : List Nat} {label : Text}

@[simp] theorem relabelLight_seq {light : Light P} :
    (relabelLight members label light).seq = light.seq := by
  unfold relabelLight
  split <;> rfl

theorem relabelLight_of_not {light : Light P} (h : labelled members (frameId light.seq) = false) :
    relabelLight members label light = light := if_neg (by simp [h])

theorem frame_relabelLight {light : Light P} :
    (relabelLight members label light).frame = relabel (labelled members) label light.frame := by
  unfold relabelLight relabel Light.frame
  split <;> rfl

theorem labelled_seq (hsmall : ∀ seq ∈ members, seq < 2 ^ 32) {seq : Nat} (hseq : seq < 2 ^ 32) :
    labelled members (frameId seq) = members.contains seq := by
  rw [Bool.eq_iff_iff, labelled_iff, List.contains_iff_mem]
  constructor
  · rintro ⟨other, hother, heq⟩
    exact frameId_inj (hsmall other hother) hseq heq ▸ hother
  · exact fun hmem => ⟨seq, hmem, rfl⟩

theorem lights_labelItems (h : Numbered items) (hsmall : ∀ seq ∈ members, seq < 2 ^ 32) :
    lights (labelItems items members (some label)) importedLight =
      (lights items importedLight).map (relabelLight members label) := by
  rw [lights, lights, labelItems, List.filterMap_map, List.map_filterMap]
  refine List.filterMap_congr fun record hrecord => ?_
  have hlabelled := labelled_seq hsmall (h.small record hrecord)
  simp only [Function.comp_apply, light]
  cases hmember : members.contains record.item.seq with
  | false =>
    rw [hmember] at hlabelled
    simp only [Bool.false_eq_true, if_false]
    split
    · cases record.metadata with
      | none => rfl
      | some metadata => simp [relabelLight, hlabelled]
    · rfl
  | true =>
    rw [hmember] at hlabelled
    simp only [if_true]
    have hincluded : importedLight { record with framingLabel := some label } =
      importedLight record := rfl
    rw [hincluded]
    split
    · cases record.metadata with
      | none => rfl
      | some metadata => simp [relabelLight, hlabelled]
    · rfl

theorem numbered_labelItems {label : Option Text} (h : Numbered items) :
    Numbered (labelItems items members label) := by
  have hseqs : (labelItems items members label).map (fun record => record.item.seq) =
      items.map fun record => record.item.seq := by
    rw [labelItems, List.map_map]
    refine List.map_congr_left fun record _ => ?_
    simp only [Function.comp_apply]
    split <;> rfl
  refine ⟨hseqs ▸ h.once, fun record hrecord => ?_⟩
  have hmem : record.item.seq ∈ items.map fun record => record.item.seq :=
    hseqs ▸ List.mem_map_of_mem hrecord
  obtain ⟨other, hother, heq⟩ := List.mem_map.mp hmem
  exact heq ▸ h.small other hother

end

/-! ## The merge -/

theorem merge_eq_ok {items items' : List (ReviewItem P)} {seqs : List Nat}
    {margins : FramingMargins P} {label : Text} (h : merge S items seqs margins label = .ok items') :
    ∃ picked first second, chosen (sessions S items margins importedLight) seqs = .ok picked ∧
      first ∈ picked ∧ second ∈ picked ∧ first ≠ second ∧
      (∀ session ∈ picked, session.key = first.key) ∧
      items' = labelItems items (membersOf picked) (some label) := by
  simp only [merge, Result.bind_eq_ok] at h
  obtain ⟨picked, hpicked, h⟩ := h
  cases picked with
  | nil => cases h
  | cons first rest =>
    simp only [Result.bind_eq_ok, Result.require_eq_ok, Result.pure_eq_ok, Bool.not_eq_true',
      List.isEmpty_eq_false_iff, List.all_eq_true, decide_eq_true_eq] at h
    obtain ⟨-, hrest, -, hkeys, rfl⟩ := h
    obtain ⟨second, hsecond⟩ := List.exists_mem_of_ne_nil _ hrest
    obtain ⟨hnodup, -⟩ := chosen_eq_ok hpicked
    have hne : first ≠ second := fun heq =>
      (List.nodup_cons.mp hnodup).1 (heq ▸ hsecond)
    refine ⟨first :: rest, first, second, hpicked, List.mem_cons_self,
      List.mem_cons_of_mem _ hsecond, hne, fun session hsession => ?_, rfl⟩
    rcases List.mem_cons.mp hsession with rfl | hsession
    · rfl
    · exact hkeys session hsession

section

variable {items : List (ReviewItem P)} {margins : FramingMargins P} {seqs : List Nat}
  {picked : List ImportSession}

theorem labelled_candidate (h : Numbered items)
    (hpicked : chosen (sessions S items margins importedLight) seqs = .ok picked)
    {candidate : SessionCandidate P} (hcandidate : candidate ∈ candidates S items margins)
    {made : Formed P} (hmade : formed (lights items importedLight) candidate = some made)
    {id : Uuid} (hid : id ∈ candidate.assetIds) (hlabelled : labelled (membersOf picked) id = true) :
    made.session ∈ picked := by
  obtain ⟨seq, hseq, rfl⟩ := labelled_iff.mp hlabelled
  obtain ⟨session, hsession, hitem⟩ := List.mem_flatMap.mp hseq
  obtain ⟨other, hother, rfl, -⟩ := (chosen_eq_ok hpicked).2 session hsession
  have hmem : made ∈ sessions S items margins importedLight := by
    rw [sessions_eq]
    exact List.mem_filterMap.mpr ⟨candidate, hcandidate, hmade⟩
  obtain ⟨candidate', hcandidate', hmade', -, hitems⟩ := (mem_sessions_iff h).mp hother
  obtain rfl := (grounded_nil (S := S) (frames_ids h) margins).eq_of_mem hcandidate hcandidate' hid
    (hitems ▸ List.mem_map_of_mem hitem)
  obtain rfl : made = other := Option.some.inj (hmade.symm.trans hmade')
  exact hsession

theorem outline_chosen_iff (h : Numbered items)
    (hpicked : chosen (sessions S items margins importedLight) seqs = .ok picked)
    {candidate : SessionCandidate P} (hcandidate : candidate ∈ candidates S items margins)
    {made : Formed P} (hmade : formed (lights items importedLight) candidate = some made) :
    candidate.outline.Chosen (labelled (membersOf picked)) ↔ made.session ∈ picked := by
  constructor
  · rintro ⟨id, hid, hlabelled⟩
    exact labelled_candidate h hpicked hcandidate hmade hid hlabelled
  · intro hsession
    obtain ⟨_, -, -, hne⟩ := (chosen_eq_ok hpicked).2 made.session hsession
    obtain ⟨seq, hseq⟩ := List.exists_mem_of_ne_nil _ hne
    obtain ⟨made', hmade', -, hitems⟩ := exists_formed h hcandidate
    obtain rfl : made' = made := Option.some.inj (hmade'.symm.trans hmade)
    have hid : frameId seq ∈ candidate.assetIds := hitems ▸ List.mem_map_of_mem hseq
    exact ⟨frameId seq, hid, labelled_iff.mpr ⟨seq, List.mem_flatMap.mpr ⟨_, hsession, hseq⟩, rfl⟩⟩

theorem mergeable (h : Numbered items)
    (hpicked : chosen (sessions S items margins importedLight) seqs = .ok picked)
    {first second : ImportSession} (hfirst : first ∈ picked) (hsecond : second ∈ picked)
    (hne : first ≠ second) (hkeys : ∀ session ∈ picked, session.key = first.key) :
    Mergeable S (labelled (membersOf picked)) ((lights items importedLight).map Light.frame) margins
      first.key := by
  have hfound : ∀ session ∈ picked, ∃ candidate ∈ candidates S items margins, ∃ made,
      formed (lights items importedLight) candidate = some made ∧ made.session = session ∧
        session.key = candidate.key ∧ session.items.map frameId = candidate.assetIds := by
    intro session hsession
    obtain ⟨made, hmade, rfl, -⟩ := (chosen_eq_ok hpicked).2 session hsession
    obtain ⟨candidate, hcandidate, hformed, hkey, hitems⟩ := (mem_sessions_iff h).mp hmade
    exact ⟨candidate, hcandidate, made, hformed, rfl, hkey, hitems⟩
  refine ⟨frames_ids h, fun candidate hcandidate hchosen id hid => ?_, fun frame hframe hchosen => ?_,
    ?_, ?_⟩
  · obtain ⟨made, hmade, -, hitems⟩ := exists_formed h hcandidate
    have hsession := (outline_chosen_iff h hpicked hcandidate hmade).mp hchosen
    obtain ⟨seq, hseq, rfl⟩ := List.mem_map.mp (hitems ▸ hid)
    exact labelled_iff.mpr ⟨seq, List.mem_flatMap.mpr ⟨_, hsession, hseq⟩, rfl⟩
  · obtain ⟨seq, hseq, heq⟩ := labelled_iff.mp hchosen
    obtain ⟨session, hsession, hitem⟩ := List.mem_flatMap.mp hseq
    obtain ⟨candidate, hcandidate, _, -, -, hkey, hitems⟩ := hfound session hsession
    rw [← hkeys session hsession, hkey]
    refine key_of_mem_session (frames_ids h) (by simp) hcandidate hframe ?_
    exact heq ▸ hitems ▸ List.mem_map_of_mem hitem
  · -- a key of other frames has one session only
    obtain ⟨left, hleft, made, hmade, rfl, hkey, -⟩ := hfound first hfirst
    obtain ⟨right, hright, made', hmade', rfl, hkey', -⟩ := hfound second hsecond
    by_contra hlights
    refine hne ?_
    have hone : ∀ candidate ∈ candidates S items margins, candidate.key = made.session.key →
        candidate = PlateVault.candidate
          (bucketOf ((lights items importedLight).map Light.frame) made.session.key) {
            members :=
              (bucketOf ((lights items importedLight).map Light.frame) made.session.key).members
            framing := none, notes := [] } := by
      intro candidate hcandidate heq
      obtain ⟨key, -, hmem⟩ := mem_groupFrames.mp hcandidate
      obtain ⟨split, hsplit, rfl⟩ := mem_sessions.mp hmem
      obtain rfl : key = made.session.key := heq
      rw [Bucket.splits, if_neg hlights, List.mem_singleton] at hsplit
      rw [hsplit]
    have hsame := (hone left hleft hkey.symm).trans
      (hone right hright (hkey'.symm.trans (hkeys _ hsecond))).symm
    subst hsame
    exact congrArg Formed.session (Option.some.inj (hmade.symm.trans hmade'))
  · obtain ⟨_, -, -, hitems⟩ := (chosen_eq_ok hpicked).2 first hfirst
    obtain ⟨seq, hseq⟩ := List.exists_mem_of_ne_nil _ hitems
    obtain ⟨candidate, hcandidate, _, -, -, -, hassets⟩ := hfound first hfirst
    obtain ⟨found, hlight, hid⟩ :=
      exists_light h hcandidate (hassets ▸ List.mem_map_of_mem hseq)
    refine ⟨found.frame, List.mem_map_of_mem hlight, labelled_iff.mpr ⟨seq, ?_, hid.symm⟩⟩
    exact List.mem_flatMap.mpr ⟨first, hfirst, hseq⟩

end

/-! ## After the merge -/

section

variable {items : List (ReviewItem P)} {margins : FramingMargins P} {members : List Nat}
  {label : Text}

theorem byId_relabelLight {lights : List (Light P)} {id : Uuid} :
    byId (lights.map (relabelLight members label)) id =
      (byId lights id).map (relabelLight members label) := by
  simp [byId, List.find?_map]

theorem candidates_labelItems (h : Numbered items) (hsmall : ∀ seq ∈ members, seq < 2 ^ 32) :
    candidates S (labelItems items members (some label)) margins =
      groupFrames S (((lights items importedLight).map Light.frame).map
        (relabel (labelled members) label)) [] margins := by
  rw [candidates, lights_labelItems h hsmall]
  simp [Function.comp_def, frame_relabelLight]

theorem formedOf_relabelLight {lights : List (Light P)} {outline : SessionOutline}
    (hnot : ¬ outline.Chosen (labelled members)) :
    formedOf (lights.map (relabelLight members label)) outline = formedOf lights outline := by
  have hmembers : outline.assetIds.filterMap (byId (lights.map (relabelLight members label))) =
      outline.assetIds.filterMap (byId lights) := by
    refine List.filterMap_congr fun id hid => ?_
    rw [byId_relabelLight]
    cases hfound : byId lights id with
    | none => rfl
    | some found =>
      have hunlabelled : labelled members (frameId found.seq) = false := by
        rw [(byId_eq_some hfound).2]
        exact Bool.eq_false_iff.mpr fun hlabelled => hnot ⟨id, hid, hlabelled⟩
      rw [Option.map_some, relabelLight_of_not hunlabelled]
  have hanchor : outline.anchor.bind (byId (lights.map (relabelLight members label))) =
      (outline.anchor.bind (byId lights)).map (relabelLight members label) := by
    cases outline.anchor with
    | none => rfl
    | some anchor => exact byId_relabelLight
  simp only [formedOf, hmembers, hanchor]
  cases outline.anchor.bind (byId lights) <;> simp

theorem sessions_unnumbered :
    (sessions S items margins importedLight).map Formed.unnumbered =
      ((candidates S items margins).map SessionCandidate.outline).filterMap
        (formedOf (lights items importedLight)) := by
  rw [sessions_eq, List.map_filterMap, List.filterMap_map]
  exact List.filterMap_congr fun candidate _ => formed_unnumbered _ candidate

theorem sessions_unchosen (h : Numbered items) {seqs : List Nat} {picked : List ImportSession}
    (hpicked : chosen (sessions S items margins importedLight) seqs = .ok picked) :
    (((candidates S items margins).map SessionCandidate.outline).filter fun outline =>
        ¬ outline.Chosen (labelled (membersOf picked))).filterMap
          (formedOf (lights items importedLight)) =
      ((sessions S items margins importedLight).filter fun formed =>
        formed.session ∉ picked).map Formed.unnumbered := by
  rw [sessions_eq, List.filter_filterMap, List.map_filterMap, List.filter_map,
    List.filterMap_map, List.filterMap_filter]
  refine List.filterMap_congr fun candidate hcandidate => ?_
  obtain ⟨made, hmade, -⟩ := exists_formed h hcandidate
  have hiff := outline_chosen_iff h hpicked hcandidate hmade
  have hunnumbered := formed_unnumbered (lights items importedLight) candidate
  rw [hmade, Option.map_some] at hunnumbered
  rw [Function.comp_apply, hmade]
  by_cases hsession : made.session ∈ picked
  · have hchosen := hiff.mpr hsession
    simp only [hchosen, hsession, not_true_eq_false, decide_false, Bool.false_eq_true, if_false,
      Option.filter_some, Option.map_none]
  · have hchosen := hiff.not.mpr hsession
    simp only [hchosen, hsession, not_false_eq_true, decide_true, if_true, Option.filter_some,
      Option.map_some]
    exact hunnumbered.symm

theorem labelItems_labelItems (hnone : ∀ record ∈ items, record.item.seq ∈ members →
    record.framingLabel = none) {others : List Nat} (hsame : ∀ seq, seq ∈ others ↔ seq ∈ members) :
    labelItems (labelItems items members (some label)) others none = items := by
  rw [labelItems, labelItems, List.map_map]
  refine (List.map_congr_left fun record hrecord => ?_).trans (List.map_id _)
  by_cases hmember : record.item.seq ∈ members
  · have hlabel := hnone record hrecord hmember
    simp [hmember, (hsame _).mpr hmember, ← hlabel]
  · simp [hmember, (hsame _).not.mpr hmember]

end

section

variable {items items' : List (ReviewItem P)} {margins : FramingMargins P} {seqs : List Nat}
  {picked : List ImportSession} {label : Text}

theorem membersOf_small (h : Numbered items)
    (hpicked : chosen (sessions S items margins importedLight) seqs = .ok picked) :
    ∀ seq ∈ membersOf picked, seq < 2 ^ 32 := by
  intro seq hseq
  obtain ⟨session, hsession, hitem⟩ := List.mem_flatMap.mp hseq
  obtain ⟨made, hmade, rfl, -⟩ := (chosen_eq_ok hpicked).2 session hsession
  exact item_small h hmade hitem

theorem lights_unlabelled
    (hnew : ∀ record ∈ items, record.framingLabel.map trim ≠ some label) :
    ∀ frame ∈ (lights items importedLight).map Light.frame,
      framingLabel frame.metadata ≠ some label := by
  intro frame hframe hlabel
  obtain ⟨found, hfound, rfl⟩ := List.mem_map.mp hframe
  obtain ⟨record, hrecord, hlight⟩ := List.mem_filterMap.mp hfound
  unfold light at hlight
  split at hlight
  · obtain ⟨metadata, -, rfl⟩ := Option.map_eq_some_iff.mp hlight
    exact hnew record hrecord (Option.eq_some_of_filter_eq_some hlabel)
  · cases hlight

theorem exists_merged (h : Numbered items) (hread : ReadsAs label)
    (hnew : ∀ record ∈ items, record.framingLabel.map trim ≠ some label)
    (hpicked : chosen (sessions S items margins importedLight) seqs = .ok picked) {key : Text}
    (hmergeable : Mergeable S (labelled (membersOf picked))
      ((lights items importedLight).map Light.frame) margins key) :
    ∃ merged ∈ sessions S (labelItems items (membersOf picked) (some label)) margins importedLight,
      formedOf ((lights items importedLight).map (relabelLight (membersOf picked) label))
        (mergedOutline S (labelled (membersOf picked)) label margins key
          (captureOrder (bucketOf ((lights items importedLight).map Light.frame) key).members)) =
        some merged.unnumbered ∧
      ∀ seq, seq ∈ merged.session.items ↔ seq ∈ membersOf picked := by
  have hsmall := membersOf_small h hpicked
  have hnumbered : Numbered (labelItems items (membersOf picked) (some label)) :=
    numbered_labelItems h
  obtain ⟨candidate, hcandidate, houtline⟩ := (hmergeable.outlines hread
    (lights_unlabelled hnew) _).mpr (.inr rfl)
  rw [← candidates_labelItems h hsmall] at hcandidate
  obtain ⟨merged, hmerged, hkey, hitems⟩ := exists_formed hnumbered hcandidate
  have hmem := (mem_sessions_iff hnumbered).mpr ⟨candidate, hcandidate, hmerged, hkey, hitems⟩
  refine ⟨merged, hmem, ?_, fun seq => ?_⟩
  · rw [← houtline, ← formed_unnumbered, ← lights_labelItems h hsmall, hmerged, Option.map_some]
  · have hassets : ∀ id, id ∈ merged.session.items.map frameId ↔
        ∃ frame ∈ (lights items importedLight).map Light.frame,
          labelled (membersOf picked) frame.id = true ∧ frame.id = id := by
      intro id
      have hids : candidate.assetIds = (mergedOutline S (labelled (membersOf picked)) label margins key
          (captureOrder (bucketOf ((lights items importedLight).map Light.frame) key).members)).assetIds :=
        congrArg SessionOutline.assetIds houtline
      rw [hitems, hids]
      exact mem_mergedOutline hmergeable
    constructor
    · intro hseq
      obtain ⟨frame, -, hlabelled, hid⟩ := (hassets _).mp (List.mem_map_of_mem hseq)
      rw [hid, labelled_seq hsmall (item_small hnumbered hmem hseq)] at hlabelled
      exact List.contains_iff_mem.mp hlabelled
    · intro hseq
      obtain ⟨session, hsession, hitem⟩ := List.mem_flatMap.mp hseq
      obtain ⟨made, hmade, rfl, -⟩ := (chosen_eq_ok hpicked).2 session hsession
      obtain ⟨before, hbefore, -, -, hbeforeItems⟩ := (mem_sessions_iff h).mp hmade
      obtain ⟨found, hfound, hid⟩ :=
        exists_light h hbefore (hbeforeItems ▸ List.mem_map_of_mem hitem)
      have hlabelled : labelled (membersOf picked) found.frame.id = true :=
        labelled_iff.mpr ⟨seq, hseq, hid.symm⟩
      obtain ⟨other, hother, heq⟩ := List.mem_map.mp
        ((hassets (frameId seq)).mpr ⟨found.frame, List.mem_map_of_mem hfound, hlabelled, hid⟩)
      exact frameId_inj (item_small hnumbered hmem hother) (hsmall seq hseq) heq ▸ hother

theorem merged_of_mem (h : Numbered items) (hsmall : ∀ seq ∈ membersOf picked, seq < 2 ^ 32)
    {merged : Formed P} (hmerged : merged ∈
      sessions S (labelItems items (membersOf picked) (some label)) margins importedLight) {seq : Nat}
    (hseq : seq ∈ merged.session.items) (hlabelled : seq ∈ membersOf picked) :
    merged.session.merged = true := by
  rw [sessions_eq, lights_labelItems h hsmall] at hmerged
  obtain ⟨candidate, -, hformed⟩ := List.mem_filterMap.mp hmerged
  obtain ⟨lead, -, rfl⟩ := Option.map_eq_some_iff.mp hformed
  obtain ⟨found, hfound, rfl⟩ := List.mem_map.mp hseq
  refine List.any_eq_true.mpr ⟨found, hfound, ?_⟩
  obtain ⟨id, -, hbyId⟩ := List.mem_filterMap.mp hfound
  obtain ⟨before, -, rfl⟩ := List.mem_map.mp (byId_eq_some hbyId).1
  rw [relabelLight_seq] at hlabelled
  have hyes : labelled (membersOf picked) (frameId before.seq) = true :=
    labelled_iff.mpr ⟨_, hlabelled, rfl⟩
  simp [relabelLight, hyes]

theorem resplit_merged (h : Numbered items)
    (hpicked : chosen (sessions S items margins importedLight) seqs = .ok picked)
    {merged : Formed P} (hmerged : merged ∈
      sessions S (labelItems items (membersOf picked) (some label)) margins importedLight)
    (hitems : ∀ seq, seq ∈ merged.session.items ↔ seq ∈ membersOf picked)
    (hnone : ∀ record ∈ items, record.item.seq ∈ membersOf picked → record.framingLabel = none)
    {seq : Nat} (hseq : seq ∈ merged.session.items) :
    resplit S (labelItems items (membersOf picked) (some label)) seq margins = .ok items := by
  have hnumbered : Numbered (labelItems items (membersOf picked) (some label)) :=
    numbered_labelItems h
  have hfind : (sessions S (labelItems items (membersOf picked) (some label)) margins
      importedLight).find? (fun formed => formed.session.items.contains seq) = some merged := by
    cases hfind : (sessions S (labelItems items (membersOf picked) (some label)) margins
        importedLight).find? (fun formed => formed.session.items.contains seq) with
    | none =>
      have hnot := List.find?_eq_none.mp hfind merged hmerged
      exact absurd (List.contains_iff_mem.mpr hseq) hnot
    | some other =>
      have hshared : seq ∈ other.session.items := by simpa using List.find?_some hfind
      rw [session_eq_of_mem hnumbered (List.mem_of_find?_eq_some hfind) hmerged hshared hseq]
  have hmark := merged_of_mem h (membersOf_small h hpicked) hmerged hseq ((hitems seq).mp hseq)
  have hrestored : labelItems (labelItems items (membersOf picked) (some label)) merged.session.items
      none = items := labelItems_labelItems hnone hitems
  simp only [resplit, chosen, chosenFrom, hfind, Result.bind_eq_ok]
  refine ⟨[merged.session], ⟨merged, rfl, rfl⟩, (), ?_, ?_⟩
  · simp [hmark, Result.require]
  · simpa [membersOf] using hrestored

end

/-! ## A merge changes nothing else -/

/-- A merge puts one session with all their lights in the place of the chosen ones. Each other session
keeps its lights and its anchor, whatever its number becomes, and a re-split of the merged session
takes the merge back where none of its lights had a label. -/
theorem merge_changes_nothing_else {items items' : List (ReviewItem P)} {seqs : List Nat}
    {margins : FramingMargins P} {label : Text} (h : Numbered items) (hread : ReadsAs label)
    (hnew : ∀ record ∈ items, record.framingLabel.map trim ≠ some label)
    (hmerge : merge S items seqs margins label = .ok items') :
    ∃ picked, chosen (sessions S items margins importedLight) seqs = .ok picked ∧
      ∃ merged ∈ sessions S items' margins importedLight,
        ((sessions S items' margins importedLight).map Formed.unnumbered).Perm
          (((sessions S items margins importedLight).filter fun formed =>
            formed.session ∉ picked).map Formed.unnumbered ++ [merged.unnumbered]) ∧
        (∀ seq, seq ∈ merged.session.items ↔ seq ∈ membersOf picked) ∧
        ((∀ record ∈ items, record.item.seq ∈ membersOf picked → record.framingLabel = none) →
          ∀ seq ∈ merged.session.items, resplit S items' seq margins = .ok items) := by
  obtain ⟨picked, first, second, hpicked, hfirst, hsecond, hne, hkeys, rfl⟩ := merge_eq_ok hmerge
  have hsmall := membersOf_small h hpicked
  have hmergeable := mergeable h hpicked hfirst hsecond hne hkeys
  obtain ⟨merged, hmem, hmerged, hitems⟩ := exists_merged h hread hnew hpicked hmergeable
  refine ⟨picked, hpicked, merged, hmem, ?_, hitems, fun hnone seq hseq =>
    resplit_merged h hpicked hmem hitems hnone hseq⟩
  -- the outlines are permuted, and each makes the session it made
  have hperm := (hmergeable.perm_outlines hread (lights_unlabelled hnew)).filterMap
    (formedOf ((lights items importedLight).map (relabelLight (membersOf picked) label)))
  rw [sessions_unnumbered, candidates_labelItems h hsmall, lights_labelItems h hsmall,
    ← sessions_unchosen h hpicked]
  refine hperm.trans (.of_eq ?_)
  rw [List.filterMap_append, List.filterMap_cons_some hmerged, List.filterMap_nil]
  congr 1
  refine List.filterMap_congr fun outline houtline => formedOf_relabelLight ?_
  simpa using (List.mem_filter.mp houtline).2

/-! ## The label of a merge -/

theorem readsAs_mergeLabel (id : Uuid) : ReadsAs (mergeLabel id) := by
  have hplain : ∀ c ∈ id.hyphenated.toList, isWhiteSpace c = false := by
    intro c hc
    rcases Uuid.mem_hyphenated hc with rfl | ⟨digit, hdigit, rfl⟩
    · decide
    · have hall : ∀ digit < 16, isWhiteSpace (Nat.digitChar digit) = false := by decide
      exact hall digit hdigit
  have hdrop : ∀ text : Text, (∀ c ∈ text, isWhiteSpace c = false) →
      text.dropWhile isWhiteSpace = text := by
    intro text htext
    cases text with
    | nil => rfl
    | cons c rest => exact List.dropWhile_cons_of_neg (by simp [htext c List.mem_cons_self])
  refine ⟨?_, fun hnil => ?_⟩
  · rw [mergeLabel, trim, trimMatches, hdrop _ hplain,
      hdrop _ fun c hc => hplain c (List.mem_reverse.mp hc), List.reverse_reverse]
  · have hdash : '-' ∈ mergeLabel id := by simp [mergeLabel, Uuid.hyphenated]
    rw [hnil] at hdash
    exact absurd hdash List.not_mem_nil

/-! ## Two framings of one night -/

def reviewLight (seq : Nat) (ra rotation : Int) : ReviewItem wholePlatform where
  item := {
    seq, sourcePath := .host { absolute := true, parts := [.normal (decimal seq)] }
    relativePath := .host { absolute := false, parts := [.normal (decimal seq)] }
    sizeBytes := 0, sha256 := none, imageType := some "light".toList
    classification := some .light, userType := none, targetId := none, excluded := false
    role := some .captures, destinationLocationId := none, destinationPath := none, fallbacks := []
    rig := none, unknownFilter := none, phase := .ready, duplicate := none, block := none
    landed := false }
  observation := none
  evidence := none
  metadata := some (lightAt 0 ra rotation).effective
  framingLabel := none
  targetChoice := none

def twoFramings : List (ReviewItem wholePlatform) := [reviewLight 1 0 0, reviewLight 2 5 20]

set_option maxRecDepth 10000 in
theorem merge_changes_nothing_else_twoFramings :
    ∃ items', merge flatSky twoFramings [1, 2] wideMargins (mergeLabel 7) = .ok items' ∧
      ∃ picked, chosen (sessions flatSky twoFramings wideMargins importedLight) [1, 2] = .ok picked ∧
        ∃ merged ∈ sessions flatSky items' wideMargins importedLight,
          ((sessions flatSky items' wideMargins importedLight).map Formed.unnumbered).Perm
            (((sessions flatSky twoFramings wideMargins importedLight).filter fun formed =>
              formed.session ∉ picked).map Formed.unnumbered ++ [merged.unnumbered]) ∧
          (∀ seq, seq ∈ merged.session.items ↔ seq ∈ membersOf picked) ∧
          ∀ seq ∈ merged.session.items,
            resplit flatSky items' seq wideMargins = .ok twoFramings := by
  have hnumbered : Numbered twoFramings := ⟨by decide, by decide⟩
  have hmerged : (merge flatSky twoFramings [1, 2] wideMargins (mergeLabel 7)).toOption.isSome =
      true := by decide
  obtain ⟨items', hitems'⟩ := Option.isSome_iff_exists.mp hmerged
  have hmerge := Result.toOption_eq_some.mp hitems'
  obtain ⟨picked, hpicked, merged, hmem, hperm, hsame, hresplit⟩ :=
    merge_changes_nothing_else hnumbered (readsAs_mergeLabel 7) (by decide) hmerge
  have hnone : ∀ record ∈ twoFramings, record.framingLabel = none := by decide
  exact ⟨items', hmerge, picked, hpicked, merged, hmem, hperm, hsame,
    hresplit fun record hrecord _ => hnone record hrecord⟩

end PlateVault.Import
