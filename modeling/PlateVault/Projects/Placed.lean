import PlateVault.Projects.FreeNames

/-!
# Sessions in their groups

`Placements` says where sessions go, one after the other: into a framing group of their rig and
optics, the nearest within the margins, or into a group of their own that later sessions see.
-/

namespace PlateVault.Projects

open View (Host token nameKey componentLimit componentLen)

/-! ## The nearest of a list -/

section Nearest

variable {P : Platform}

/-- The first of the groups that lie nearest, and how far. -/
def NearestOf (offset : Candidate P → Option P.F64) (groups : List (Candidate P)) (found : P.F64)
    (group : Candidate P) : Prop :=
  ∃ before after, groups = before ++ group :: after ∧ offset group = some found ∧
    (∀ other ∈ before, ∀ d, offset other = some d → found < d) ∧
    ∀ other ∈ after, ∀ d, offset other = some d → found ≤ d

def Best (offset : Candidate P → Option P.F64) (groups : List (Candidate P)) :
    Option (P.F64 × Candidate P) → Prop
  | none => ∀ group ∈ groups, offset group = none
  | some (found, group) => NearestOf offset groups found group

variable {offset : Candidate P → Option P.F64} {groups : List (Candidate P)}

theorem NearestOf.snoc {found : P.F64} {group last : Candidate P}
    (h : NearestOf offset groups found group) (hlast : ∀ d, offset last = some d → found ≤ d) :
    NearestOf offset (groups ++ [last]) found group := by
  obtain ⟨before, after, hgroups, hoffset, hbefore, hafter⟩ := h
  refine ⟨before, after ++ [last], by rw [hgroups]; simp, hoffset, hbefore, ?_⟩
  intro other hother d hd
  rcases List.mem_append.mp hother with hother | hother
  · exact hafter other hother d hd
  · exact hlast d (List.mem_singleton.mp hother ▸ hd)

theorem NearestOf.le {found d : P.F64} {group other : Candidate P}
    (h : NearestOf offset groups found group) (hother : other ∈ groups)
    (hd : offset other = some d) : found ≤ d := by
  obtain ⟨before, after, rfl, hoffset, hbefore, hafter⟩ := h
  rcases List.mem_append.mp hother with hother | hother
  · exact (hbefore other hother d hd).le
  · rcases List.mem_cons.mp hother with rfl | hother
    · exact (Option.some.inj (hoffset.symm.trans hd)).le
    · exact hafter other hother d hd

theorem Best.nearer (hnan : ∀ group d, offset group = some d → P.isNan d = false)
    {best : Option (P.F64 × Candidate P)} (h : Best offset groups best) (last : Candidate P) :
    Best offset (groups ++ [last]) (nearer offset best last) := by
  unfold Projects.nearer
  cases hlast : offset last with
  | none =>
    cases best with
    | none =>
      intro group hgroup
      rcases List.mem_append.mp hgroup with hgroup | hgroup
      · exact h group hgroup
      · rw [List.mem_singleton.mp hgroup, hlast]
    | some best =>
      exact NearestOf.snoc h fun d hd => nomatch hlast.symm.trans hd
  | some found =>
    cases best with
    | none =>
      refine ⟨groups, [], rfl, hlast, fun other hother d hd => ?_, nofun⟩
      rw [h other hother] at hd
      cases hd
    | some best =>
      obtain ⟨nearest, group⟩ := best
      obtain ⟨before, after, rfl, hoffset, -⟩ := id h
      have hlt : P.lt found nearest = decide (found < nearest) := by
        simp [Platform.lt, hnan _ _ hlast, hnan _ _ hoffset]
      simp only [Option.all_some, hlt, decide_eq_true_eq]
      by_cases hnearer : found < nearest
      · rw [if_pos hnearer]
        exact ⟨_, [], rfl, hlast, fun other hother d hd => hnearer.trans_le (h.le hother hd), nofun⟩
      · rw [if_neg hnearer]
        refine NearestOf.snoc h fun d hd => ?_
        rw [← Option.some.inj (hlast.symm.trans hd)]
        exact not_lt.mp hnearer

theorem best_foldl (hnan : ∀ group d, offset group = some d → P.isNan d = false)
    (groups : List (Candidate P)) : Best offset groups (groups.foldl (nearer offset) none) := by
  induction groups using List.reverseRecOn with
  | nil => exact fun _ h => absurd h List.not_mem_nil
  | append_singleton groups last ih =>
    rw [List.foldl_append]
    exact ih.nearer hnan last

end Nearest

/-! ## Where sessions go -/

section Placements

variable {P : Platform} (S : Sky P) (margins : FramingMargins P)

def Joins (candidates : List (Candidate P)) (session : SessionToPlace P) (group : Candidate P) :
    SessionPlacement → Prop
  | .framing => ∃ framing found, session.framing = some framing ∧
      NearestOf (Candidate.offset S framing margins) (candidates.filter (fits session)) found group
  | .framingUnknown => session.framing = none ∧
      ∃ rest, candidates.filter (fits session) = group :: rest
  | .user => False

/-- No group of the session's rig and optics lies within the margins; none is there for a session
without pointing. -/
def NoneJoins (candidates : List (Candidate P)) (session : SessionToPlace P) : Prop :=
  ∀ group ∈ candidates, fits session group = true →
    ∃ framing, session.framing = some framing ∧ Candidate.offset S framing margins group = none

/-- One add for each session, in order: into the group it joins, or into one of its own, which the
sessions after it see. -/
inductive Placements : List (Candidate P) → List (SessionToPlace P) → PlacementPlan P → Prop
  | done (candidates) : Placements candidates [] ⟨[], []⟩
  | join {candidates session rest group placement plan} (hgroup : group ∈ candidates)
      (hfits : fits session group = true) (hjoins : Joins S margins candidates session group placement)
      (hrest : Placements candidates rest plan) :
      Placements candidates (session :: rest)
        { plan with adds := session.add (group.id, placement) :: plan.adds }
  | anchor {candidates session rest plan} (name) (hnone : NoneJoins S margins candidates session)
      (hrest : Placements (candidates ++ [.ofNew (session.group name)]) rest plan) :
      Placements candidates (session :: rest)
        ⟨session.group name :: plan.groups, session.add (session.fresh, session.alone) :: plan.adds⟩

variable {S margins} {candidates : List (Candidate P)} {session : SessionToPlace P}

theorem isNan_offset (hnan : ∀ a b, P.isNan (S.separation a b) = false)
    {framing : FramingEvidence P} (group : Candidate P) (d : P.F64)
    (h : Candidate.offset S framing margins group = some d) : P.isNan d = false := by
  obtain ⟨anchor, -, hoffset⟩ := Option.bind_eq_some_iff.mp h
  obtain ⟨offset, hfound, rfl⟩ := Option.map_eq_some_iff.mp hoffset
  obtain ⟨centre, -, hrest⟩ := Option.bind_eq_some_iff.mp hfound
  obtain ⟨other, -, hrest⟩ := Option.bind_eq_some_iff.mp hrest
  simp only at hrest
  split at hrest
  · cases hrest
  · split at hrest
    · cases hrest
    · cases hrest
      exact hnan centre other

theorem joined_eq_some (hnan : ∀ a b, P.isNan (S.separation a b) = false)
    {place : Uuid × SessionPlacement} (h : joined S margins candidates session = some place) :
    ∃ group ∈ candidates, fits session group = true ∧ place.1 = group.id ∧
      Joins S margins candidates session group place.2 := by
  unfold joined at h
  cases hframing : session.framing with
  | none =>
    rw [hframing] at h
    obtain ⟨group, hfind, rfl⟩ := Option.map_eq_some_iff.mp h
    refine ⟨group, List.mem_of_find?_eq_some hfind, List.find?_some hfind, rfl, hframing, ?_⟩
    rw [← List.head?_filter] at hfind
    exact ⟨_, List.eq_cons_of_mem_head? hfind⟩
  | some framing =>
    rw [hframing] at h
    obtain ⟨id, hnearest, rfl⟩ := Option.map_eq_some_iff.mp h
    obtain ⟨⟨found, group⟩, hbest, rfl⟩ := Option.map_eq_some_iff.mp hnearest
    have hnearest := best_foldl (@isNan_offset _ S margins hnan framing)
      (candidates.filter (fits session))
    rw [hbest] at hnearest
    obtain ⟨before, after, hgroups, -⟩ := id hnearest
    have hmem : group ∈ candidates.filter (fits session) := by
      rw [hgroups]
      simp
    obtain ⟨hgroup, hfits⟩ := List.mem_filter.mp hmem
    exact ⟨group, hgroup, hfits, rfl, framing, found, hframing, hnearest⟩

theorem joined_eq_none (hnan : ∀ a b, P.isNan (S.separation a b) = false)
    (h : joined S margins candidates session = none) : NoneJoins S margins candidates session := by
  intro group hgroup hfits
  unfold joined at h
  cases hframing : session.framing with
  | none =>
    rw [hframing] at h
    have hnone := List.find?_eq_none.mp (Option.map_eq_none_iff.mp h) group hgroup
    exact absurd hfits hnone
  | some framing =>
    rw [hframing] at h
    have hnone := Option.map_eq_none_iff.mp (Option.map_eq_none_iff.mp h)
    have hbest := best_foldl (@isNan_offset _ S margins hnan framing)
      (candidates.filter (fits session))
    rw [hnone] at hbest
    exact ⟨framing, rfl, hbest group (List.mem_filter.mpr ⟨hgroup, hfits⟩)⟩

end Placements

/-! ## What placing returns -/

section Placed

variable {H : Host} {S : Sky H.toPlatform} {margins : FramingMargins H.toPlatform}

/-- The new groups' names are apart from the groups' and from one another's, and each has a
folder. -/
structure NamesApart (H : Host) (names : List GroupName) (groups : List (NewGroup H.toPlatform)) :
    Prop where
  old : ∀ taken ∈ names, ∀ group ∈ groups, Apart H taken group.name
  new : groups.Pairwise fun group other => Apart H group.name other.name
  folder : ∀ group ∈ groups, ∃ folder, folderToken H group.name = .ok folder

theorem NamesApart.nil {names : List GroupName} : NamesApart H names [] :=
  ⟨fun _ _ _ h => absurd h List.not_mem_nil, List.Pairwise.nil,
    fun _ h => absurd h List.not_mem_nil⟩

theorem NamesApart.cons {names : List GroupName} {group : NewGroup H.toPlatform}
    {groups : List (NewGroup H.toPlatform)} (hfree : free H names group.name = .ok true)
    (h : NamesApart H (names ++ [group.name]) groups) : NamesApart H names (group :: groups) := by
  obtain ⟨folder, hfolder, -⟩ := free_eq_ok hfree
  refine ⟨fun taken htaken other hother => ?_, List.pairwise_cons.mpr ⟨fun other hother => ?_, h.new⟩,
    fun other hother => ?_⟩
  · rcases List.mem_cons.mp hother with rfl | hother
    · exact apart_of_free hfree taken htaken
    · exact h.old taken (List.mem_append_left _ htaken) other hother
  · exact h.old group.name (List.mem_append_right _ List.mem_cons_self) other hother
  · rcases List.mem_cons.mp hother with rfl | hother
    · exact ⟨folder, hfolder⟩
    · exact h.folder other hother

theorem placeFrom_ok (hnan : ∀ a b, H.isNan (S.separation a b) = false) {tries : Nat}
    {candidates : List (Candidate H.toPlatform)} {names : List GroupName}
    {sessions : List (SessionToPlace H.toPlatform)} {plan : PlacementPlan H.toPlatform}
    (h : placeFrom H S margins tries candidates names sessions = .ok (some plan)) :
    Placements S margins candidates sessions plan ∧ NamesApart H names plan.groups := by
  induction sessions generalizing candidates names plan with
  | nil =>
    cases h
    exact ⟨.done candidates, .nil⟩
  | cons session rest ih =>
    unfold placeFrom at h
    cases hjoined : joined S margins candidates session with
    | some place =>
      rw [hjoined] at h
      obtain ⟨later, hlater, h⟩ := Result.bind_eq_ok.mp h
      obtain ⟨later, rfl, rfl⟩ := Option.map_eq_some_iff.mp (Except.ok.inj h)
      obtain ⟨hplaced, hnames⟩ := ih hlater
      obtain ⟨group, hgroup, hfits, hid, hjoins⟩ := joined_eq_some hnan hjoined
      obtain ⟨id, placement⟩ := place
      obtain rfl : id = group.id := hid
      exact ⟨.join hgroup hfits hjoins hplaced, hnames⟩
    | none =>
      rw [hjoined] at h
      obtain ⟨found, hname, h⟩ := Result.bind_eq_ok.mp h
      cases found with
      | none => cases h
      | some name =>
        obtain ⟨later, hlater, h⟩ := Result.bind_eq_ok.mp h
        obtain ⟨later, rfl, rfl⟩ := Option.map_eq_some_iff.mp (Except.ok.inj h)
        obtain ⟨hplaced, hnames⟩ := ih hlater
        exact ⟨.anchor name (joined_eq_none hnan hjoined) hplaced,
          .cons (free_of_firstFree hname) hnames⟩

theorem placeFrom_ends (hascii : H.Ascii) (htail : AsciiTail H) {bound : Nat}
    {candidates : List (Candidate H.toPlatform)} {names : List GroupName}
    {sessions : List (SessionToPlace H.toPlatform)} (hnames : names.length = candidates.length)
    (hbound : names.length + sessions.length ≤ bound)
    (huncut : ∀ session ∈ sessions, ∀ n ≤ 3 * bound + 2, Uncut H session.rigName n) :
    placeFrom H S margins (2 * bound + 2) candidates names sessions ≠ .ok none := by
  induction sessions generalizing candidates names with
  | nil => exact nofun
  | cons session rest ih =>
    rw [List.length_cons] at hbound
    have hrest : ∀ other ∈ rest, ∀ n ≤ 3 * bound + 2, Uncut H other.rigName n :=
      fun other hother => huncut other (List.mem_cons_of_mem _ hother)
    unfold placeFrom
    cases hjoined : joined S margins candidates session with
    | some place =>
      intro h
      obtain ⟨later, hlater, h⟩ := Result.bind_eq_ok.mp h
      rw [Option.map_eq_none_iff.mp (Except.ok.inj h)] at hlater
      exact ih hnames (by omega) hrest hlater
    | none =>
      intro h
      obtain ⟨found, hname, h⟩ := Result.bind_eq_ok.mp h
      cases found with
      | none =>
        have hgroups : candidates.countP (·.rigId = session.rigId) ≤ names.length :=
          hnames ▸ List.countP_le_length
        exact automaticName_ends hascii htail (by omega)
          (fun n hn => huncut session List.mem_cons_self n (by omega)) hname
      | some name =>
        obtain ⟨later, hlater, h⟩ := Result.bind_eq_ok.mp h
        rw [Option.map_eq_none_iff.mp (Except.ok.inj h)] at hlater
        exact ih (by simp [hnames]) (by simp; omega) hrest hlater

theorem Placements.forall₂_adds {candidates : List (Candidate H.toPlatform)}
    {sessions : List (SessionToPlace H.toPlatform)} {plan : PlacementPlan H.toPlatform}
    (h : Placements S margins candidates sessions plan) :
    List.Forall₂ (fun session add => add.sessionId = session.sessionId ∧
      add.expected = session.expected ∧ ∃ group ∈ candidates ++ plan.groups.map .ofNew,
        group.id = add.groupId ∧ fits session group = true) sessions plan.adds := by
  induction h with
  | done => exact .nil
  | join hgroup hfits hjoins hrest ih =>
    exact .cons ⟨rfl, rfl, _, List.mem_append_left _ hgroup, rfl, hfits⟩ ih
  | anchor name hnone hrest ih =>
    rename_i session rest plan
    have hown : fits session (.ofNew (session.group name)) = true := by
      simp [fits, Candidate.ofNew, SessionToPlace.group]
    refine .cons ⟨rfl, rfl, .ofNew (session.group name), ?_, rfl, hown⟩ (ih.imp ?_)
    · exact List.mem_append_right _ List.mem_cons_self
    · rintro other add ⟨hid, hexpected, group, hgroup, hfits⟩
      refine ⟨hid, hexpected, group, ?_, hfits⟩
      rw [List.append_assoc] at hgroup
      exact hgroup

theorem Placements.ids_sublist {candidates : List (Candidate H.toPlatform)}
    {sessions : List (SessionToPlace H.toPlatform)} {plan : PlacementPlan H.toPlatform}
    (h : Placements S margins candidates sessions plan) :
    (plan.groups.map (·.id)).Sublist (sessions.map (·.fresh)) := by
  induction h with
  | done => exact .refl _
  | join hgroup hfits hjoins hrest ih => exact ih.cons _
  | anchor name hnone hrest ih => exact ih.cons_cons _

/-- An add is its session's, into a group among these: one of the session's rig and optics that
framing made. -/
def AddedTo {P : Platform} (candidates : List (Candidate P)) (session : SessionToPlace P)
    (add : SessionAdd) : Prop :=
  add.sessionId = session.sessionId ∧ add.expected = session.expected ∧
    (∃ group ∈ candidates, group.id = add.groupId) ∧
    ∀ group ∈ candidates, group.id = add.groupId → fits session group = true

theorem Placements.fits_of_id {groups : List (ProjectGroup H.toPlatform)}
    {sessions : List (SessionToPlace H.toPlatform)} {plan : PlacementPlan H.toPlatform}
    (h : Placements S margins (groups.map .ofGroup) sessions plan)
    (hids : (groups.map (·.id) ++ sessions.map (·.fresh)).Nodup) :
    List.Forall₂ (AddedTo (groups.map .ofGroup ++ plan.groups.map .ofNew)) sessions
      plan.adds := by
  have hnodup : ((groups.map Candidate.ofGroup ++ plan.groups.map Candidate.ofNew).map
      (fun group => group.id)).Nodup := by
    rw [List.map_append, List.map_map, List.map_map]
    exact hids.sublist (List.Sublist.append (List.Sublist.refl _) h.ids_sublist)
  refine h.forall₂_adds.imp ?_
  rintro session add ⟨hid, hexpected, group, hgroup, hgroupId, hfits⟩
  refine ⟨hid, hexpected, ⟨group, hgroup, hgroupId⟩, fun other hother hotherId => ?_⟩
  rw [List.inj_on_of_nodup_map hnodup hother hgroup (hotherId.trans hgroupId.symm)]
  exact hfits

end Placed

def shortSession : SessionToPlace View.wholeHost.toPlatform where
  sessionId := 1
  rigId := 1
  rigName := "Rig".toList
  optics := ⟨none, none, none⟩
  framing := none
  expected := none
  fresh := 2

theorem asciiTail_wholeHost : AsciiTail View.wholeHost where
  nfc_append _ _ _ := rfl
  nfkd_append _ _ _ := rfl
  lower_append _ _ _ := List.map_append

theorem uncut_shortSession : ∀ n ≤ 5, Uncut View.wholeHost shortSession.rigName n := by
  unfold Uncut
  decide

/-! ## A search that does not end -/

section Endless

def hexChars : List Char := "0123456789abcdef".toList

def hexTexts : Nat → List Text
  | 0 => [[]]
  | n + 1 => (hexTexts n).flatMap fun text => hexChars.map (· :: text)

theorem mem_hexTexts {text : Text} {n : Nat} :
    text ∈ hexTexts n ↔ text.length = n ∧ ∀ c ∈ text, c ∈ hexChars := by
  induction n generalizing text with
  | zero =>
    rw [hexTexts, List.mem_singleton]
    constructor
    · rintro rfl
      exact ⟨rfl, nofun⟩
    · rintro ⟨hlength, -⟩
      exact List.length_eq_zero_iff.mp hlength
  | succ n ih =>
    rw [hexTexts, List.mem_flatMap]
    constructor
    · rintro ⟨rest, hrest, htext⟩
      obtain ⟨c, hc, rfl⟩ := List.mem_map.mp htext
      obtain ⟨hlength, hall⟩ := ih.mp hrest
      refine ⟨by rw [List.length_cons, hlength], fun d hd => ?_⟩
      rcases List.mem_cons.mp hd with rfl | hd
      · exact hc
      · exact hall d hd
    · rintro ⟨hlength, hall⟩
      match text with
      | c :: rest =>
        refine ⟨rest, ih.mpr ⟨Nat.succ.inj hlength, fun d hd => hall d (List.mem_cons_of_mem _ hd)⟩, ?_⟩
        exact List.mem_map.mpr ⟨c, hall c List.mem_cons_self, rfl⟩

def IsSha (sha256 : Text → Text) : Prop :=
  ∀ text, (sha256 text).length = 64 ∧ ∀ c ∈ sha256 text, c ∈ hexChars

/-- `wholeHost` with a digest. -/
def digestHost (sha256 : Text → Text) : Host := { View.wholeHost with sha256 := sha256 }

theorem hex_plain : ∀ c ∈ hexChars, c.utf8Size = 1 ∧ isWhiteSpace c = false ∧
    View.isHyphenOrDot c = false ∧ View.isDisallowed c = false ∧ View.isControl c = false ∧
      View.tokenChar c = some c ∧ c ≠ '-' ∧ c ≠ '.' :=
  View.forall_of_all (by decide)

theorem exists_foldl_pushToken (text kept : Text) :
    ∃ more, text.foldl View.pushToken kept = kept ++ more := by
  induction text generalizing kept with
  | nil => exact ⟨[], by simp⟩
  | cons c rest ih =>
    obtain ⟨more, hmore⟩ := ih (View.pushToken kept c)
    rw [List.foldl_cons, hmore]
    unfold View.pushToken
    split
    · exact ⟨more, rfl⟩
    · split
      · exact ⟨more, rfl⟩
      · rename_i mapped _ _
        exact ⟨mapped :: more, by simp⟩

theorem exists_trimMatches {p : Char → Bool} {first : Text} (hne : first ≠ [])
    (h : ∀ c ∈ first, p c = false) (rest : Text) :
    ∃ more, trimMatches p (first ++ rest) = first ++ more := by
  have hhead : (first ++ rest).dropWhile p = first ++ rest := by
    refine List.dropWhile_eq_self_iff.mpr fun _ => ?_
    have hpos := List.length_pos_iff.mpr hne
    rw [List.getElem_append_left hpos, h _ (List.getElem_mem hpos)]
    exact Bool.false_ne_true
  have hlast : first.reverse.dropWhile p = first.reverse := by
    refine List.dropWhile_eq_self_iff.mpr fun hpos => ?_
    rw [h _ (List.mem_reverse.mp (List.getElem_mem hpos))]
    exact Bool.false_ne_true
  rw [trimMatches, hhead, List.reverse_append, List.dropWhile_append]
  split
  · exact ⟨[], by rw [hlast, List.reverse_reverse, List.append_nil]⟩
  · exact ⟨_, by rw [List.reverse_append, List.reverse_reverse]⟩

variable {sha256 : Text → Text}

theorem exists_rawToken {first : Text} (hne : first ≠ []) (h : ∀ c ∈ first, c ∈ hexChars)
    (rest : Text) : ∃ more, rawToken (digestHost sha256) (first ++ rest) = first ++ more := by
  have hkeep : first.filter (fun c => !View.isDisallowed c) = first :=
    List.filter_eq_self.mpr fun c hc => by rw [(hex_plain c (h c hc)).2.2.2.1]; rfl
  have hcleaned : (digestHost sha256).nfkd (View.step1NormalizeAndStrip (digestHost sha256)
      (first ++ rest)) = first ++ rest.filter (fun c => !View.isDisallowed c) := by
    change (first ++ rest).filter (fun c => !View.isDisallowed c) = _
    rw [List.filter_append, hkeep]
  obtain ⟨more, hmore⟩ := exists_foldl_pushToken (rest.filter fun c => !View.isDisallowed c) first
  rw [rawToken, hcleaned, List.foldl_append, foldl_pushToken_kept fun c hc =>
    ⟨(hex_plain c (h c hc)).2.2.2.2.2.1, (hex_plain c (h c hc)).2.2.2.2.2.2.1⟩, List.nil_append, hmore]
  exact exists_trimMatches hne (fun c hc => (hex_plain c (h c hc)).2.2.1) more

theorem charLen_pos (c : Char) : 0 < View.charLen (digestHost sha256) c := Char.utf8Size_pos c

theorem componentLen_hex {text : Text} (h : ∀ c ∈ text, c ∈ hexChars ∨ c = '-') :
    componentLen (digestHost sha256) text = text.length := by
  induction text with
  | nil => rfl
  | cons c rest ih =>
    have hone : View.charLen (digestHost sha256) c = 1 := by
      rcases h c List.mem_cons_self with hc | rfl
      · exact (hex_plain c hc).1
      · rfl
    have hrest := ih fun d hd => h d (List.mem_cons_of_mem _ hd)
    unfold componentLen at hrest ⊢
    rw [List.map_cons, List.sum_cons, hone, hrest, List.length_cons]
    omega

theorem fitting_append {first : Text} (h : ∀ c ∈ first, c ∈ hexChars) (rest : Text) (n : Nat)
    (hn : n ≤ first.length) :
    View.fitting (digestHost sha256) n (first ++ rest) = first.take n := by
  induction first generalizing n with
  | nil =>
    obtain rfl : n = 0 := by simpa using hn
    cases rest with
    | nil => rfl
    | cons c rest =>
      have hpos := @charLen_pos sha256 c
      rw [List.nil_append, View.fitting, if_neg (by omega)]
      rfl
  | cons c first ih =>
    have hone : View.charLen (digestHost sha256) c = 1 := (hex_plain c (h c List.mem_cons_self)).1
    cases n with
    | zero => rw [List.cons_append, View.fitting, hone, if_neg (by omega)]; rfl
    | succ n =>
      rw [List.cons_append, View.fitting, hone, if_pos (by omega), List.take_succ_cons]
      rw [Nat.add_sub_cancel, ih (fun d hd => h d (List.mem_cons_of_mem _ hd)) n (by simpa using hn)]

theorem step4_hex {first : Text} (hlength : 10 ≤ first.length) (h : ∀ c ∈ first, c ∈ hexChars)
    (rest : Text) :
    View.step4ReservedNameCheck (digestHost sha256) (first ++ rest) = .ok () := by
  have hshort : ∀ name ∈ View.windowsReservedNames, name.length < 10 := by decide
  have hnot : View.isReservedName (digestHost sha256) (first ++ rest) = false := by
    unfold View.isReservedName
    rw [Bool.eq_false_iff]
    intro hcontains
    have hlt := hshort _ (List.contains_iff_mem.mp hcontains)
    change (((first ++ rest).takeWhile fun c => decide (c ≠ '.')).map Char.toUpper).length < 10 at hlt
    rw [List.takeWhile_append_of_pos fun c hc => by simpa using (hex_plain c (h c hc)).2.2.2.2.2.2.2,
      List.length_map, List.length_append] at hlt
    omega
  rw [View.step4ReservedNameCheck, hnot]
  rfl

def longRig : Text := List.replicate 300 'a'

def keptRig : Text := List.replicate 246 'a'

theorem mem_longRig : ∀ c ∈ longRig, c ∈ hexChars := by
  intro c hc
  rw [(List.mem_replicate.mp hc).2]
  decide

theorem mem_keptRig : ∀ c ∈ keptRig, c ∈ hexChars := by
  intro c hc
  rw [(List.mem_replicate.mp hc).2]
  decide

theorem length_suffix (hsha : IsSha sha256) (text : Text) :
    (View.digestSuffix (digestHost sha256) text).length = 9 := by
  change ((sha256 text).take 8).length + 1 = 9
  rw [List.length_take, (hsha text).1]
  rfl

theorem token_longRig (hsha : IsSha sha256) (rest : Text) :
    token (digestHost sha256) "group" (longRig ++ rest) componentLimit =
      .ok (keptRig ++ View.digestSuffix (digestHost sha256) (longRig ++ rest)) := by
  obtain ⟨more, hraw⟩ := @exists_rawToken sha256 longRig
    (List.cons_ne_nil _ _) mem_longRig rest
  have hlength : longRig.length = 300 := List.length_replicate
  have hlong : ¬ componentLen (digestHost sha256) (longRig ++ more) ≤ componentLimit := by
    have hfirst := @componentLen_hex sha256 _ fun c hc => .inl (mem_longRig c hc)
    unfold componentLen at hfirst ⊢
    rw [List.map_append, List.sum_append, hfirst, hlength]
    simp [componentLimit]
    omega
  have hsuffix : componentLen (digestHost sha256)
      (View.digestSuffix (digestHost sha256) (longRig ++ rest)) = 9 := by
    rw [componentLen_hex, length_suffix hsha]
    intro c hc
    rcases List.mem_cons.mp hc with rfl | hc
    · exact .inr rfl
    · exact .inl ((hsha _).2 c (List.mem_of_mem_take hc))
  have hfitting : View.fitting (digestHost sha256) 246 (longRig ++ more) = keptRig := by
    rw [fitting_append mem_longRig more 246 (by omega), longRig, List.take_replicate]
    rfl
  have htrim : View.trimEndMatches View.isHyphenOrDot keptRig = keptRig := by
    have hlast : keptRig.reverse.dropWhile View.isHyphenOrDot = keptRig.reverse := by
      refine List.dropWhile_eq_self_iff.mpr fun hpos => ?_
      have hmem := List.mem_reverse.mp (List.getElem_mem hpos)
      rw [(hex_plain _ (mem_keptRig _ hmem)).2.2.1]
      exact Bool.false_ne_true
    rw [View.trimEndMatches, hlast, List.reverse_reverse]
  have hnil : (longRig ++ more).isEmpty = false := rfl
  have hstep := @step4_hex sha256 _ (by omega) mem_longRig more
  unfold rawToken at hraw
  unfold View.token
  simp only [hraw, hnil, hstep, Bool.false_eq_true, if_false]
  rw [View.capped, if_neg hlong, hsuffix]
  change Except.ok (View.trimEndMatches View.isHyphenOrDot
    (View.fitting (digestHost sha256) 246 (longRig ++ more)) ++ _) = _
  rw [hfitting, htrim]

theorem token_kept {hex : Text} (hhex : hex ∈ hexTexts 8) :
    token (digestHost sha256) "group" (keptRig ++ '-' :: hex) componentLimit =
      .ok (keptRig ++ '-' :: hex) := by
  obtain ⟨hlength, hall⟩ := mem_hexTexts.mp hhex
  have hchars : ∀ c ∈ keptRig ++ '-' :: hex, c ∈ hexChars ∨ c = '-' := by
    intro c hc
    rcases List.mem_append.mp hc with hc | hc
    · exact .inl (mem_keptRig c hc)
    · rcases List.mem_cons.mp hc with rfl | hc
      · exact .inr rfl
      · exact .inl (hall c hc)
  have hstrip : View.step1NormalizeAndStrip (digestHost sha256) (keptRig ++ '-' :: hex) =
      keptRig ++ '-' :: hex := by
    refine List.filter_eq_self.mpr fun c hc => ?_
    rcases hchars c hc with hc | rfl
    · rw [(hex_plain c hc).2.2.2.1]
      rfl
    · rfl
  have hkept : ∀ {text : Text}, (∀ c ∈ text, c ∈ hexChars) →
      ∀ c ∈ text, View.tokenChar c = some c ∧ c ≠ '-' := fun h c hc =>
    ⟨(hex_plain c (h c hc)).2.2.2.2.2.1, (hex_plain c (h c hc)).2.2.2.2.2.2.1⟩
  have hlastKept : keptRig.getLast? = some 'a' := by
    rw [keptRig, List.getLast?_replicate]
    rfl
  have hpush : View.pushToken keptRig '-' = keptRig ++ ['-'] := by
    have htoken : View.tokenChar '-' = some '-' := by decide
    rw [View.pushToken, htoken, hlastKept]
    rfl
  have hfold : (keptRig ++ '-' :: hex).foldl View.pushToken [] = keptRig ++ '-' :: hex := by
    rw [List.foldl_append, foldl_pushToken_kept (hkept mem_keptRig), List.nil_append,
      List.foldl_cons, hpush, foldl_pushToken_kept (hkept hall)]
    simp
  obtain ⟨last, hlast⟩ : ∃ last, hex.getLast? = some last := by
    refine ⟨_, List.getLast?_eq_some_getLast (l := hex) ?_⟩
    rintro rfl
    cases hlength
  have htrim : trimMatches View.isHyphenOrDot (keptRig ++ '-' :: hex) = keptRig ++ '-' :: hex := by
    have hend : (keptRig ++ '-' :: hex).getLast? = some last := by
      rw [List.getLast?_append_of_ne_nil _ (List.cons_ne_nil _ _), List.getLast?_cons, hlast]
      rfl
    rw [trimMatches_of_getLast? hend (hex_plain last (hall last (List.mem_of_getLast? hlast))).2.2.1]
    exact List.dropWhile_cons_of_neg (by decide)
  have hnil : (keptRig ++ '-' :: hex).isEmpty = false := rfl
  have hstep := @step4_hex sha256 _ (by rw [keptRig, List.length_replicate]; omega)
    mem_keptRig ('-' :: hex)
  have hshort : componentLen (digestHost sha256) (keptRig ++ '-' :: hex) ≤ componentLimit := by
    rw [componentLen_hex hchars, List.length_append, List.length_cons, hlength, keptRig,
      List.length_replicate]
    decide
  have hnfkd : ∀ text, (digestHost sha256).nfkd text = text := fun _ => rfl
  unfold View.token
  simp only [hstrip, hnfkd, hfold, htrim, hnil, hstep, Bool.false_eq_true, if_false]
  rw [View.capped, if_pos hshort]

def takenGroup (hex : Text) (h : hex ∈ hexTexts 8) (n : Nat) : ProjectGroup View.wholeHost.toPlatform where
  id := Fin.ofNat (2 ^ 128) (n + 1)
  rigId := 1
  name := ⟨keptRig ++ '-' :: hex, List.cons_ne_nil _ _, by
    intro c hc
    rcases List.mem_append.mp hc with hc | hc
    · exact (hex_plain c (mem_keptRig c hc)).2.2.2.2.1
    · rcases List.mem_cons.mp hc with rfl | hc
      · decide
      · exact (hex_plain c ((mem_hexTexts.mp h).2 c hc)).2.2.2.2.1⟩
  origin := .user
  optics := ⟨none, none, none⟩
  framing := none

def takenGroups : List (ProjectGroup View.wholeHost.toPlatform) :=
  (hexTexts 8).attach.zipIdx.map fun (hex, n) => takenGroup hex.1 hex.2 n

def longSession : SessionToPlace View.wholeHost.toPlatform where
  sessionId := 1
  rigId := 1
  rigName := longRig
  optics := ⟨none, none, none⟩
  framing := none
  expected := none
  fresh := 0

theorem plain_numbered (rig : Text) (n : Nat) (h : ∀ c ∈ rig, View.isControl c = false) :
    ∀ c ∈ numberedName rig n, View.isControl c = false := by
  intro c hc
  rcases List.mem_append.mp hc with hc | hc
  · rcases List.mem_append.mp hc with hc | hc
    · exact h c hc
    · have hmark : ∀ c ∈ " · Framing ".toList, View.isControl c = false :=
        View.forall_of_all (by decide)
      exact hmark c hc
  · have hdigit := View.isDigit_of_mem_decimal hc
    have hrange := View.isDigit_lt hdigit
    exact @View.of_ascii (fun c => c.isDigit = true → View.isControl c = false) (by decide) c
      (by omega) hdigit

theorem new_longRig (rigGroups n : Nat) :
    ∃ name rest, GroupName.new (digestHost sha256) (automaticNames longRig rigGroups n) = .ok name ∧
      name.text = longRig ++ rest := by
  have hplain : ∀ c ∈ longRig, View.isControl c = false := fun c hc =>
    (hex_plain c (mem_longRig c hc)).2.2.2.2.1
  obtain ⟨rest, hrest, hrestPlain⟩ : ∃ rest, automaticNames longRig rigGroups n = longRig ++ rest ∧
      ∀ c ∈ longRig ++ rest, View.isControl c = false := by
    have hnumbered (n : Nat) : ∃ rest, numberedName longRig n = longRig ++ rest ∧
        ∀ c ∈ longRig ++ rest, View.isControl c = false := by
      have hsplit : numberedName longRig n = longRig ++ (" · Framing ".toList ++ decimal n) :=
        List.append_assoc _ _ _
      exact ⟨_, hsplit, hsplit ▸ plain_numbered longRig n hplain⟩
    unfold automaticNames
    split
    · split
      · exact ⟨[], (List.append_nil _).symm, by rwa [List.append_nil]⟩
      · exact hnumbered _
    · exact hnumbered _
  obtain ⟨more, hmore⟩ := @exists_trimMatches isWhiteSpace longRig
    (List.cons_ne_nil _ _) (fun c hc => (hex_plain c (mem_longRig c hc)).2.1) rest
  have hname : trim (automaticNames longRig rigGroups n) = longRig ++ more := by
    rw [trim, hrest, hmore]
  have hcontrol : ∀ c ∈ longRig ++ more, View.isControl c = false := by
    intro c hc
    exact hrestPlain c (Naming.mem_of_mem_trimMatches (hmore ▸ hc))
  have hblank : longRig ++ more ≠ [] := List.cons_ne_nil _ _
  refine ⟨⟨longRig ++ more, hblank, hcontrol⟩, more, ?_, rfl⟩
  unfold GroupName.new
  simp only [hname, dif_neg hblank, dif_pos hcontrol]

theorem free_longRig (hsha : IsSha sha256) {name : GroupName} {rest : Text}
    (hname : name.text = longRig ++ rest) :
    free (digestHost sha256) (takenGroups.map (·.name)) name = .ok false := by
  let hex := (sha256 name.text).take 8
  have hhex : hex ∈ hexTexts 8 := by
    refine mem_hexTexts.mpr ⟨?_, fun c hc => (hsha _).2 c (List.mem_of_mem_take hc)⟩
    rw [List.length_take, (hsha _).1]
    rfl
  obtain ⟨group, hgroup, htext⟩ : ∃ group ∈ takenGroups, group.name.text = keptRig ++ '-' :: hex := by
    obtain ⟨n, hn⟩ := List.mem_iff_getElem?.mp (List.mem_attach (hexTexts 8) ⟨hex, hhex⟩)
    refine ⟨takenGroup hex hhex n, List.mem_map.mpr ⟨(⟨hex, hhex⟩, n), ?_, rfl⟩, rfl⟩
    exact List.mem_zipIdx_iff_getElem?.mpr hn
  have hfolder : folderToken (digestHost sha256) name = .ok (keptRig ++ '-' :: hex) := by
    rw [folderToken, hname, token_longRig hsha, View.digestSuffix, ← hname]
    rfl
  have htaken : folderToken (digestHost sha256) group.name = .ok (keptRig ++ '-' :: hex) := by
    rw [folderToken, htext, token_kept hhex]
  have hany : (takenGroups.map (·.name)).any (takes (digestHost sha256) (name.key (digestHost sha256))
      (nameKey (digestHost sha256) (keptRig ++ '-' :: hex))) = true := by
    refine List.any_eq_true.mpr ⟨group.name, List.mem_map.mpr ⟨group, hgroup, rfl⟩, ?_⟩
    exact takes_iff.mpr (.inr ⟨_, htaken, rfl⟩)
  exact Result.bind_eq_ok.mpr ⟨_, hfolder, congrArg (fun taken => Except.ok (!taken)) hany⟩

theorem firstFree_longRig (hsha : IsSha sha256) (rigGroups tries n : Nat) :
    firstFree (digestHost sha256) (takenGroups.map (·.name)) (automaticNames longRig rigGroups)
      tries n = .ok none := by
  induction tries generalizing n with
  | zero => rfl
  | succ tries ih =>
    obtain ⟨name, rest, hnew, htext⟩ := @new_longRig sha256 rigGroups n
    exact Result.bind_eq_ok.mpr ⟨name, hnew, Result.bind_eq_ok.mpr
      ⟨false, free_longRig hsha htext, ih (n + 1)⟩⟩

theorem origin_of_fits {P : Platform} {session : SessionToPlace P} {candidate : Candidate P}
    (h : fits session candidate = true) : candidate.origin = .framing := by
  simp [fits] at h
  exact h.1.1

theorem placeSessions_none {H : Host} {S : Sky H.toPlatform} {margins : FramingMargins H.toPlatform}
    {groups : List (ProjectGroup H.toPlatform)} {session : SessionToPlace H.toPlatform} {tries : Nat}
    (hframing : session.framing = none)
    (hfits : ∀ group ∈ groups, ¬ fits session (.ofGroup group) = true)
    (hname : ∀ rigGroups, automaticName H tries (groups.map (·.name)) session.rigName rigGroups =
      .ok none) :
    placeSessions H S margins tries groups [session] = .ok none := by
  have hjoined : joined S margins (groups.map .ofGroup) session = none := by
    rw [joined, hframing]
    refine Option.map_eq_none_iff.mpr (List.find?_eq_none.mpr fun candidate hcandidate => ?_)
    obtain ⟨group, hgroup, rfl⟩ := List.mem_map.mp hcandidate
    exact hfits group hgroup
  rw [placeSessions, placeFrom]
  split
  · rename_i place hsome
    exact nomatch hsome.symm.trans hjoined
  · exact Result.bind_eq_ok.mpr ⟨none, hname _, rfl⟩

end Endless

end PlateVault.Projects
