import PlateVault.View.Entries

/-!
# Group and night folders

A night folder reads back: its date and its number. Group folders of different groups differ, and
none reads like a night or like one of the folders below a night.
-/

namespace PlateVault.View

variable {H : Host}

/-! ## Numbers -/

theorem append_cons_inj {α : Type*} {sep : α} {as bs cs ds : List α} (ha : sep ∉ as)
    (hb : sep ∉ bs) (h : as ++ sep :: cs = bs ++ sep :: ds) : as = bs ∧ cs = ds := by
  induction as generalizing bs with
  | nil =>
    cases bs with
    | nil => exact ⟨rfl, (List.cons.inj h).2⟩
    | cons b bs =>
      have hsep : sep = b := (List.cons.inj h).1
      exact absurd (hsep ▸ List.mem_cons_self) hb
  | cons a as ih =>
    cases bs with
    | nil =>
      have hsep : a = sep := (List.cons.inj h).1
      exact absurd (hsep ▸ List.mem_cons_self) ha
    | cons b bs =>
      obtain ⟨hhead, htail⟩ := List.cons.inj h
      have hrest := ih (fun hmem => ha (List.mem_cons_of_mem _ hmem))
        (fun hmem => hb (List.mem_cons_of_mem _ hmem)) htail
      rw [hhead, hrest.1]
      exact ⟨rfl, hrest.2⟩

theorem decimal_value (width n : Nat) :
    Nat.ofDigitChars 10 ((decimal n).leftpad width '0') 0 = n := by
  unfold List.leftpad decimal
  rw [Nat.ofDigitChars_append, Nat.ofDigitChars_replicate_zero, Nat.mul_zero,
    Nat.ofDigitChars_ten_toDigits]

theorem decimal_injective {m n : Nat} (h : decimal m = decimal n) : m = n := by
  have hvalue := congrArg (fun text => Nat.ofDigitChars 10 text 0) h
  simpa [decimal] using hvalue

theorem leftpad_injective {width m n : Nat}
    (h : (decimal m).leftpad width '0' = (decimal n).leftpad width '0') : m = n := by
  rw [← decimal_value width m, h, decimal_value]

theorem isDigit_of_mem_decimal {n : Nat} {c : Char} (h : c ∈ decimal n) : c.isDigit = true :=
  Nat.isDigit_of_mem_toDigits (by decide) (by decide) h

theorem isDigit_of_mem_leftpad {width n : Nat} {c : Char}
    (h : c ∈ (decimal n).leftpad width '0') : c.isDigit = true := by
  unfold List.leftpad at h
  rcases List.mem_append.mp h with hzero | hdigit
  · rw [(List.mem_replicate.mp hzero).2]
    rfl
  · exact isDigit_of_mem_decimal hdigit

theorem hyphen_notMem_leftpad (width n : Nat) : '-' ∉ (decimal n).leftpad width '0' := by
  intro hmem
  have := isDigit_of_mem_leftpad hmem
  contradiction

theorem length_leftpad_two {n : Nat} (h : n < 100) : ((decimal n).leftpad 2 '0').length = 2 := by
  have hlength : (decimal n).length ≤ 2 := (Nat.length_toDigits_le_iff (by decide) (by decide)).mpr h
  rw [List.length_leftpad]
  omega

theorem padded_eq_cons (width : Nat) (n : Int) :
    ∃ c rest, padded width n = c :: rest ∧ (c = '-' ∨ c.isDigit = true) ∧ '-' ∉ rest := by
  cases n with
  | ofNat n =>
    change ∃ c rest, (decimal n).leftpad width '0' = c :: rest ∧ _
    cases htext : (decimal n).leftpad width '0' with
    | nil =>
      have hlength := congrArg List.length htext
      have hpos : 0 < (decimal n).length := Nat.length_toDigits_pos
      rw [List.length_leftpad, List.length_nil] at hlength
      omega
    | cons c rest =>
      refine ⟨c, rest, rfl, .inr ?_, fun hmem => hyphen_notMem_leftpad width n ?_⟩
      · apply @isDigit_of_mem_leftpad width n
        rw [htext]
        exact List.mem_cons_self
      · rw [htext]
        exact List.mem_cons_of_mem _ hmem
  | negSucc n => exact ⟨'-', _, rfl, .inl rfl, hyphen_notMem_leftpad _ _⟩

theorem padded_injective {width : Nat} {m n : Int} (h : padded width m = padded width n) : m = n := by
  cases m with
  | ofNat m =>
    cases n with
    | ofNat n => exact congrArg Int.ofNat (leftpad_injective h)
    | negSucc n =>
      apply absurd _ (hyphen_notMem_leftpad width m)
      change '-' ∈ padded width (.ofNat m)
      rw [h]
      exact List.mem_cons_self
  | negSucc m =>
    cases n with
    | ofNat n =>
      apply absurd _ (hyphen_notMem_leftpad width n)
      change '-' ∈ padded width (.ofNat n)
      rw [← h]
      exact List.mem_cons_self
    | negSucc n =>
      have hsucc := leftpad_injective (List.cons.inj h).2
      rw [Nat.succ.inj hsucc]

/-! ## Nights -/

/-- A calendar date is its year, month and day; a month and a day take two digits at most. -/
structure Host.Calendar (H : Host) : Prop where
  date_ext : ∀ a b : H.Date, H.year a = H.year b → H.month a = H.month b → H.day a = H.day b → a = b
  month_lt : ∀ date, H.month date < 100
  day_lt : ∀ date, H.day date < 100

/-- What numbers a night folder after the first of its date. -/
def nightSuffix (index : Nat) : Text := if index = 0 then [] else '-' :: decimal (index + 1)

theorem nightSuffix_injective {i j : Nat} (h : nightSuffix i = nightSuffix j) : i = j := by
  unfold nightSuffix at h
  split at h
  · next hi =>
    split at h
    · next hj => omega
    · cases h
  · split at h
    · cases h
    · have := decimal_injective (List.cons.inj h).2
      omega

def nightBase : Option H.Date → Text
  | none => "NIGHT_unknown".toList
  | some date => "NIGHT_".toList ++ padded 4 (H.year date) ++
      '-' :: padded 2 (H.month date) ++ '-' :: padded 2 (H.day date)

theorem nightFolder_eq (night : Option H.Date) (index : Nat) :
    nightFolder night index = nightBase night ++ nightSuffix index := by
  unfold nightFolder nightSuffix
  by_cases hindex : index = 0
  · rw [if_pos hindex, if_pos hindex, List.append_nil]
    cases night <;> rfl
  · rw [if_neg hindex, if_neg hindex]
    cases night <;> rfl

theorem dateText_injective (hcalendar : H.Calendar) {a b : H.Date} {s t : Text}
    (h : padded 4 (H.year a) ++ '-' :: (padded 2 (H.month a) ++ '-' :: (padded 2 (H.day a) ++ s)) =
      padded 4 (H.year b) ++ '-' :: (padded 2 (H.month b) ++ '-' :: (padded 2 (H.day b) ++ t))) :
    a = b ∧ s = t := by
  obtain ⟨c, rest, hyear, -, hrest⟩ := padded_eq_cons 4 (H.year a)
  obtain ⟨d, rest', hyear', -, hrest'⟩ := padded_eq_cons 4 (H.year b)
  rw [hyear, hyear'] at h
  obtain ⟨hfirst, h⟩ := List.cons.inj h
  obtain ⟨hyears, h⟩ := append_cons_inj hrest hrest' h
  have hsameYear : H.year a = H.year b := by
    apply @padded_injective 4
    rw [hyear, hyear', hfirst, hyears]
  obtain ⟨hmonths, h⟩ := append_cons_inj (hyphen_notMem_leftpad 2 (H.month a))
    (hyphen_notMem_leftpad 2 (H.month b)) h
  have hlength : (padded 2 (H.day a)).length = (padded 2 (H.day b)).length := by
    change ((decimal (H.day a)).leftpad 2 '0').length = ((decimal (H.day b)).leftpad 2 '0').length
    rw [length_leftpad_two (hcalendar.day_lt a), length_leftpad_two (hcalendar.day_lt b)]
  obtain ⟨hdays, hsuffix⟩ := List.append_inj h hlength
  exact ⟨hcalendar.date_ext a b hsameYear (leftpad_injective hmonths) (leftpad_injective hdays),
    hsuffix⟩

theorem nightBase_none :
    nightBase (none : Option H.Date) = "NIGHT_".toList ++ "unknown".toList := by
  have htext : "NIGHT_unknown".toList = "NIGHT_".toList ++ "unknown".toList := by decide
  exact htext

theorem nightBase_some (date : H.Date) (suffix : Text) :
    nightBase (some date) ++ suffix = "NIGHT_".toList ++ (padded 4 (H.year date) ++
      '-' :: (padded 2 (H.month date) ++ '-' :: (padded 2 (H.day date) ++ suffix))) := by
  unfold nightBase
  generalize "NIGHT_".toList = start
  simp only [List.append_assoc, List.cons_append]

theorem nightBase_unknown_ne (date : H.Date) (s t : Text) :
    nightBase (none : Option H.Date) ++ s ≠ nightBase (some date) ++ t := by
  intro h
  rw [nightBase_none, nightBase_some, List.append_assoc] at h
  have hrest := List.append_cancel_left h
  obtain ⟨c, rest, hyear, hfirst, -⟩ := padded_eq_cons 4 (H.year date)
  rw [hyear] at hrest
  have hc : 'u' = c := (List.cons.inj hrest).1
  rw [← hc] at hfirst
  cases hfirst with
  | inl h => cases h
  | inr h => cases h

theorem nightFolder_injective (hcalendar : H.Calendar) {night night' : Option H.Date}
    {index index' : Nat} (h : nightFolder night index = nightFolder night' index') :
    night = night' ∧ index = index' := by
  rw [nightFolder_eq, nightFolder_eq] at h
  cases night with
  | none =>
    cases night' with
    | none => exact ⟨rfl, nightSuffix_injective (List.append_cancel_left h)⟩
    | some date => exact absurd h (nightBase_unknown_ne date _ _)
  | some date =>
    cases night' with
    | none => exact absurd h.symm (nightBase_unknown_ne date _ _)
    | some date' =>
      rw [nightBase_some, nightBase_some] at h
      obtain ⟨hdate, hsuffix⟩ := dateText_injective hcalendar (List.append_cancel_left h)
      exact ⟨congrArg some hdate, nightSuffix_injective hsuffix⟩

/-! ## Groups -/

theorem orClash_eq_ok {α : Type} {x : Result α} {a : α} : orClash x = .ok a ↔ x = .ok a := by
  cases x <;> simp [orClash]

theorem underscore_mem_groupFolder {keywords : GroupKeywords} {name folder : Text} {panel : Bool}
    (h : groupFolder H keywords name panel = .ok folder) : '_' ∈ folder := by
  unfold groupFolder at h
  simp only [Result.bind_eq_ok, Except.ok.injEq] at h
  obtain ⟨token, -, rfl⟩ := h
  apply List.mem_append_left
  apply List.mem_append_right
  exact List.mem_singleton.mpr rfl

theorem groupFoldersFrom_eq_ok {keywords : GroupKeywords} {taken : List (Text × Text)}
    {groups : List (BasisGroup H)} {folders : List (Uuid × Option Text)}
    (h : groupFoldersFrom keywords taken groups = .ok folders) :
    ∃ named : List (Uuid × Text), folders = named.map (fun entry => (entry.1, some entry.2)) ∧
      named.map Prod.fst = groups.map BasisGroup.id ∧
      (named.map fun entry => nameKey H entry.2).Nodup ∧
      ∀ entry ∈ named, taken.lookup (nameKey H entry.2) = none ∧ '_' ∈ entry.2 := by
  induction groups generalizing taken folders with
  | nil =>
    cases h
    exact ⟨[], rfl, rfl, List.nodup_nil, fun _ hmem => absurd hmem List.not_mem_nil⟩
  | cons group groups ih =>
    unfold groupFoldersFrom at h
    cases hfolder : orClash (groupFolder H keywords group.name group.panel) with
    | error error =>
      rw [hfolder] at h
      cases h
    | ok folder =>
      rw [hfolder] at h
      dsimp only [bind, Except.bind] at h
      cases htaken : taken.lookup (nameKey H folder) with
      | some other =>
        rw [htaken] at h
        cases h
      | none =>
        rw [htaken] at h
        change (groupFoldersFrom keywords ((nameKey H folder, group.name) :: taken) groups >>=
          fun folders => .ok ((group.id, some folder) :: folders)) = _ at h
        cases hrest : groupFoldersFrom keywords ((nameKey H folder, group.name) :: taken) groups with
        | error error =>
          rw [hrest] at h
          cases h
        | ok rest =>
          rw [hrest] at h
          cases h
          obtain ⟨named, rfl, hids, hnodup, hfree⟩ := ih hrest
          have hnew : ∀ entry ∈ named, nameKey H entry.2 ≠ nameKey H folder ∧
              taken.lookup (nameKey H entry.2) = none := by
            intro entry hentry
            have hlookup := (hfree entry hentry).1
            rw [List.lookup_cons] at hlookup
            by_cases hkey : nameKey H entry.2 = nameKey H folder
            · rw [hkey, beq_self_eq_true] at hlookup
              cases hlookup
            · rw [beq_false_of_ne hkey] at hlookup
              exact ⟨hkey, hlookup⟩
          refine ⟨(group.id, folder) :: named, rfl, ?_, ?_, ?_⟩
          · rw [List.map_cons, List.map_cons, hids]
          · rw [List.map_cons, List.nodup_cons]
            refine ⟨fun hmem => ?_, hnodup⟩
            obtain ⟨entry, hentry, hkey⟩ := List.mem_map.mp hmem
            exact (hnew entry hentry).1 hkey
          · intro entry hentry
            cases List.mem_cons.mp hentry with
            | inl heq =>
              rw [heq]
              exact ⟨htaken, underscore_mem_groupFolder (orClash_eq_ok.mp hfolder)⟩
            | inr hmem => exact ⟨(hnew entry hmem).2, (hfree entry hmem).2⟩

section GroupFolders

variable {input : PlanInput H} {names : Names}

theorem names_eq_ok (h : Names.new input = .ok names) :
    groupFolders input.basis = .ok names.groupFolders ∧
      filterTokens H [] (filterRaws H input.rawFilters) = .ok names.filters ∧
      (names.calibrationInGroups = true → input.basis.hasGroupFolders = true) := by
  unfold Names.new at h
  cases hfolders : groupFolders input.basis with
  | error error =>
    rw [hfolders] at h
    cases h
  | ok folders =>
    rw [hfolders] at h
    change (filterTokens H [] (filterRaws H input.rawFilters) >>= _) = _ at h
    cases hfilters : filterTokens H [] (filterRaws H input.rawFilters) with
    | error error =>
      rw [hfilters] at h
      cases h
    | ok filters =>
      rw [hfilters] at h
      cases h
      refine ⟨rfl, rfl, fun hgroups => ?_⟩
      exact (Bool.and_eq_true_iff.mp hgroups).1

theorem groupFolder_mem {id : Uuid} {folder : Text} (h : names.groupFolder id = some folder) :
    (id, some folder) ∈ names.groupFolders := by
  unfold Names.groupFolder at h
  have hlookup := Option.join_eq_some_iff.mp h
  obtain ⟨front, back, heq, -⟩ := List.lookup_eq_some_iff.mp hlookup
  apply List.mem_reverse.mp
  rw [heq]
  exact List.mem_append_right _ List.mem_cons_self

theorem exists_groupFolder (hnames : Names.new input = .ok names)
    (hfolders : input.basis.hasGroupFolders = true) {group : BasisGroup H}
    (hgroup : group ∈ input.basis.groups) : ∃ folder, names.groupFolder group.id = some folder := by
  have h := (names_eq_ok hnames).1
  unfold groupFolders at h
  rw [if_pos hfolders] at h
  obtain ⟨named, hnamed, hids, -, -⟩ := groupFoldersFrom_eq_ok h
  have hmem : group.id ∈ names.groupFolders.reverse.map Prod.fst := by
    rw [List.map_reverse, List.mem_reverse, hnamed, List.map_map]
    change group.id ∈ named.map Prod.fst
    rw [hids]
    exact List.mem_map_of_mem hgroup
  unfold Names.groupFolder
  cases hlookup : names.groupFolders.reverse.lookup group.id with
  | none =>
    obtain ⟨entry, hentry, hid⟩ := List.mem_map.mp hmem
    have hne := List.lookup_eq_none_iff.mp hlookup entry hentry
    rw [hid] at hne
    simp at hne
  | some found =>
    obtain ⟨front, back, heq, -⟩ := List.lookup_eq_some_iff.mp hlookup
    have hfound : (group.id, found) ∈ names.groupFolders := by
      apply List.mem_reverse.mp
      rw [heq]
      exact List.mem_append_right _ List.mem_cons_self
    rw [hnamed] at hfound
    obtain ⟨entry, -, hentry⟩ := List.mem_map.mp hfound
    exact ⟨entry.2, by rw [← (Prod.mk.inj hentry).2]; rfl⟩

theorem groupFolder_injective (hnames : Names.new input = .ok names) {a b : Uuid}
    {folder other : Text} (ha : names.groupFolder a = some folder)
    (hb : names.groupFolder b = some other) (h : nameKey H folder = nameKey H other) : a = b := by
  have hfolders := (names_eq_ok hnames).1
  have hmem := groupFolder_mem ha
  have hmem' := groupFolder_mem hb
  unfold groupFolders at hfolders
  split at hfolders
  · obtain ⟨named, hnamed, -, hnodup, -⟩ := groupFoldersFrom_eq_ok hfolders
    rw [hnamed] at hmem hmem'
    obtain ⟨entry, hentry, heq⟩ := List.mem_map.mp hmem
    obtain ⟨entry', hentry', heq'⟩ := List.mem_map.mp hmem'
    cases heq
    cases heq'
    rw [List.inj_on_of_nodup_map hnodup hentry hentry' h]
  · rw [← Except.ok.inj hfolders] at hmem
    obtain ⟨group, -, hgroup⟩ := List.mem_map.mp hmem
    cases (Prod.mk.inj hgroup).2

theorem underscore_mem_of_groupFolder (hnames : Names.new input = .ok names) {id : Uuid}
    {folder : Text} (h : names.groupFolder id = some folder) : '_' ∈ folder := by
  have hfolders := (names_eq_ok hnames).1
  have hmem := groupFolder_mem h
  unfold groupFolders at hfolders
  split at hfolders
  · obtain ⟨named, hnamed, -, -, hfree⟩ := groupFoldersFrom_eq_ok hfolders
    rw [hnamed] at hmem
    obtain ⟨entry, hentry, heq⟩ := List.mem_map.mp hmem
    cases heq
    exact (hfree entry hentry).2
  · rw [← Except.ok.inj hfolders] at hmem
    obtain ⟨group, -, hgroup⟩ := List.mem_map.mp hmem
    cases (Prod.mk.inj hgroup).2

theorem length_groupRoot (hnames : Names.new input = .ok names) {group : BasisGroup H}
    (hgroup : group ∈ input.basis.groups) :
    (names.groupFolder group.id).toList.length = if input.basis.hasGroupFolders then 1 else 0 := by
  by_cases hfolders : input.basis.hasGroupFolders = true
  · obtain ⟨folder, hfolder⟩ := exists_groupFolder hnames hfolders hgroup
    rw [hfolder, if_pos hfolders]
    rfl
  · rw [if_neg hfolders]
    cases hfolder : names.groupFolder group.id with
    | none => rfl
    | some folder =>
      have h := (names_eq_ok hnames).1
      unfold groupFolders at h
      rw [if_neg hfolders] at h
      have hmem := groupFolder_mem hfolder
      rw [← Except.ok.inj h] at hmem
      obtain ⟨other, -, hother⟩ := List.mem_map.mp hmem
      cases (Prod.mk.inj hother).2

theorem group_of_groupRoot (hnames : Names.new input = .ok names) {a b : BasisGroup H}
    (ha : a ∈ input.basis.groups) (hb : b ∈ input.basis.groups)
    (h : (names.groupFolder a.id).toList = (names.groupFolder b.id).toList) : a.id = b.id := by
  by_cases hfolders : input.basis.hasGroupFolders = true
  · obtain ⟨folder, hfolder⟩ := exists_groupFolder hnames hfolders ha
    obtain ⟨other, hother⟩ := exists_groupFolder hnames hfolders hb
    apply groupFolder_injective hnames hfolder hother
    rw [hfolder, hother] at h
    rw [(List.cons.inj h).1]
  · have hlength : input.basis.groups.length ≤ 1 := by
      unfold ProjectBasis.hasGroupFolders at hfolders
      simpa using hfolders
    cases hgroups : input.basis.groups with
    | nil =>
      rw [hgroups] at ha
      cases ha
    | cons group rest =>
      rw [hgroups, List.length_cons] at hlength
      have hrest : rest = [] := List.eq_nil_of_length_eq_zero (by omega)
      rw [hgroups, hrest, List.mem_singleton] at ha hb
      rw [ha, hb]

end GroupFolders

end PlateVault.View
