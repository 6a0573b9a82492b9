import PlateVault.View.Plan

/-!
# Entry names

Every name a newcomer takes fits one path component. It is free exactly when one of its candidates
is: its own name, or one of the forms with 8 to 32 digits of its id. `RoomForEach` says so of all
newcomers in their order.
-/

namespace PlateVault.View

variable {H : Host}

/-! ## Lengths -/

@[simp] theorem componentLen_nil : componentLen H [] = 0 := rfl

@[simp] theorem componentLen_cons (c : Char) (text : Text) :
    componentLen H (c :: text) = charLen H c + componentLen H text := rfl

@[simp] theorem componentLen_append (left right : Text) :
    componentLen H (left ++ right) = componentLen H left + componentLen H right := by
  simp [componentLen]

theorem componentLen_sublist {left right : Text} (h : left.Sublist right) :
    componentLen H left ≤ componentLen H right := by
  induction h with
  | slnil => exact Nat.le_refl _
  | cons c _ ih => simp only [componentLen_cons]; omega
  | cons_cons c _ ih => simp only [componentLen_cons]; omega

theorem componentLen_fitting (room : Nat) (text : Text) :
    componentLen H (fitting H room text) ≤ room := by
  induction text generalizing room with
  | nil => exact Nat.zero_le _
  | cons c rest ih =>
    unfold fitting
    split
    · have := ih (room - charLen H c)
      simp only [componentLen_cons]
      omega
    · exact Nat.zero_le _

theorem trimEndMatches_sublist (p : Char → Bool) (text : Text) :
    (trimEndMatches p text).Sublist text := by
  have h := (List.dropWhile_sublist p (l := text.reverse)).reverse
  rwa [List.reverse_reverse] at h

theorem componentLen_capped {name suffix : Text} {limit : Nat}
    (hsuffix : componentLen H suffix ≤ limit) :
    componentLen H (capped H name limit suffix) ≤ limit := by
  unfold capped
  split
  · assumption
  · have htrim := componentLen_sublist (H := H) (trimEndMatches_sublist isHyphenOrDot
      (fitting H (limit - componentLen H suffix) name))
    have hfit := componentLen_fitting (H := H) (limit - componentLen H suffix) name
    rw [componentLen_append]
    omega

theorem charLen_ascii {c : Char} (h : c.toNat < 128) : charLen H c = 1 := by
  unfold charLen
  have hsize : c.utf8Size = 1 := Char.utf8Size_eq_one_iff.mpr (UInt32.le_iff_toNat_le.mpr (by
    have : c.val.toNat = c.toNat := rfl
    have : (127 : UInt32).toNat = 127 := rfl
    omega))
  split
  · rw [if_pos (by omega)]
  · exact hsize

theorem componentLen_ascii {text : Text} (h : ∀ c ∈ text, c.toNat < 128) :
    componentLen H text = text.length := by
  induction text with
  | nil => rfl
  | cons c rest ih =>
    rw [componentLen_cons, charLen_ascii (h c List.mem_cons_self),
      ih fun d hd => h d (List.mem_cons_of_mem _ hd), List.length_cons, Nat.add_comm]

theorem digitChar_ascii {n : Nat} (h : n < 16) : n.digitChar.toNat < 128 := by
  have : ∀ n < 16, n.digitChar.toNat < 128 := by decide
  exact this n h

theorem hexDigits_ascii (width n : Nat) : ∀ c ∈ Uuid.hexDigits width n, c.toNat < 128 := by
  intro c hc
  obtain ⟨digit, hdigit, rfl⟩ := Uuid.mem_hexDigits hc
  exact digitChar_ascii hdigit

theorem componentLen_idDigits (id : Uuid) (digits : Nat) :
    componentLen H (id.simple.take digits) ≤ 32 := by
  have hlen := componentLen_ascii (H := H) fun c hc =>
    hexDigits_ascii 32 id.val c (List.mem_of_mem_take (i := digits) hc)
  have : (Uuid.hexDigits 32 id.val).length = 32 := Uuid.hexDigits_length 32 id.val
  unfold Uuid.simple
  rw [hlen, List.length_take]
  omega

theorem componentLen_extension (source : Text) :
    componentLen H (stemAndExtension H source).2 ≤ 127 := by
  unfold stemAndExtension
  split
  · split
    · next hshort =>
      have hdot : charLen H '.' = 1 := charLen_ascii (by decide)
      have hlen := of_decide_eq_true (Bool.and_eq_true_iff.mp hshort).2
      unfold componentLimit at hlen
      simp only [componentLen_cons]
      omega
    · exact Nat.zero_le _
  · exact Nat.zero_le _

theorem componentLen_suffixedName (source : Text) (id : Uuid) (digits : Nat) :
    componentLen H (suffixedName H source id digits) ≤ componentLimit := by
  have hhyphen : charLen H '-' = 1 := charLen_ascii (by decide)
  have hdigits := componentLen_idDigits (H := H) id digits
  have hext := componentLen_extension (H := H) source
  unfold suffixedName
  generalize stemAndExtension H source = parts at *
  obtain ⟨stem, extension⟩ := parts
  simp only at hext ⊢
  have hsuffix : componentLen H ('-' :: id.simple.take digits ++ extension) ≤ componentLimit := by
    simp only [List.cons_append, componentLen_cons, componentLen_append]
    unfold componentLimit
    omega
  have hstem : componentLen H (capped H stem (componentLimit -
      componentLen H ('-' :: id.simple.take digits ++ extension)) []) ≤
      componentLimit - componentLen H ('-' :: id.simple.take digits ++ extension) :=
    componentLen_capped (Nat.zero_le _)
  rw [componentLen_append]
  omega

/-! ## Candidates -/

variable (H) in
/-- The names an input may take, in the order they are tried. -/
def candidates (source : Text) (id : Uuid) : List Text :=
  (if componentLen H (ownName source) ≤ componentLimit then [ownName source] else []) ++
    (List.range' 8 25).map (suffixedName H (ownName source) id)

theorem componentLen_candidates {source name : Text} {id : Uuid}
    (h : name ∈ candidates H source id) : componentLen H name ≤ componentLimit := by
  rcases List.mem_append.mp h with h | h
  · split at h
    · rwa [List.mem_singleton.mp h]
    · cases h
  · obtain ⟨digits, _, rfl⟩ := List.mem_map.mp h
    exact componentLen_suffixedName _ _ _

theorem extendSuffix_eq (source : Text) (id : Uuid) (taken : Text → Bool) (digits left : Nat) :
    extendSuffix H source id taken digits left =
      (((List.range' digits (left + 1)).map (suffixedName H source id)).find?
        fun name => !taken name).getD (suffixedName H source id (digits + left)) := by
  induction left generalizing digits with
  | zero =>
    simp only [extendSuffix, Nat.zero_add, List.range'_one, List.map_cons, List.map_nil,
      List.find?_cons, List.find?_nil, Nat.add_zero]
    cases taken (suffixedName H source id digits) <;> rfl
  | succ left ih =>
    rw [List.range'_succ, List.map_cons, List.find?_cons, extendSuffix, ih (digits + 1)]
    cases taken (suffixedName H source id digits) with
    | false => rfl
    | true => simp only [Bool.not_true, Bool.false_eq_true, ↓reduceIte, Nat.add_right_comm,
        Nat.add_assoc]

theorem entryBasename_eq (source : Text) (id : Uuid) (taken : Text → Bool) :
    entryBasename H source id taken =
      ((candidates H source id).find? fun name => !taken name).getD
        (suffixedName H (ownName source) id 32) := by
  unfold entryBasename candidates
  simp only [extendSuffix_eq]
  by_cases hfits : componentLen H (ownName source) ≤ componentLimit
  · cases htaken : taken (ownName source) with
    | false => simp [hfits, htaken]
    | true => simp [hfits, htaken]
  · simp [hfits]

theorem suffixedName_mem_candidates (source : Text) (id : Uuid) :
    suffixedName H (ownName source) id 32 ∈ candidates H source id :=
  List.mem_append_right _ (List.mem_map_of_mem (by decide))

theorem entryBasename_mem (source : Text) (id : Uuid) (taken : Text → Bool) :
    entryBasename H source id taken ∈ candidates H source id := by
  rw [entryBasename_eq]
  cases hfound : (candidates H source id).find? fun name => !taken name with
  | none => exact suffixedName_mem_candidates source id
  | some name => exact List.mem_of_find?_eq_some hfound

theorem componentLen_entryBasename (source : Text) (id : Uuid) (taken : Text → Bool) :
    componentLen H (entryBasename H source id taken) ≤ componentLimit :=
  componentLen_candidates (entryBasename_mem source id taken)

theorem entryBasename_free (source : Text) (id : Uuid) (taken : Text → Bool) :
    taken (entryBasename H source id taken) = false ↔
      (candidates H source id).find? (fun name => !taken name) =
        some (entryBasename H source id taken) := by
  constructor
  · intro hfree
    cases hfound : (candidates H source id).find? fun name => !taken name with
    | none =>
      have := List.find?_eq_none.mp hfound _ (entryBasename_mem source id taken)
      simp [hfree] at this
    | some name => rw [entryBasename_eq, hfound, Option.getD_some]
  · intro hfound
    simpa using List.find?_some hfound

/-! ## Newcomers -/

/-- Every newcomer in turn has a candidate no earlier name holds, and takes the first one. -/
def RoomForEach (input : PlanInput H) (taken : List Text) : List (EntryInput × Uuid) → Prop
  | [] => True
  | (entryInput, sourceId) :: rest =>
    match (candidates H (sourceName input sourceId) entryInput.id).find?
        fun name => !taken.contains (nameKey H name) with
    | none => False
    | some name => RoomForEach input (nameKey H name :: taken) rest

theorem EntryName.new_eq_ok {input : EntryInput} {basename : Text} {name : EntryName H}
    (h : EntryName.new H input basename = .ok name) :
    name.input = input ∧ name.basename = basename := by
  unfold EntryName.new at h
  split at h
  · split at h
    · cases h
    · split at h
      · cases h
      · cases h
        exact ⟨rfl, rfl⟩
  · cases h

theorem nameNewcomers_cons {input : PlanInput H} {taken : List Text} {entryInput : EntryInput}
    {sourceId : Uuid} {rest : List (EntryInput × Uuid)} {names : List (EntryName H)}
    (h : nameNewcomers input taken ((entryInput, sourceId) :: rest) = .ok names) :
    ∃ name others, names = name :: others ∧ name.input = entryInput ∧
      name.basename = entryBasename H (sourceName input sourceId) entryInput.id
        (fun candidate => taken.contains (nameKey H candidate)) ∧
      nameNewcomers input (nameKey H name.basename :: taken) rest = .ok others := by
  unfold nameNewcomers at h
  simp only at h
  split at h
  · cases h
  · next name hname =>
    obtain ⟨hinput, hbasename⟩ := EntryName.new_eq_ok hname
    cases hrest : nameNewcomers input (nameKey H name.basename :: taken) rest with
    | error error =>
      rw [hrest] at h
      cases h
    | ok others =>
      rw [hrest] at h
      cases h
      exact ⟨name, others, rfl, hinput, hbasename, hrest⟩

theorem nameNewcomers_inputs {input : PlanInput H} {taken : List Text}
    {newcomers : List (EntryInput × Uuid)} {names : List (EntryName H)}
    (h : nameNewcomers input taken newcomers = .ok names) :
    names.map EntryName.input = newcomers.map Prod.fst := by
  induction newcomers generalizing taken names with
  | nil => cases h; rfl
  | cons newcomer rest ih =>
    obtain ⟨name, others, rfl, hinput, _, hrest⟩ := nameNewcomers_cons h
    rw [List.map_cons, List.map_cons, hinput, ih hrest]

theorem nameNewcomers_fit {input : PlanInput H} {taken : List Text}
    {newcomers : List (EntryInput × Uuid)} {names : List (EntryName H)}
    (h : nameNewcomers input taken newcomers = .ok names) :
    ∀ name ∈ names, componentLen H name.basename ≤ componentLimit := by
  induction newcomers generalizing taken names with
  | nil => cases h; intro name hname; cases hname
  | cons newcomer rest ih =>
    obtain ⟨name, others, rfl, _, hbasename, hrest⟩ := nameNewcomers_cons h
    intro other hother
    rcases List.mem_cons.mp hother with rfl | hother
    · rw [hbasename]
      exact componentLen_entryBasename _ _ _
    · exact ih hrest other hother

theorem nameNewcomers_distinct_iff {input : PlanInput H} {taken : List Text}
    {newcomers : List (EntryInput × Uuid)} {names : List (EntryName H)}
    (h : nameNewcomers input taken newcomers = .ok names) :
    (names.map fun name => nameKey H name.basename).Nodup ∧
        (∀ name ∈ names, nameKey H name.basename ∉ taken) ↔
      RoomForEach input taken newcomers := by
  induction newcomers generalizing taken names with
  | nil => cases h; simp [RoomForEach]
  | cons newcomer rest ih =>
    obtain ⟨entryInput, sourceId⟩ := newcomer
    obtain ⟨name, others, rfl, _, hbasename, hrest⟩ := nameNewcomers_cons h
    have hfree : taken.contains (nameKey H name.basename) = false ↔
        (candidates H (sourceName input sourceId) entryInput.id).find?
          (fun name => !taken.contains (nameKey H name)) = some name.basename := by
      rw [hbasename]
      exact entryBasename_free _ _ fun candidate => taken.contains (nameKey H candidate)
    unfold RoomForEach
    by_cases hhead : nameKey H name.basename ∈ taken
    · -- the head's name is taken, so no candidate was free
      have hnone : (candidates H (sourceName input sourceId) entryInput.id).find?
          (fun name => !taken.contains (nameKey H name)) = none := by
        cases hfound : (candidates H (sourceName input sourceId) entryInput.id).find?
          fun name => !taken.contains (nameKey H name) with
        | none => rfl
        | some found =>
          have heq : name.basename = found := by
            rw [hbasename, entryBasename_eq, hfound, Option.getD_some]
          have := List.find?_some hfound
          simp [← heq, hhead] at this
      rw [hnone]
      exact ⟨fun hdistinct => hdistinct.2 name List.mem_cons_self hhead, False.elim⟩
    · rw [hfree.mp (by simpa using hhead)]
      simp only
      rw [← ih hrest]
      rw [List.map_cons, List.nodup_cons, List.forall_mem_cons]
      simp only [List.mem_map, List.mem_cons, not_or]
      constructor
      · intro ⟨⟨hnew, hnodup⟩, _, hothers⟩
        exact ⟨hnodup, fun other hother => ⟨fun heq => hnew ⟨other, hother, heq⟩,
          hothers other hother⟩⟩
      · intro ⟨hnodup, hothers⟩
        exact ⟨⟨fun ⟨other, hother, heq⟩ => (hothers other hother).1 heq, hnodup⟩, hhead,
          fun other hother => (hothers other hother).2⟩

end PlateVault.View
