import PlateVault.Naming.Pieces
import PlateVault.View.Calibrated

/-!
# Light folders

The name of a light folder joins a filter's token, gain, offset and exposure with underscores. No
part holds one, so the parts read back, and the settings with them, but for a filter token that
reads as an exposure. Tokens differ unless a suffixed one was already used.
-/

namespace PlateVault.View

variable {H : Host}

/-! ## Texts -/

/-- What the text functions do to ASCII, and the texts numbers are written as. -/
structure Host.Ascii (H : Host) : Prop where
  nfc_ascii : ∀ text, (∀ c ∈ text, c.toNat < 128) → H.nfc text = text
  lower_ascii : ∀ text, (∀ c ∈ text, c.toNat < 128) → H.lower text = text.map Char.toLower
  sha_hex : ∀ text, ∀ c ∈ H.sha256 text, c.isDigit = true ∨ c ∈ ['a', 'b', 'c', 'd', 'e', 'f']
  display_number : ∀ x, H.display x ∈ ["NaN".toList, "inf".toList, "-inf".toList] ∨
    ∀ c ∈ H.display x, c.isDigit = true ∨ c = '-' ∨ c = '.'

/-- ASCII without the character that separates the parts of a folder name. -/
def IsPart (text : Text) : Prop := ∀ c ∈ text, c.toNat < 128 ∧ c ≠ '_'

/-- `NaN`, an infinity or a decimal. -/
def IsNumber (text : Text) : Prop :=
  text ∈ ["NaN".toList, "inf".toList, "-inf".toList] ∨
    ∀ c ∈ text, c.isDigit = true ∨ c = '-' ∨ c = '.'

theorem isDigit_lt {c : Char} (h : c.isDigit = true) : 48 ≤ c.toNat ∧ c.toNat ≤ 57 := by
  simp only [Char.isDigit, Bool.and_eq_true, decide_eq_true_eq] at h
  exact ⟨UInt32.le_iff_toNat_le.mp h.1, UInt32.le_iff_toNat_le.mp h.2⟩

theorem of_ascii {p : Char → Prop} (h : ∀ n < 128, p (Char.ofNat n)) {c : Char}
    (hc : c.toNat < 128) : p c := by
  rw [← Char.ofNat_toNat c]
  exact h c.toNat hc

theorem forall_of_all {text : Text} {p : Char → Prop} [DecidablePred p]
    (h : (text.all fun c => decide (p c)) = true) : ∀ c ∈ text, p c := fun c hc =>
  of_decide_eq_true (List.all_eq_true.mp h c hc)

theorem toLower_of_small {c : Char} (h : c.toNat < 65) : c.toLower = c := by
  apply @of_ascii (fun c => c.toNat < 65 → c.toLower = c) (by decide) c (by omega) h

theorem toLower_eq_underscore {c : Char} (hc : c.toNat < 128) (h : c.toLower = '_') : c = '_' :=
  @of_ascii (fun c => c.toLower = '_' → c = '_') (by decide) c hc h

theorem IsPart.nameKey (hascii : H.Ascii) {text : Text} (h : ∀ c ∈ text, c.toNat < 128) :
    nameKey H text = text.map Char.toLower := by
  unfold View.nameKey
  rw [hascii.nfc_ascii text h, hascii.lower_ascii text h]

theorem IsPart.lower {text : Text} (h : IsPart text) : '_' ∉ text.map Char.toLower := by
  intro hmem
  obtain ⟨c, hc, hlower⟩ := List.mem_map.mp hmem
  exact (h c hc).2 (toLower_eq_underscore (h c hc).1 hlower)

theorem IsNumber.isPart {text : Text} (h : IsNumber text) : IsPart text := by
  rcases h with h | h
  · simp only [List.mem_cons, List.not_mem_nil, or_false] at h
    rcases h with rfl | rfl | rfl <;> exact forall_of_all (by decide)
  · intro c hc
    rcases h c hc with hdigit | rfl | rfl
    · have := isDigit_lt hdigit
      refine ⟨by omega, ?_⟩
      rintro rfl
      exact absurd hdigit (by decide)
    · decide
    · decide

theorem IsNumber.lower {text : Text} (h : IsNumber text) :
    text.map Char.toLower = if text = "NaN".toList then "nan".toList else text := by
  rcases h with h | h
  · have hwords : ∀ word ∈ ["NaN".toList, "inf".toList, "-inf".toList],
        word.map Char.toLower = if word = "NaN".toList then "nan".toList else word := by
      decide
    exact hwords text h
  · rw [if_neg]
    · conv_rhs => rw [← List.map_id text]
      apply List.map_congr_left
      intro c hc
      apply toLower_of_small
      rcases h c hc with hdigit | rfl | rfl
      · have := isDigit_lt hdigit
        omega
      · decide
      · decide
    · rintro rfl
      exact absurd (h 'N' (by decide)) (by decide)

theorem not_isNumber_nan : ¬ IsNumber "nan".toList := by
  rintro (h | h)
  · exact absurd h (by decide)
  · exact absurd (h 'n' (by decide)) (by decide)

theorem IsNumber.lower_injective {left right : Text} (hleft : IsNumber left)
    (hright : IsNumber right) (h : left.map Char.toLower = right.map Char.toLower) :
    left = right := by
  rw [hleft.lower, hright.lower] at h
  by_cases hl : left = "NaN".toList
  · by_cases hr : right = "NaN".toList
    · rw [hl, hr]
    · rw [if_pos hl, if_neg hr] at h
      exact absurd hright (h ▸ not_isNumber_nan)
  · by_cases hr : right = "NaN".toList
    · rw [if_neg hl, if_pos hr] at h
      exact absurd hleft (h ▸ not_isNumber_nan)
    · rwa [if_neg hl, if_neg hr] at h

/-! ## Tokens -/

theorem tokenChar_isPart {c kept : Char} (h : tokenChar c = some kept) :
    kept.toNat < 128 ∧ kept ≠ '_' := by
  unfold tokenChar at h
  split at h
  · next hkept =>
    cases h
    simp only [Bool.or_eq_true, decide_eq_true_eq] at hkept
    rcases hkept with ((halnum | rfl) | rfl) | rfl
    · refine ⟨?_, ?_⟩
      · simp only [Char.isAlphanum, Char.isAlpha, Char.isUpper, Char.isLower, Char.isDigit,
          Bool.or_eq_true, Bool.and_eq_true, decide_eq_true_eq, UInt32.le_iff_toNat_le,
          ge_iff_le] at halnum
        have hval : c.toNat = c.val.toNat := rfl
        have hcodes : ('Z'.val.toNat, 'z'.val.toNat, '9'.val.toNat) = (90, 122, 57) := by decide
        simp only [Prod.mk.injEq] at hcodes
        omega
      · rintro rfl
        exact absurd halnum (by decide)
    · decide
    · decide
    · decide
  · split at h
    · cases h
      decide
    · cases h

theorem pushToken_isPart {token : Text} (h : IsPart token) (c : Char) :
    IsPart (pushToken token c) := by
  unfold pushToken
  split
  · exact h
  · next kept hkept =>
    split
    · exact h
    · intro d hd
      rcases List.mem_append.mp hd with hd | hd
      · exact h d hd
      · rw [List.mem_singleton.mp hd]
        exact tokenChar_isPart hkept

theorem foldl_pushToken_isPart {token : Text} (h : IsPart token) (text : Text) :
    IsPart (text.foldl pushToken token) := by
  induction text generalizing token with
  | nil => exact h
  | cons c rest ih => exact ih (pushToken_isPart h c)

theorem mem_of_mem_fitting {room : Nat} {text : Text} {c : Char}
    (h : c ∈ fitting H room text) : c ∈ text := by
  induction text generalizing room with
  | nil => exact h
  | cons d rest ih =>
    unfold fitting at h
    split at h
    · rcases List.mem_cons.mp h with h | h
      · exact h ▸ List.mem_cons_self
      · exact List.mem_cons_of_mem _ (ih h)
    · cases h

theorem capped_isPart {name suffix : Text} {limit : Nat} (hname : IsPart name)
    (hsuffix : IsPart suffix) : IsPart (capped H name limit suffix) := by
  unfold capped
  split
  · exact hname
  · intro c hc
    rcases List.mem_append.mp hc with hc | hc
    · exact hname c (mem_of_mem_fitting ((trimEndMatches_sublist _ _).subset hc))
    · exact hsuffix c hc

theorem mem_digestSuffix (hascii : H.Ascii) {text : Text} {c : Char}
    (h : c ∈ digestSuffix H text) :
    c.isDigit = true ∨ c ∈ ['-', 'a', 'b', 'c', 'd', 'e', 'f'] := by
  rcases List.mem_cons.mp h with rfl | h
  · exact .inr List.mem_cons_self
  · rcases hascii.sha_hex text c (List.mem_of_mem_take h) with hdigit | hletter
    · exact .inl hdigit
    · exact .inr (List.mem_cons_of_mem _ hletter)

theorem hex_isPart {c : Char}
    (h : c.isDigit = true ∨ c ∈ ['-', 'a', 'b', 'c', 'd', 'e', 'f']) :
    c.toNat < 128 ∧ c ≠ '_' ∧ c.toLower ≠ 's' := by
  rcases h with hdigit | hletter
  · have hrange := isDigit_lt hdigit
    rw [toLower_of_small (by omega)]
    refine ⟨by omega, ?_, ?_⟩
    · rintro rfl
      exact absurd hdigit (by decide)
    · rintro rfl
      exact absurd hdigit (by decide)
  · have hletters : ∀ c ∈ ['-', 'a', 'b', 'c', 'd', 'e', 'f'],
        c.toNat < 128 ∧ c ≠ '_' ∧ c.toLower ≠ 's' :=
      forall_of_all (by decide)
    exact hletters c hletter

theorem digestSuffix_isPart (hascii : H.Ascii) (text : Text) : IsPart (digestSuffix H text) :=
  fun _ hc =>
    have hhex := hex_isPart (mem_digestSuffix hascii hc)
    ⟨hhex.1, hhex.2.1⟩

theorem token_isPart (hascii : H.Ascii) {label : String} {raw token : Text} {limit : Nat}
    (h : View.token H label raw limit = .ok token) : IsPart token := by
  unfold View.token at h
  simp only at h
  split at h
  · cases h
  · split at h
    · cases h
    · cases h
      apply capped_isPart _ (digestSuffix_isPart hascii raw)
      intro c hc
      exact foldl_pushToken_isPart (fun _ hnil => absurd hnil List.not_mem_nil) _ c
        (Naming.mem_of_mem_trimMatches hc)

theorem tokenSuffixed_eq_ok {label : String} {raw token : Text} {limit : Nat}
    (h : tokenSuffixed H label raw limit = .ok token) :
    ∃ plain, View.token H label raw limit = .ok plain ∧
      token = capped H plain (limit - componentLen H (digestSuffix H raw)) [] ++
        digestSuffix H raw := by
  unfold tokenSuffixed at h
  simp only [Result.bind_eq_ok, Except.ok.injEq] at h
  obtain ⟨plain, hplain, rfl⟩ := h
  exact ⟨plain, hplain, rfl⟩

theorem tokenSuffixed_isPart (hascii : H.Ascii) {label : String} {raw token : Text} {limit : Nat}
    (h : tokenSuffixed H label raw limit = .ok token) : IsPart token := by
  obtain ⟨plain, hplain, rfl⟩ := tokenSuffixed_eq_ok h
  intro c hc
  rcases List.mem_append.mp hc with hc | hc
  · exact capped_isPart (token_isPart hascii hplain)
      (fun _ hnil => absurd hnil List.not_mem_nil) c hc
  · exact digestSuffix_isPart hascii raw c hc

theorem tokenSuffixed_ne (hascii : H.Ascii) {label : String} {raw token : Text} {limit : Nat}
    (h : tokenSuffixed H label raw limit = .ok token) (text : Text) :
    nameKey H token ≠ text ++ ['s'] := by
  rw [IsPart.nameKey hascii fun c hc => (tokenSuffixed_isPart hascii h c hc).1]
  obtain ⟨plain, hplain, rfl⟩ := tokenSuffixed_eq_ok h
  intro hends
  have hlast := congrArg List.getLast? hends
  have hne : digestSuffix H raw ≠ [] := List.cons_ne_nil _ _
  rw [List.map_append, List.getLast?_append_of_ne_nil _ (by simpa using hne), List.getLast?_map,
    List.getLast?_append_of_ne_nil _ (by simp)] at hlast
  obtain ⟨c, hc, hlower⟩ := Option.map_eq_some_iff.mp hlast
  exact (hex_isPart (mem_digestSuffix hascii (List.mem_of_getLast? hc))).2.2 hlower

/-! ## The filters -/

/-- In the order of the filters: where the plain token is used, the suffixed one is not. -/
def SuffixesFree (H : Host) (used : List Text) : List (Text × Text) → Prop
  | [] => True
  | (_, raw) :: raws =>
    match token H "filter" raw filterRoom with
    | .error _ => True
    | .ok plain =>
      if nameKey H plain ∈ used then
        match tokenSuffixed H "filter" raw filterRoom with
        | .error _ => True
        | .ok suffixed => nameKey H suffixed ∉ used ∧ SuffixesFree H (nameKey H suffixed :: used) raws
      else SuffixesFree H (nameKey H plain :: used) raws

/-- The filter of `key` is the first whose plain token reads as `spelled`. -/
def Spells (H : Host) (raws : List (Text × Text)) (key spelled : Text) : Prop :=
  ∃ before raw after plain, raws = before ++ (key, raw) :: after ∧
    token H "filter" raw filterRoom = .ok plain ∧ nameKey H plain = nameKey H spelled ∧
    ∀ p ∈ before, ∀ other, token H "filter" p.2 filterRoom = .ok other →
      nameKey H other ≠ nameKey H spelled

section Filters

variable {used : List Text} {raws filters : List (Text × Text)} {key raw : Text}

theorem filterTokens_cons (h : filterTokens H used ((key, raw) :: raws) = .ok filters) :
    ∃ plain chosen others, token H "filter" raw filterRoom = .ok plain ∧
      (nameKey H plain ∈ used ∧ tokenSuffixed H "filter" raw filterRoom = .ok chosen ∨
        nameKey H plain ∉ used ∧ chosen = plain) ∧
      filterTokens H (nameKey H chosen :: used) raws = .ok others ∧
      filters = (key, chosen) :: others := by
  unfold filterTokens at h
  obtain ⟨plain, hplain, h⟩ := Except.bind_eq_ok_iff.mp h
  refine ⟨plain, ?_⟩
  by_cases hused : nameKey H plain ∈ used
  · rw [if_pos hused] at h
    obtain ⟨chosen, hchosen, h⟩ := Except.bind_eq_ok_iff.mp h
    obtain ⟨others, hothers, h⟩ := Except.bind_eq_ok_iff.mp h
    exact ⟨chosen, others, orClash_eq_ok.mp hplain, .inl ⟨hused, orClash_eq_ok.mp hchosen⟩, hothers,
      (Except.ok.inj h).symm⟩
  · rw [if_neg hused] at h
    obtain ⟨chosen, hchosen, h⟩ := Except.bind_eq_ok_iff.mp h
    cases hchosen
    obtain ⟨others, hothers, h⟩ := Except.bind_eq_ok_iff.mp h
    exact ⟨plain, others, orClash_eq_ok.mp hplain, .inr ⟨hused, rfl⟩, hothers,
      (Except.ok.inj h).symm⟩

theorem filterTokens_nil (h : filterTokens H used [] = .ok filters) : filters = [] := by
  cases h
  rfl

theorem map_fst_filterTokens (h : filterTokens H used raws = .ok filters) :
    filters.map Prod.fst = raws.map Prod.fst := by
  induction raws generalizing used filters with
  | nil => rw [filterTokens_nil h]
  | cons first raws ih =>
    obtain ⟨plain, chosen, others, -, -, hothers, rfl⟩ := filterTokens_cons h
    rw [List.map_cons, List.map_cons, ih hothers]

theorem filterTokens_isPart (hascii : H.Ascii) (h : filterTokens H used raws = .ok filters) :
    ∀ p ∈ filters, IsPart p.2 := by
  induction raws generalizing used filters with
  | nil =>
    rw [filterTokens_nil h]
    exact fun p hp => absurd hp List.not_mem_nil
  | cons first raws ih =>
    obtain ⟨plain, chosen, others, hplain, hchosen, hothers, rfl⟩ := filterTokens_cons h
    intro p hp
    rcases List.mem_cons.mp hp with rfl | hp
    · rcases hchosen with ⟨-, hsuffixed⟩ | ⟨-, rfl⟩
      · exact tokenSuffixed_isPart hascii hsuffixed
      · exact token_isPart hascii hplain
    · exact ih hothers p hp

theorem suffixesFree_iff (h : filterTokens H used raws = .ok filters) :
    SuffixesFree H used raws ↔
      (filters.map fun p => nameKey H p.2).Nodup ∧ ∀ p ∈ filters, nameKey H p.2 ∉ used := by
  induction raws generalizing used filters with
  | nil =>
    rw [filterTokens_nil h]
    simp [SuffixesFree]
  | cons first raws ih =>
    obtain ⟨plain, chosen, others, hplain, hchosen, hothers, rfl⟩ := filterTokens_cons h
    have hfree : SuffixesFree H used (first :: raws) ↔
        nameKey H chosen ∉ used ∧ SuffixesFree H (nameKey H chosen :: used) raws := by
      obtain ⟨key, raw⟩ := first
      rw [SuffixesFree]
      simp only [hplain]
      rcases hchosen with ⟨hused, hsuffixed⟩ | ⟨hunused, rfl⟩
      · simp only [hused, hsuffixed, ↓reduceIte]
      · simp only [hunused, ↓reduceIte, not_false_eq_true, true_and]
    rw [hfree, ih hothers, List.map_cons, List.nodup_cons]
    constructor
    · rintro ⟨hunused, hnodup, hothersFree⟩
      refine ⟨⟨?_, hnodup⟩, ?_⟩
      · intro hmem
        obtain ⟨p, hp, heq⟩ := List.mem_map.mp hmem
        exact hothersFree p hp (heq ▸ List.mem_cons_self)
      · intro p hp
        rcases List.mem_cons.mp hp with rfl | hp
        · exact hunused
        · exact fun hmem => hothersFree p hp (List.mem_cons_of_mem _ hmem)
    · rintro ⟨⟨hdistinct, hnodup⟩, hunused⟩
      refine ⟨hunused _ List.mem_cons_self, hnodup, fun p hp hmem => ?_⟩
      rcases List.mem_cons.mp hmem with heq | hmem
      · exact hdistinct (List.mem_map.mpr ⟨p, hp, heq⟩)
      · exact hunused p (List.mem_cons_of_mem _ hp) hmem

theorem filterTokens_spelled (hascii : H.Ascii) {spelled text : Text}
    (hends : nameKey H spelled = text ++ ['s']) (h : filterTokens H used raws = .ok filters)
    (hused : nameKey H spelled ∈ used) : ∀ p ∈ filters, nameKey H p.2 ≠ nameKey H spelled := by
  induction raws generalizing used filters with
  | nil =>
    rw [filterTokens_nil h]
    exact fun p hp => absurd hp List.not_mem_nil
  | cons first raws ih =>
    obtain ⟨plain, chosen, others, hplain, hchosen, hothers, rfl⟩ := filterTokens_cons h
    intro p hp
    rcases List.mem_cons.mp hp with rfl | hp
    · rcases hchosen with ⟨-, hsuffixed⟩ | ⟨hunused, rfl⟩
      · exact hends ▸ tokenSuffixed_ne hascii hsuffixed text
      · intro heq
        exact hunused (heq ▸ hused)
    · exact ih hothers (List.mem_cons_of_mem _ hused) p hp

theorem exists_spelled_iff (hascii : H.Ascii) {spelled text : Text}
    (hends : nameKey H spelled = text ++ ['s']) (h : filterTokens H used raws = .ok filters)
    (hunused : nameKey H spelled ∉ used) :
    (∃ token, (key, token) ∈ filters ∧ nameKey H token = nameKey H spelled) ↔
      Spells H raws key spelled := by
  induction raws generalizing used filters with
  | nil =>
    rw [filterTokens_nil h]
    constructor
    · rintro ⟨token, hmem, -⟩
      cases hmem
    · rintro ⟨before, raw, after, plain, heq, -⟩
      exact absurd heq.symm (List.append_ne_nil_of_right_ne_nil _ (List.cons_ne_nil _ _))
  | cons first raws ih =>
    obtain ⟨plain, chosen, others, hplain, hchosen, hothers, rfl⟩ := filterTokens_cons h
    by_cases hreads : nameKey H plain = nameKey H spelled
    · -- the first filter keeps its plain token, and later ones are suffixed
      obtain ⟨-, rfl⟩ := hchosen.resolve_left fun hsuffixed => hunused (hreads ▸ hsuffixed.1)
      have hlater := filterTokens_spelled hascii hends hothers (hreads ▸ List.mem_cons_self)
      constructor
      · rintro ⟨token, hmem, htoken⟩
        rcases List.mem_cons.mp hmem with heq | hmem
        · cases heq
          exact ⟨[], first.2, raws, chosen, rfl, hplain, hreads,
            fun p hp => absurd hp List.not_mem_nil⟩
        · exact absurd htoken (hlater _ hmem)
      · rintro ⟨before, raw, after, other, heq, hother, hspelled, hfirst⟩
        cases before with
        | nil =>
          cases heq
          exact ⟨chosen, List.mem_cons_self, hreads⟩
        | cons _ before =>
          cases heq
          exact absurd hreads (hfirst _ List.mem_cons_self chosen hplain)
    · have hchosenReads : nameKey H chosen ≠ nameKey H spelled := by
        rcases hchosen with ⟨-, hsuffixed⟩ | ⟨-, rfl⟩
        · exact hends ▸ tokenSuffixed_ne hascii hsuffixed text
        · exact hreads
      have hstill : nameKey H spelled ∉ nameKey H chosen :: used := by
        intro hmem
        rcases List.mem_cons.mp hmem with heq | hmem
        · exact hchosenReads heq.symm
        · exact hunused hmem
      constructor
      · rintro ⟨token, hmem, htoken⟩
        rcases List.mem_cons.mp hmem with heq | hmem
        · cases heq
          exact absurd htoken hchosenReads
        · obtain ⟨before, raw, after, other, heq, hother, hspelled, hfirst⟩ :=
            (ih hothers hstill).mp ⟨token, hmem, htoken⟩
          refine ⟨first :: before, raw, after, other, by rw [heq]; rfl, hother, hspelled, ?_⟩
          intro p hp found hfound
          rcases List.mem_cons.mp hp with rfl | hp
          · rw [hplain] at hfound
            cases hfound
            exact hreads
          · exact hfirst p hp found hfound
      · rintro ⟨before, raw, after, other, heq, hother, hspelled, hfirst⟩
        cases before with
        | nil =>
          cases heq
          rw [hplain] at hother
          cases hother
          exact absurd hspelled hreads
        | cons _ before =>
          cases heq
          obtain ⟨token, hmem, htoken⟩ := (ih hothers hstill).mpr
            ⟨before, raw, after, other, rfl, hother, hspelled,
              fun p hp => hfirst p (List.mem_cons_of_mem _ hp)⟩
          exact ⟨token, List.mem_cons_of_mem _ hmem, htoken⟩

end Filters

/-! ## Fields -/

def IsValue (text : Text) : Prop :=
  text ≠ "gain".toList ∧ text ≠ "offset".toList ∧ text.getLast? ≠ some 's'

theorem IsNumber.isValue {text : Text} (h : IsNumber text) : IsValue (text.map Char.toLower) := by
  rw [h.lower]
  split
  · exact ⟨by decide, by decide, by decide⟩
  · rcases h with h | h
    · have hwords : ∀ word ∈ ["NaN".toList, "inf".toList, "-inf".toList],
          word ≠ "gain".toList ∧ word ≠ "offset".toList ∧ word.getLast? ≠ some 's' := by
        decide
      exact hwords text h
    · refine ⟨?_, ?_, ?_⟩
      · rintro rfl
        exact absurd (h 'g' (by decide)) (by decide)
      · rintro rfl
        exact absurd (h 'o' (by decide)) (by decide)
      · intro hlast
        exact absurd (h 's' (List.mem_of_getLast? hlast)) (by decide)

def exposureFields (exposure : Option Text) : List Text := (exposure.map (· ++ ['s'])).toList

def offsetFields (offset exposure : Option Text) : List Text :=
  match offset with
  | none => exposureFields exposure
  | some offset => "offset".toList :: offset :: exposureFields exposure

def gainFields (gain offset exposure : Option Text) : List Text :=
  match gain with
  | none => offsetFields offset exposure
  | some gain => "gain".toList :: gain :: offsetFields offset exposure

theorem exposureFields_injective {e e' : Option Text} (h : exposureFields e = exposureFields e') :
    e = e' := by
  cases e with
  | none =>
    cases e' with
    | none => rfl
    | some e' => cases h
  | some e =>
    cases e' with
    | none => cases h
    | some e' => rw [List.append_cancel_right (List.cons.inj h).1]

theorem exposureFields_ne {e : Option Text} {word : Text} {rest : List Text}
    (hword : word.getLast? ≠ some 's') : exposureFields e ≠ word :: rest := by
  intro h
  cases e with
  | none => cases h
  | some e =>
    apply hword
    rw [← (List.cons.inj h).1]
    exact List.getLast?_concat

theorem offsetFields_injective {o e o' e' : Option Text}
    (h : offsetFields o e = offsetFields o' e') : o = o' ∧ e = e' := by
  cases o with
  | none =>
    cases o' with
    | none => exact ⟨rfl, exposureFields_injective h⟩
    | some o' => exact absurd h (exposureFields_ne (by decide))
  | some o =>
    cases o' with
    | none => exact absurd h.symm (exposureFields_ne (by decide))
    | some o' =>
      obtain ⟨ho, hexposure⟩ := List.cons.inj (List.cons.inj h).2
      exact ⟨congrArg some ho, exposureFields_injective hexposure⟩

theorem offsetFields_ne {o e : Option Text} {word : Text} {rest : List Text}
    (hlast : word.getLast? ≠ some 's') (hoffset : word ≠ "offset".toList) :
    offsetFields o e ≠ word :: rest := by
  intro h
  cases o with
  | none => exact exposureFields_ne hlast h
  | some o => exact hoffset (List.cons.inj h).1.symm

theorem gainFields_injective {g o e g' o' e' : Option Text}
    (h : gainFields g o e = gainFields g' o' e') : g = g' ∧ o = o' ∧ e = e' := by
  cases g with
  | none =>
    cases g' with
    | none => exact ⟨rfl, offsetFields_injective h⟩
    | some g' => exact absurd h (offsetFields_ne (by decide) (by decide))
  | some g =>
    cases g' with
    | none => exact absurd h.symm (offsetFields_ne (by decide) (by decide))
    | some g' =>
      obtain ⟨hg, hoffset⟩ := List.cons.inj (List.cons.inj h).2
      exact ⟨congrArg some hg, offsetFields_injective hoffset⟩

theorem gainFields_ne {g o e : Option Text} {value : Text} {rest : List Text}
    (hvalue : IsValue value) : gainFields g o e ≠ value :: rest := by
  intro h
  cases g with
  | none => exact offsetFields_ne hvalue.2.2 hvalue.2.1 h
  | some g => exact hvalue.1 (List.cons.inj h).1.symm

theorem cons_gainFields_eq {t : Text} {g o e g' o' e' : Option Text}
    (hg' : ∀ value ∈ g', IsValue value) (ho' : ∀ value ∈ o', IsValue value)
    (h : t :: gainFields g o e = gainFields g' o' e') :
    g = none ∧ o = none ∧ e = none ∧ g' = none ∧ o' = none ∧
      ∃ seconds, e' = some seconds ∧ t = seconds ++ ['s'] := by
  cases g' with
  | some value => exact absurd (List.cons.inj h).2 (gainFields_ne (hg' value rfl))
  | none =>
    cases o' with
    | some value => exact absurd (List.cons.inj h).2 (gainFields_ne (ho' value rfl))
    | none =>
      cases e' with
      | none => cases h
      | some seconds =>
        obtain ⟨ht, hrest⟩ := List.cons.inj h
        obtain ⟨rfl, rfl, rfl⟩ := @gainFields_injective g o e none none none hrest
        exact ⟨rfl, rfl, rfl, rfl, rfl, seconds, rfl, ht⟩

/-! ## Light folders -/

section Lights

variable {input : PlanInput H} {names : Names} {a b : Lit H}

def mixed (input : PlanInput H) (pick : Settings → Option Text) : Bool :=
  1 < (input.lit.map fun lit => pick lit.settings).dedup.length

/-- The settings a light folder is named by: gain and offset where the Project mixes them. -/
def lightKey (input : PlanInput H) (settings : Settings) :
    Option Text × Option Text × Option Text × Option Text :=
  (settings.filter, if mixed input Settings.gain then settings.gain else none,
    if mixed input Settings.offset then settings.offset else none, settings.exposure)

/-- Lights of one group and night folder that differ in their settings lie in folders that differ
in more than case, and so do the tokens of two filters. -/
structure LightsApart (input : PlanInput H) (names : Names) : Prop where
  folders : ∀ a ∈ input.lit, ∀ b ∈ input.lit, a.group.id = b.group.id →
    (rooms names input.lit a).nightDir = (rooms names input.lit b).nightDir →
    lightKey input a.settings ≠ lightKey input b.settings →
    pathKey H (lightsPlace names input.lit a).folder ≠
      pathKey H (lightsPlace names input.lit b).folder
  tokens : ∀ p ∈ names.filters, ∀ q ∈ names.filters, p.1 ≠ q.1 → nameKey H p.2 ≠ nameKey H q.2

/-- `a` has only a filter, whose token reads as the exposure that is all `b` has. -/
def ReadsAsExposure (input : PlanInput H) (a b : Lit H) : Prop :=
  ∃ key exposure, lightKey input a.settings = (some key, none, none, none) ∧
    lightKey input b.settings = (none, none, none, some exposure) ∧
    Spells H (filterRaws H input.rawFilters) key (exposure ++ ['s'])

theorem mixed_eq (hnames : Names.new input = .ok names) :
    names.mixedGain = mixed input Settings.gain ∧
      names.mixedOffset = mixed input Settings.offset := by
  unfold Names.new at hnames
  obtain ⟨folders, -, hnames⟩ := Except.bind_eq_ok_iff.mp hnames
  obtain ⟨filters, -, hnames⟩ := Except.bind_eq_ok_iff.mp hnames
  cases hnames
  exact ⟨rfl, rfl⟩

theorem nodup_filterRaws (raws : List Text) : ((filterRaws H raws).map Prod.fst).Nodup := by
  apply List.Nodup.sublist _ (Ordered.nodup_ascending (raws.map (nameKey H)))
  unfold filterRaws
  generalize Ordered.ascending (raws.map (nameKey H)) = keys
  induction keys with
  | nil => exact List.Sublist.slnil
  | cons key keys ih =>
    rw [List.filterMap_cons]
    cases hfirst : (Ordered.ascending (raws.filter fun raw => nameKey H raw = key)).head? with
    | none => exact ih.cons key
    | some raw => exact ih.cons_cons key

theorem mem_filterRaws {raws : List Text} {raw : Text} (h : raw ∈ raws) :
    nameKey H raw ∈ (filterRaws H raws).map Prod.fst := by
  have hmem : raw ∈ Ordered.ascending (raws.filter fun other => nameKey H other = nameKey H raw) :=
    Ordered.mem_ascending.mpr (List.mem_filter.mpr ⟨h, by simp⟩)
  cases hfirst : (Ordered.ascending
      (raws.filter fun other => nameKey H other = nameKey H raw)).head? with
  | none =>
    rw [List.head?_eq_none_iff.mp hfirst] at hmem
    cases hmem
  | some kept =>
    apply List.mem_map.mpr
    refine ⟨(nameKey H raw, kept), List.mem_filterMap.mpr ⟨nameKey H raw, ?_, ?_⟩, rfl⟩
    · exact Ordered.mem_ascending.mpr (List.mem_map_of_mem h)
    · rw [hfirst]
      rfl

theorem lookup_eq_some {pairs : List (Text × Text)} (hnodup : (pairs.map Prod.fst).Nodup)
    {key text : Text} : pairs.lookup key = some text ↔ (key, text) ∈ pairs := by
  induction pairs with
  | nil => simp
  | cons pair pairs ih =>
    obtain ⟨hnotMem, hrest⟩ := List.nodup_cons.mp hnodup
    obtain ⟨other, found⟩ := pair
    by_cases hkey : key = other
    · subst hkey
      rw [List.lookup_cons_self]
      constructor
      · intro h
        rw [Option.some.inj h]
        exact List.mem_cons_self
      · intro h
        rcases List.mem_cons.mp h with heq | hmem
        · rw [(Prod.mk.inj heq).2]
        · exact absurd (List.mem_map_of_mem hmem) hnotMem
    · rw [List.lookup_cons, beq_false_of_ne hkey]
      constructor
      · intro h
        exact List.mem_cons_of_mem _ ((ih hrest).mp h)
      · intro h
        rcases List.mem_cons.mp h with heq | hmem
        · exact absurd (Prod.mk.inj heq).1 hkey
        · exact (ih hrest).mpr hmem

theorem nodup_filters (hnames : Names.new input = .ok names) :
    (names.filters.map Prod.fst).Nodup := by
  rw [map_fst_filterTokens (names_eq_ok hnames).2.1]
  exact nodup_filterRaws input.rawFilters

theorem exists_token (hnames : Names.new input = .ok names) (ha : a ∈ input.lit) {key : Text}
    (hkey : a.settings.filter = some key) : ∃ token, names.filters.lookup key = some token := by
  obtain ⟨-, -, -, hsettings⟩ := mem_lit.mp ha
  rw [hsettings] at hkey
  cases hmetadata : input.metadata a.session.sessionId with
  | none =>
    rw [hmetadata] at hkey
    cases hkey
  | some metadata =>
    rw [hmetadata] at hkey
    obtain ⟨raw, hraw, rfl⟩ := Option.map_eq_some_iff.mp hkey
    have hmem : raw ∈ input.rawFilters := by
      apply List.mem_filterMap.mpr
      refine ⟨a, ha, ?_⟩
      rw [hmetadata]
      exact hraw
    have hfilters := mem_filterRaws (H := H) hmem
    rw [← map_fst_filterTokens (names_eq_ok hnames).2.1] at hfilters
    obtain ⟨⟨_, token⟩, hpair, rfl⟩ := List.mem_map.mp hfilters
    exact ⟨token, (lookup_eq_some (nodup_filters hnames)).mpr hpair⟩

/-! ### Fields of a light folder -/

def lowered (text : Text) : Text := text.map Char.toLower

def lightFields (input : PlanInput H) (names : Names) (settings : Settings) : List Text :=
  ((names.filter settings).map lowered).toList ++
    gainFields ((lightKey input settings).2.1.map lowered)
      ((lightKey input settings).2.2.1.map lowered) ((lightKey input settings).2.2.2.map lowered)

def lightParts (names : Names) (settings : Settings) : List Text :=
  (names.filter settings).toList ++ names.gainOffset settings ++
    (settings.exposure.map (· ++ ['s'])).toList

theorem decimalInt_isNumber (n : Int) : IsNumber (decimalInt n) := by
  right
  cases n with
  | ofNat n => exact fun c hc => .inl (isDigit_of_mem_decimal hc)
  | negSucc n =>
    intro c hc
    rcases List.mem_cons.mp hc with rfl | hc
    · exact .inr (.inl rfl)
    · exact .inl (isDigit_of_mem_decimal hc)

theorem lightKey_isNumber (hascii : H.Ascii) (ha : a ∈ input.lit) :
    (∀ gain ∈ (lightKey input a.settings).2.1, IsNumber gain) ∧
      (∀ offset ∈ (lightKey input a.settings).2.2.1, IsNumber offset) ∧
      ∀ exposure ∈ (lightKey input a.settings).2.2.2, IsNumber exposure := by
  have hnumbers : (∀ gain ∈ a.settings.gain, IsNumber gain) ∧
      (∀ offset ∈ a.settings.offset, IsNumber offset) ∧
      ∀ exposure ∈ a.settings.exposure, IsNumber exposure := by
    rw [(mem_lit.mp ha).2.2.2]
    cases input.metadata a.session.sessionId with
    | none => exact ⟨fun _ h => absurd h (by simp [Settings.of]),
        fun _ h => absurd h (by simp [Settings.of]), fun _ h => absurd h (by simp [Settings.of])⟩
    | some metadata =>
      refine ⟨?_, ?_, ?_⟩
      · intro gain hgain
        obtain ⟨x, -, rfl⟩ := Option.map_eq_some_iff.mp hgain
        exact hascii.display_number x
      · intro offset hoffset
        obtain ⟨n, -, rfl⟩ := Option.map_eq_some_iff.mp hoffset
        exact decimalInt_isNumber n
      · intro exposure hexposure
        obtain ⟨x, -, rfl⟩ := Option.map_eq_some_iff.mp hexposure
        exact hascii.display_number x
  refine ⟨fun gain hgain => ?_, fun offset hoffset => ?_, hnumbers.2.2⟩
  · unfold lightKey at hgain
    by_cases hmixed : mixed input Settings.gain = true
    · simp only [hmixed, ↓reduceIte] at hgain
      exact hnumbers.1 gain hgain
    · simp [hmixed] at hgain
  · unfold lightKey at hoffset
    by_cases hmixed : mixed input Settings.offset = true
    · simp only [hmixed, ↓reduceIte] at hoffset
      exact hnumbers.2.1 offset hoffset
    · simp [hmixed] at hoffset

theorem splitOn_isPart {text : Text} (h : IsPart text) : (lowered text).splitOn '_' = [lowered text] :=
  List.splitOn_eq_singleton h.lower

theorem filter_isPart (hascii : H.Ascii) (hnames : Names.new input = .ok names)
    {settings : Settings} : ∀ token ∈ names.filter settings, IsPart token := by
  intro token htoken
  obtain ⟨key, -, hlookup⟩ := Option.bind_eq_some_iff.mp htoken
  exact filterTokens_isPart hascii (names_eq_ok hnames).2.1 _
    ((lookup_eq_some (nodup_filters hnames)).mp hlookup)

theorem flatMap_lightParts (hascii : H.Ascii) (hnames : Names.new input = .ok names)
    (ha : a ∈ input.lit) : ((lightParts names a.settings).map lowered).flatMap (·.splitOn '_') =
      lightFields input names a.settings := by
  obtain ⟨hgain, hoffset, hexposure⟩ := lightKey_isNumber hascii ha
  obtain ⟨hmixedGain, hmixedOffset⟩ := mixed_eq hnames
  have hfilter : ((names.filter a.settings).toList.map lowered).flatMap (·.splitOn '_') =
      ((names.filter a.settings).map lowered).toList := by
    cases htoken : names.filter a.settings with
    | none => rfl
    | some token =>
      have := splitOn_isPart (filter_isPart hascii hnames token htoken)
      simpa using this
  have hseconds : ((a.settings.exposure.map (· ++ ['s'])).toList.map lowered).flatMap
      (·.splitOn '_') = exposureFields (a.settings.exposure.map lowered) := by
    cases htext : a.settings.exposure with
    | none => rfl
    | some exposure =>
      have hpart : IsPart (exposure ++ ['s']) := by
        intro c hc
        rcases List.mem_append.mp hc with hc | hc
        · exact (hexposure exposure htext).isPart c hc
        · rw [List.mem_singleton.mp hc]
          decide
      have := splitOn_isPart hpart
      simpa [lowered, exposureFields] using this
  have hword : ∀ (word value : Text), '_' ∉ lowered word → IsNumber value →
      (lowered (word ++ '_' :: value)).splitOn '_' = [lowered word, lowered value] := by
    intro word value hwordPart hvalue
    unfold lowered
    rw [List.map_append, List.map_cons]
    change (lowered word ++ '_' :: lowered value).splitOn '_' = _
    rw [List.splitOn_append_cons_self_of_not_mem hwordPart, splitOn_isPart hvalue.isPart]
    rfl
  have hoffsets : ((if names.mixedOffset then
      (a.settings.offset.map ("OFFSET_".toList ++ ·)).toList else []).map lowered).flatMap
        (·.splitOn '_') ++ exposureFields (a.settings.exposure.map lowered) =
      offsetFields ((lightKey input a.settings).2.2.1.map lowered)
        (a.settings.exposure.map lowered) := by
    unfold lightKey at hoffset ⊢
    rw [hmixedOffset]
    by_cases hmixed : mixed input Settings.offset = true
    · simp only [hmixed, ↓reduceIte] at hoffset ⊢
      cases htext : a.settings.offset with
      | none => rfl
      | some offset =>
        have := hword "OFFSET".toList offset (by decide) (hoffset offset htext)
        change (lowered ("OFFSET".toList ++ '_' :: offset)).splitOn '_' ++ [] ++ _ = _
        rw [this]
        rfl
    · simp only [hmixed]
      rfl
  have hgains : ((if names.mixedGain then
      (a.settings.gain.map ("GAIN_".toList ++ ·)).toList else []).map lowered).flatMap
        (·.splitOn '_') ++ offsetFields ((lightKey input a.settings).2.2.1.map lowered)
        (a.settings.exposure.map lowered) =
      gainFields ((lightKey input a.settings).2.1.map lowered)
        ((lightKey input a.settings).2.2.1.map lowered) (a.settings.exposure.map lowered) := by
    generalize (lightKey input a.settings).2.2.1.map lowered = offset
    unfold lightKey at hgain ⊢
    rw [hmixedGain]
    by_cases hmixed : mixed input Settings.gain = true
    · simp only [hmixed, ↓reduceIte] at hgain ⊢
      cases htext : a.settings.gain with
      | none => rfl
      | some gain =>
        have := hword "GAIN".toList gain (by decide) (hgain gain htext)
        change (lowered ("GAIN".toList ++ '_' :: gain)).splitOn '_' ++ [] ++ _ = _
        rw [this]
        rfl
    · simp only [hmixed]
      rfl
  unfold lightParts Names.gainOffset lightFields
  rw [List.map_append, List.map_append, List.map_append, List.flatMap_append, List.flatMap_append,
    List.flatMap_append, hfilter, hseconds, List.append_assoc, List.append_assoc, hoffsets, hgains]
  rfl

theorem lightParts_ascii (hascii : H.Ascii) (hnames : Names.new input = .ok names)
    (ha : a ∈ input.lit) : ∀ part ∈ lightParts names a.settings, ∀ c ∈ part, c.toNat < 128 := by
  obtain ⟨hgain, hoffset, hexposure⟩ := lightKey_isNumber hascii ha
  obtain ⟨hmixedGain, hmixedOffset⟩ := mixed_eq hnames
  unfold lightKey at hgain hoffset
  rw [← hmixedGain] at hgain
  rw [← hmixedOffset] at hoffset
  have hword : ∀ (word value : Text), (∀ c ∈ word, c.toNat < 128) → IsNumber value →
      ∀ c ∈ word ++ value, c.toNat < 128 := by
    intro word value hword hvalue c hc
    rcases List.mem_append.mp hc with hc | hc
    · exact hword c hc
    · exact (hvalue.isPart c hc).1
  intro part hpart
  unfold lightParts Names.gainOffset at hpart
  simp only [List.mem_append] at hpart
  rcases hpart with (htoken | hgainPart | hoffsetPart) | hseconds
  · exact fun c hc => (filter_isPart hascii hnames part (Option.mem_toList.mp htoken) c hc).1
  · by_cases hmixed : names.mixedGain = true
    · simp only [hmixed, ↓reduceIte, Option.mem_toList] at hgain hgainPart
      obtain ⟨gain, htext, rfl⟩ := Option.map_eq_some_iff.mp hgainPart
      exact hword _ _ (forall_of_all (by decide)) (hgain gain htext)
    · simp [hmixed] at hgainPart
  · by_cases hmixed : names.mixedOffset = true
    · simp only [hmixed, ↓reduceIte, Option.mem_toList] at hoffset hoffsetPart
      obtain ⟨offset, htext, rfl⟩ := Option.map_eq_some_iff.mp hoffsetPart
      exact hword _ _ (forall_of_all (by decide)) (hoffset offset htext)
    · simp [hmixed] at hoffsetPart
  · obtain ⟨exposure, htext, rfl⟩ := Option.map_eq_some_iff.mp (Option.mem_toList.mp hseconds)
    intro c hc
    rcases List.mem_append.mp hc with hc | hc
    · exact ((hexposure exposure htext).isPart c hc).1
    · rw [List.mem_singleton.mp hc]
      decide

theorem lightFolder_key (hascii : H.Ascii) (hnames : Names.new input = .ok names)
    (ha : a ∈ input.lit) : ((names.lightFolder a.settings).map (nameKey H)).elim []
      (·.splitOn '_') = lightFields input names a.settings := by
  have hparts := flatMap_lightParts hascii hnames ha
  have hcodes := lightParts_ascii hascii hnames ha
  change ((Names.joined (lightParts names a.settings)).map _).elim _ _ = _
  unfold Names.joined
  generalize lightParts names a.settings = parts at hparts hcodes ⊢
  cases parts with
  | nil => exact hparts
  | cons part parts =>
    have htext : ∀ c ∈ ['_'].intercalate (part :: parts), c.toNat < 128 := by
      intro c hc
      rcases mem_intercalate hc with hsep | ⟨piece, hpiece, hc⟩
      · rw [List.mem_singleton.mp hsep]
        decide
      · exact hcodes piece hpiece c hc
    change (nameKey H (['_'].intercalate (part :: parts))).splitOn '_' = _
    rw [IsPart.nameKey hascii htext, map_intercalate]
    exact (splitOn_intercalate_flatMap '_' (by simp)).trans hparts

theorem pathKey_lights_iff (hascii : H.Ascii) (hnames : Names.new input = .ok names)
    (ha : a ∈ input.lit) (hb : b ∈ input.lit)
    (hnight : (rooms names input.lit a).nightDir = (rooms names input.lit b).nightDir) :
    pathKey H (lightsPlace names input.lit a).folder =
        pathKey H (lightsPlace names input.lit b).folder ↔
      lightFields input names a.settings = lightFields input names b.settings := by
  rw [← lightFolder_key hascii hnames ha, ← lightFolder_key hascii hnames hb]
  unfold lightsPlace pathKey
  simp only [hnight, List.map_append, List.map_cons, List.append_cancel_left_eq,
    List.cons.injEq, true_and]
  cases names.lightFolder a.settings with
  | none =>
    cases names.lightFolder b.settings with
    | none => simp
    | some folder =>
      refine ⟨fun h => (List.cons_ne_nil _ _ h.symm).elim, fun h => ?_⟩
      exact absurd h.symm (List.splitOn_ne_nil '_' (nameKey H folder))
  | some folder =>
    cases names.lightFolder b.settings with
    | none =>
      refine ⟨fun h => (List.cons_ne_nil _ _ h).elim, fun h => ?_⟩
      exact absurd h (List.splitOn_ne_nil '_' (nameKey H folder))
    | some other =>
      simp only [Option.toList_some, List.map_cons, List.map_nil, List.cons.injEq, and_true,
        Option.map_some, Option.elim_some]
      constructor
      · intro heq
        rw [heq]
      · intro heq
        have := congrArg (['_'].intercalate ·) heq
        simpa only [List.intercalate_splitOn] using this

/-! ### Apart -/

theorem map_lowered_injective {left right : Option Text} (hleft : ∀ text ∈ left, IsNumber text)
    (hright : ∀ text ∈ right, IsNumber text) (h : left.map lowered = right.map lowered) :
    left = right := by
  cases left with
  | none =>
    cases right with
    | none => rfl
    | some text => cases h
  | some text =>
    cases right with
    | none => cases h
    | some other =>
      rw [(hleft text rfl).lower_injective (hright other rfl) (Option.some.inj h)]

theorem isValue_of_lowered {text : Option Text} (h : ∀ number ∈ text, IsNumber number) :
    ∀ value ∈ text.map lowered, IsValue value := by
  intro value hvalue
  obtain ⟨number, hnumber, rfl⟩ := Option.map_eq_some_iff.mp hvalue
  exact (h number hnumber).isValue

theorem filter_eq (hnames : Names.new input = .ok names) (ha : a ∈ input.lit) :
    a.settings.filter = none ∧ names.filter a.settings = none ∨
      ∃ key token, a.settings.filter = some key ∧ names.filter a.settings = some token ∧
        (key, token) ∈ names.filters := by
  cases hkey : a.settings.filter with
  | none => exact .inl ⟨rfl, by unfold Names.filter; rw [hkey]; rfl⟩
  | some key =>
    obtain ⟨token, htoken⟩ := exists_token hnames ha hkey
    refine .inr ⟨key, token, rfl, ?_, (lookup_eq_some (nodup_filters hnames)).mp htoken⟩
    unfold Names.filter
    rw [hkey]
    exact htoken

theorem exposure_key (hascii : H.Ascii) {exposure : Text} (h : IsNumber exposure) :
    nameKey H (exposure ++ ['s']) = lowered exposure ++ ['s'] := by
  rw [IsPart.nameKey hascii]
  · exact List.map_append
  · intro c hc
    rcases List.mem_append.mp hc with hc | hc
    · exact (h.isPart c hc).1
    · rw [List.mem_singleton.mp hc]
      decide

theorem token_key (hascii : H.Ascii) (hnames : Names.new input = .ok names) {p : Text × Text}
    (hp : p ∈ names.filters) : nameKey H p.2 = lowered p.2 :=
  IsPart.nameKey hascii fun c hc =>
    (filterTokens_isPart hascii (names_eq_ok hnames).2.1 p hp c hc).1

theorem lightFields_of_readsAsExposure (hascii : H.Ascii) (hnames : Names.new input = .ok names)
    (hb : b ∈ input.lit) (h : ReadsAsExposure input a b) :
    lightFields input names a.settings = lightFields input names b.settings := by
  obtain ⟨key, exposure, hkeyA, hkeyB, hspells⟩ := h
  have hnumber : IsNumber exposure := (lightKey_isNumber hascii hb).2.2 exposure (by rw [hkeyB]; rfl)
  obtain ⟨token, hmem, htoken⟩ := (exists_spelled_iff hascii (exposure_key hascii hnumber)
    (names_eq_ok hnames).2.1 List.not_mem_nil).mpr hspells
  rw [exposure_key hascii hnumber, token_key hascii hnames hmem] at htoken
  have hfilterA : names.filter a.settings = some token := by
    unfold Names.filter
    rw [show a.settings.filter = some key from congrArg Prod.fst hkeyA]
    exact (lookup_eq_some (nodup_filters hnames)).mpr hmem
  have hfilterB : names.filter b.settings = none := by
    unfold Names.filter
    rw [show b.settings.filter = none from congrArg Prod.fst hkeyB]
    rfl
  unfold lightFields
  rw [hkeyA, hkeyB, hfilterA, hfilterB]
  change [lowered token] = [lowered exposure ++ ['s']]
  rw [htoken]

theorem lightKey_of_lightFields (hascii : H.Ascii) (hnames : Names.new input = .ok names)
    (hfree : SuffixesFree H [] (filterRaws H input.rawFilters))
    (ha : a ∈ input.lit) (hb : b ∈ input.lit)
    (h : lightFields input names a.settings = lightFields input names b.settings) :
    lightKey input a.settings = lightKey input b.settings ∨
      ReadsAsExposure input a b ∨ ReadsAsExposure input b a := by
  obtain ⟨hgainA, hoffsetA, hexposureA⟩ := lightKey_isNumber hascii ha
  obtain ⟨hgainB, hoffsetB, hexposureB⟩ := lightKey_isNumber hascii hb
  have hsame : a.settings.filter = b.settings.filter →
      gainFields ((lightKey input a.settings).2.1.map lowered)
        ((lightKey input a.settings).2.2.1.map lowered)
        ((lightKey input a.settings).2.2.2.map lowered) =
      gainFields ((lightKey input b.settings).2.1.map lowered)
        ((lightKey input b.settings).2.2.1.map lowered)
        ((lightKey input b.settings).2.2.2.map lowered) →
      lightKey input a.settings = lightKey input b.settings := by
    intro hfilter hfields
    obtain ⟨hgain, hoffset, hexposure⟩ := gainFields_injective hfields
    exact Prod.ext hfilter (Prod.ext (map_lowered_injective hgainA hgainB hgain)
      (Prod.ext (map_lowered_injective hoffsetA hoffsetB hoffset)
        (map_lowered_injective hexposureA hexposureB hexposure)))
  -- a token beside no token is the exposure of the other's only field
  have hcross : ∀ (a b : Lit H), a ∈ input.lit → b ∈ input.lit → ∀ key token : Text,
      a.settings.filter = some key → (key, token) ∈ names.filters → b.settings.filter = none →
      lowered token :: gainFields ((lightKey input a.settings).2.1.map lowered)
        ((lightKey input a.settings).2.2.1.map lowered)
        ((lightKey input a.settings).2.2.2.map lowered) =
      gainFields ((lightKey input b.settings).2.1.map lowered)
        ((lightKey input b.settings).2.2.1.map lowered)
        ((lightKey input b.settings).2.2.2.map lowered) → ReadsAsExposure input a b := by
    intro a b ha hb key token hkey hmem hnone hfields
    obtain ⟨hgain, hoffset, hexposure⟩ := lightKey_isNumber hascii hb
    obtain ⟨hg, ho, he, hg', ho', seconds, he', htoken⟩ :=
      cons_gainFields_eq (isValue_of_lowered hgain) (isValue_of_lowered hoffset) hfields
    obtain ⟨exposure, hseconds, rfl⟩ := Option.map_eq_some_iff.mp he'
    refine ⟨key, exposure, ?_, ?_, ?_⟩
    · exact Prod.ext hkey (Prod.ext (Option.map_eq_none_iff.mp hg)
        (Prod.ext (Option.map_eq_none_iff.mp ho) (Option.map_eq_none_iff.mp he)))
    · exact Prod.ext hnone (Prod.ext (Option.map_eq_none_iff.mp hg')
        (Prod.ext (Option.map_eq_none_iff.mp ho') hseconds))
    · have hnumber := hexposure exposure hseconds
      apply (exists_spelled_iff hascii (exposure_key hascii hnumber)
        (names_eq_ok hnames).2.1 List.not_mem_nil).mp
      refine ⟨token, hmem, ?_⟩
      rw [exposure_key hascii hnumber, token_key hascii hnames hmem, htoken]
  unfold lightFields at h
  rcases filter_eq hnames ha with ⟨hnoneA, htokenA⟩ | ⟨keyA, tokenA, hkeyA, htokenA, hmemA⟩
  · rcases filter_eq hnames hb with ⟨hnoneB, htokenB⟩ | ⟨keyB, tokenB, hkeyB, htokenB, hmemB⟩
    · rw [htokenA, htokenB] at h
      exact .inl (hsame (hnoneA.trans hnoneB.symm) h)
    · rw [htokenA, htokenB] at h
      exact .inr (.inr (hcross b a hb ha keyB tokenB hkeyB hmemB hnoneA h.symm))
  · rcases filter_eq hnames hb with ⟨hnoneB, htokenB⟩ | ⟨keyB, tokenB, hkeyB, htokenB, hmemB⟩
    · rw [htokenA, htokenB] at h
      exact .inr (.inl (hcross a b ha hb keyA tokenA hkeyA hmemA hnoneB h))
    · rw [htokenA, htokenB] at h
      obtain ⟨htokens, hfields⟩ := List.cons.inj h
      refine .inl (hsame ?_ hfields)
      have hnodup := ((suffixesFree_iff (names_eq_ok hnames).2.1).mp hfree).1
      have hpair := List.inj_on_of_nodup_map hnodup hmemA hmemB
        ((token_key hascii hnames hmemA).trans (htokens.trans (token_key hascii hnames hmemB).symm))
      rw [hkeyA, hkeyB, (Prod.mk.inj hpair).1]

/-- Light folders lie apart exactly when no suffixed token was used before and no filter of a group
and night reads as the exposure of lights that have nothing else. -/
theorem lights_apart_iff (hascii : H.Ascii) (hnames : Names.new input = .ok names) :
    LightsApart input names ↔ SuffixesFree H [] (filterRaws H input.rawFilters) ∧
      ∀ a ∈ input.lit, ∀ b ∈ input.lit, a.group.id = b.group.id →
        (rooms names input.lit a).nightDir = (rooms names input.lit b).nightDir →
        ¬ ReadsAsExposure input a b := by
  constructor
  · intro hapart
    refine ⟨?_, fun a ha b hb hgroup hnight hreads => ?_⟩
    · rw [suffixesFree_iff (names_eq_ok hnames).2.1]
      refine ⟨?_, fun _ _ => List.not_mem_nil⟩
      apply List.Nodup.map_on _ (List.Nodup.of_map _ (nodup_filters hnames))
      intro p hp q hq heq
      by_contra hne
      refine hapart.tokens p hp q hq (fun hkey => hne ?_) heq
      exact List.inj_on_of_nodup_map (nodup_filters hnames) hp hq hkey
    · refine hapart.folders a ha b hb hgroup hnight ?_ ((pathKey_lights_iff hascii hnames ha hb
        hnight).mpr (lightFields_of_readsAsExposure hascii hnames hb hreads))
      obtain ⟨key, exposure, hkeyA, hkeyB, -⟩ := hreads
      rw [hkeyA, hkeyB]
      exact fun h => Option.some_ne_none key (congrArg Prod.fst h)
  · rintro ⟨hfree, hunread⟩
    constructor
    · intro a ha b hb hgroup hnight hkey heq
      have hfields := (pathKey_lights_iff hascii hnames ha hb hnight).mp heq
      rcases lightKey_of_lightFields hascii hnames hfree ha hb hfields with hsame | hreads | hreads
      · exact hkey hsame
      · exact hunread a ha b hb hgroup hnight hreads
      · exact hunread b hb a ha hgroup.symm hnight.symm hreads
    · intro p hp q hq hkey heq
      have hnodup := ((suffixesFree_iff (names_eq_ok hnames).2.1).mp hfree).1
      exact hkey (congrArg Prod.fst (List.inj_on_of_nodup_map hnodup hp hq heq))

end Lights

/-! ## Three filters of one night -/

theorem wholeHost_ascii : wholeHost.Ascii where
  nfc_ascii _ _ := rfl
  lower_ascii _ _ := rfl
  sha_hex text := by
    have hdigest : ∀ c ∈ "e78b85f43a4002e64124d9a5a98cef4abe50e26cace72b436e2768ca6b29002d".toList,
        c.isDigit = true ∨ c ∈ ['a', 'b', 'c', 'd', 'e', 'f'] :=
      forall_of_all (by decide)
    change ∀ c ∈ (if text = "Ha_".toList then _ else _), _
    split
    · exact hdigest
    · exact fun c hc => absurd hc List.not_mem_nil
  display_number x := decimalInt_isNumber x

theorem lights_apart_iff_one_filter : ∃ names, Names.new oneFilter = .ok names ∧
    (LightsApart oneFilter names ↔ SuffixesFree wholeHost [] (filterRaws wholeHost oneFilter.rawFilters) ∧
      ∀ a ∈ oneFilter.lit, ∀ b ∈ oneFilter.lit, a.group.id = b.group.id →
        (rooms names oneFilter.lit a).nightDir = (rooms names oneFilter.lit b).nightDir →
        ¬ ReadsAsExposure oneFilter a b) := by
  obtain ⟨names, hnames⟩ := exists_names oneFilter (by decide)
  exact ⟨names, hnames, lights_apart_iff wholeHost_ascii hnames⟩

/-- The suffixed token of `Ha_` is the plain token of `ha-e78b85f4` but for case. -/
theorem filters_share_a_token : ¬ ∀ (input : PlanInput wholeHost) (names : Names),
    Names.new input = .ok names → LightsApart input names := by
  intro hall
  obtain ⟨names, hnames⟩ := exists_names threeFilters (by decide)
  have hshared : ((Names.new threeFilters).toOption.map fun names =>
      decide (∃ p ∈ names.filters, ∃ q ∈ names.filters, p.1 ≠ q.1 ∧
        nameKey wholeHost p.2 = nameKey wholeHost q.2)) = some true := by
    decide
  rw [hnames] at hshared
  obtain ⟨p, hp, q, hq, hkey, hsame⟩ := of_decide_eq_true (Option.some.inj hshared)
  exact (hall threeFilters names hnames).tokens p hp q hq hkey hsame

end PlateVault.View
