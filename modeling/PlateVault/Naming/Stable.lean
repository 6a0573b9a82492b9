import PlateVault.Naming.Laws

/-!
# Sanitizing a sanitized text

When the sanitizer's result is stable: sanitized again it is the same, and it is in NFC. Stripping and
substituting come after normalizing, so a result is in NFC exactly where they leave the normalized
text in NFC; trimming takes nothing that normalization looks at.
-/

namespace PlateVault.Naming

/-- Normalizing changes the character or puts it together with nothing, on either side. -/
structure Unicode.Lawful (u : Unicode) : Prop where
  nfc_nfc : ∀ text, u.nfc (u.nfc text) = u.nfc text
  nfc_char : ∀ text, u.nfc text = text → ∀ c ∈ text, u.nfc [c] = [c]
  /-- White space and dots compose with nothing. -/
  nfc_trimmed : ∀ front text back,
    (∀ c ∈ front, isTrimmed c = true ∧ u.nfc [c] = [c]) →
    (∀ c ∈ back, isTrimmed c = true ∧ u.nfc [c] = [c]) →
      u.nfc (front ++ text ++ back) = front ++ u.nfc text ++ back

/-- The text without the characters step 1 strips, and with those of step 2 substituted. -/
def kept (text : Text) : Text := (text.filter (!isDisallowed ·)).map substitute

/-- Taking the stripped characters out of the normalized text and substituting the reserved ones
leaves it in NFC, and it has no U+007F, which no step strips. -/
structure Settled (u : Unicode) (raw : Text) : Prop where
  normal : u.nfc (kept (u.nfc raw)) = kept (u.nfc raw)
  noDelete : '\u007f' ∉ u.nfc raw

/-- A text the sanitizer accepts as it is, in NFC and without a character it forbids. -/
structure Stable (u : Unicode) (text : Text) : Prop where
  same : ∀ token, sanitizeTokenValue u token text = .ok text
  normal : u.nfc text = text
  clean : ∀ c ∈ text, isDisallowed c = false ∧ isControl c = false ∧ isWindowsReservedChar c = false

section Stable

variable {u : Unicode} {token raw text : Text}

theorem sanitized_eq (u : Unicode) (raw : Text) :
    sanitized u raw = trimMatches isTrimmed (kept (u.nfc raw)) := rfl

theorem exists_trimmed (p : Char → Bool) (text : Text) : ∃ front back,
    text = front ++ trimMatches p text ++ back ∧ (∀ c ∈ front, p c = true) ∧
      ∀ c ∈ back, p c = true := by
  refine ⟨text.takeWhile p, ((text.dropWhile p).reverse.takeWhile p).reverse, ?_,
    fun c hc => List.mem_takeWhile_imp hc,
    fun c hc => List.mem_takeWhile_imp (List.mem_reverse.mp hc)⟩
  rw [trimMatches, List.append_assoc, ← List.reverse_append, List.takeWhile_append_dropWhile,
    List.reverse_reverse, List.takeWhile_append_dropWhile]

theorem nfc_trimMatches (laws : u.Lawful) {text : Text} (h : ∀ c ∈ text, isTrimmed c = true →
    u.nfc [c] = [c]) :
    u.nfc (trimMatches isTrimmed text) = trimMatches isTrimmed text ↔ u.nfc text = text := by
  obtain ⟨front, back, htext, hfront, hback⟩ := exists_trimmed isTrimmed text
  have hnfc := laws.nfc_trimmed front (trimMatches isTrimmed text) back
    (fun c hc => ⟨hfront c hc, h c (by rw [htext]; simp [hc]) (hfront c hc)⟩)
    (fun c hc => ⟨hback c hc, h c (by rw [htext]; simp [hc]) (hback c hc)⟩)
  rw [← htext] at hnfc
  constructor
  · intro hnormal
    rw [hnfc, hnormal, ← htext]
  · intro hnormal
    have hsame : front ++ u.nfc (trimMatches isTrimmed text) ++ back =
        front ++ trimMatches isTrimmed text ++ back := by
      rw [← hnfc, hnormal, ← htext]
    exact List.append_cancel_left (List.append_cancel_right hsame)

theorem nfc_sanitized (laws : u.Lawful) (raw : Text) :
    u.nfc (sanitized u raw) = sanitized u raw ↔ u.nfc (kept (u.nfc raw)) = kept (u.nfc raw) := by
  rw [sanitized_eq]
  refine nfc_trimMatches laws fun c hc htrimmed => ?_
  obtain ⟨d, hd, rfl⟩ := List.mem_map.mp hc
  have hmem := (List.mem_filter.mp hd).1
  have hsame : substitute d = d := by
    unfold substitute at htrimmed ⊢
    split
    · next hreserved =>
      rw [if_pos hreserved] at htrimmed
      exact absurd htrimmed (by decide)
    · rfl
  rw [hsame]
  exact laws.nfc_char _ (laws.nfc_nfc raw) d hmem

theorem delete_mem_sanitized : '\u007f' ∈ sanitized u raw ↔ '\u007f' ∈ u.nfc raw := by
  constructor
  · intro hmem
    obtain ⟨d, hd, hsubstitute⟩ := List.mem_map.mp (mem_of_mem_trimMatches hmem)
    have hsame : d = '\u007f' := by
      unfold substitute at hsubstitute
      split at hsubstitute
      · exact absurd hsubstitute (by decide)
      · exact hsubstitute
    exact hsame ▸ (List.mem_filter.mp hd).1
  · intro hmem
    refine mem_trimMatches (by decide) (List.mem_map.mpr ⟨'\u007f', List.mem_filter.mpr ⟨hmem, ?_⟩, ?_⟩)
    · decide
    · decide

/-! ## Sanitizing again -/

theorem SafeText.trimMatches_eq (h : SafeText text) : trimMatches isTrimmed text = text := by
  obtain ⟨front, back, htext, hfront, hback⟩ := exists_trimmed isTrimmed text
  have hnofront : front = [] := by
    cases front with
    | nil => rfl
    | cons c front =>
      have hfirst := h.first c (by rw [htext]; simp)
      rw [hfront c List.mem_cons_self] at hfirst
      cases hfirst
  have hnoback : back = [] := by
    rcases List.eq_nil_or_concat back with hnil | ⟨back, c, rfl⟩
    · exact hnil
    · have hlast := h.last c (by rw [htext]; simp)
      rw [hback c (by simp)] at hlast
      cases hlast
  rw [hnofront, hnoback, List.nil_append, List.append_nil] at htext
  exact htext.symm

theorem checks_of_sanitize (h : sanitizeTokenValue u token raw = .ok text) (token' : Text) :
    step4ReservedNameCheck u text = .ok () ∧ step5ConfusablesCheck u token' text = .ok () := by
  simp only [sanitizeTokenValue, Except.bind_eq_ok_iff] at h
  obtain ⟨-, -, h⟩ := h
  split at h
  · cases h
  · simp only [Except.bind_eq_ok_iff, Except.pure_eq_ok_iff] at h
    obtain ⟨_, hreserved, _, hconfusable, rfl⟩ := h
    refine ⟨hreserved, ?_⟩
    unfold step5ConfusablesCheck at hconfusable ⊢
    split at hconfusable
    · cases hconfusable
    · next hsafe => rw [if_neg hsafe]

theorem sanitize_again (h : sanitizeTokenValue u token raw = .ok text) (hnormal : u.nfc text = text)
    (token' : Text) : sanitizeTokenValue u token' text = .ok text := by
  have hsafe := SafeText.of_sanitize h
  obtain ⟨hreserved, hconfusable⟩ := checks_of_sanitize h token'
  have hstep1 : step1NormalizeAndStrip u text = text := by
    rw [step1NormalizeAndStrip, hnormal, List.filter_eq_self]
    intro c hc
    rw [(hsafe.allowed c hc).1]
    rfl
  have hstep2 : step2SubstituteReservedChars text = text := by
    have hmap : text.map substitute = text := by
      refine (List.map_congr_left fun c hc => ?_).trans (List.map_id text)
      rw [substitute, (hsafe.allowed c hc).2]
      rfl
    rw [step2SubstituteReservedChars, hmap, hsafe.trimMatches_eq]
  have hstep3 : step3TraversalCheck text = .ok () := by
    refine if_neg fun hdots => ?_
    have hhead : text.head? = some '.' := by
      rcases hdots with rfl | rfl <;> rfl
    have hfirst := hsafe.first '.' hhead
    exact absurd hfirst (by decide)
  have hne : text.isEmpty = false := by
    simpa [List.isEmpty_iff] using hsafe.inhabited
  simp [sanitizeTokenValue, hstep1, hstep2, hstep3, hne, hreserved, hconfusable, bind, Except.bind,
    pure, Except.pure]

theorem isControl_of_not_delete {c : Char} (hallowed : isDisallowed c = false) (hne : c ≠ '\u007f') :
    isControl c = false := by
  have hcode : c.toNat ≠ 0x7F := fun h => hne (Char.toNat_inj.mp h)
  simp only [isDisallowed, Bool.or_eq_false_iff, decide_eq_false_iff_not, Bool.and_eq_false_iff] at hallowed
  simp only [isControl, Bool.or_eq_false_iff, decide_eq_false_iff_not, Bool.and_eq_false_iff]
  omega

end Stable

/-! ## A letter and a mark -/

/-- Composes `e` with an acute accent behind it. -/
def composeAcute : Text → Text
  | 'e' :: '\u0301' :: rest => '\u00e9' :: composeAcute rest
  | c :: rest => c :: composeAcute rest
  | [] => []

theorem composeAcute_cons {c : Char} {text : Text} (h : c = 'e' → text.head? ≠ some '\u0301') :
    composeAcute (c :: text) = c :: composeAcute text := by
  rw [composeAcute.eq_def]
  split
  · next heq =>
    obtain ⟨rfl, rfl⟩ := List.cons.inj heq
    exact absurd rfl (h rfl)
  · next heq =>
    obtain ⟨rfl, rfl⟩ := List.cons.inj heq
    rfl
  · next heq => cases heq

theorem head?_composeAcute {text : Text} (h : (composeAcute text).head? = some '\u0301') :
    text.head? = some '\u0301' := by
  rw [composeAcute.eq_def] at h
  split at h
  · exact absurd (Option.some.inj h) (by decide)
  · exact h
  · cases h

theorem composeAcute_of_forall {text : Text} (h : ∀ c ∈ text, c ≠ 'e') : composeAcute text = text := by
  induction text with
  | nil => rfl
  | cons c text ih =>
    rw [composeAcute_cons fun heq => absurd heq (h c List.mem_cons_self),
      ih fun d hd => h d (List.mem_cons_of_mem _ hd)]

theorem composeAcute_composeAcute (text : Text) :
    composeAcute (composeAcute text) = composeAcute text := by
  fun_induction composeAcute text with
  | case1 rest ih =>
    rw [composeAcute_cons (fun heq => absurd heq (by decide)), ih]
  | case2 c rest hmeets ih =>
    rw [composeAcute_cons, ih]
    rintro rfl hhead
    obtain ⟨rest', rfl⟩ := List.head?_eq_some_iff.mp (head?_composeAcute hhead)
    exact hmeets rest' rfl rfl
  | case3 => rfl

theorem composeAcute_append {text back : Text} (hback : ∀ c ∈ back, isTrimmed c = true) :
    composeAcute (text ++ back) = composeAcute text ++ back := by
  have htrimmed : ∀ c ∈ back, c ≠ 'e' ∧ c ≠ '\u0301' := by
    intro c hc
    constructor <;> rintro rfl <;> exact absurd (hback _ hc) (by decide)
  fun_induction composeAcute text with
  | case1 rest ih => rw [List.cons_append, List.cons_append, composeAcute, ih, List.cons_append]
  | case2 c rest hmeets ih =>
    rw [List.cons_append, composeAcute_cons, ih, List.cons_append]
    rintro rfl hhead
    cases rest with
    | nil =>
      rw [List.nil_append] at hhead
      exact (htrimmed _ (List.mem_of_mem_head? hhead)).2 rfl
    | cons d rest =>
      cases hhead
      exact hmeets rest rfl rfl
  | case3 => exact composeAcute_of_forall fun c hc => (htrimmed c hc).1

/-- Unicode where the acute `e` is the one character that composes. -/
def acute : Unicode where
  nfc := composeAcute
  toLowercase := plainUnicode.toLowercase
  toUppercase text := text.map Char.toUpper
  isSingleScript _ := true
  script _ := .latin
  nfc_ascii text h := by
    fun_induction composeAcute text with
    | case1 rest ih => simp [isAscii] at h
    | case2 c rest hmeets ih =>
      simp only [isAscii, List.all_cons, Bool.and_eq_true] at h
      rw [ih h.2]
    | case3 => rfl
  toLowercase_ascii := plainUnicode.toLowercase_ascii

theorem acute_lawful : acute.Lawful where
  nfc_nfc := composeAcute_composeAcute
  nfc_char _ _ _ _ := composeAcute_cons fun _ => nofun
  nfc_trimmed front text back hfront hback := by
    change composeAcute (front ++ text ++ back) = front ++ composeAcute text ++ back
    induction front with
    | nil => exact composeAcute_append fun c hc => (hback c hc).1
    | cons c front ih =>
      have hne : c ≠ 'e' := by
        rintro rfl
        exact absurd (hfront _ List.mem_cons_self).1 (by decide)
      rw [List.cons_append, List.cons_append, composeAcute_cons fun heq => absurd heq hne,
        ih fun d hd => hfront d (List.mem_cons_of_mem _ hd)]
      rfl

def joined : Text := ['e', '\u200b', '\u0301']

end PlateVault.Naming
