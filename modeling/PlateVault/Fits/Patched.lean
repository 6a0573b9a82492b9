import PlateVault.Fits.Patch
import PlateVault.Lib.Fallible

/-!
# What an accepted edit leaves in a header

One keyword's cards are overwritten one by one, the last first, and each stays or moves to the end:
their number and every other card stay as they were. So an accepted list of edits leaves each
keyword's cards with the value written to it last, and an edit is refused as too long only where the
value, or a `HIERARCH` card that cannot be set alone, is in the way.
-/

namespace PlateVault.Fits

variable {H : Headers}

/-! ## One write -/

section Write

variable {card other : Card} {before after : List Record}

theorem own_others (hne : other ≠ card) (cards : List Record) :
    own other (others card cards) = own other cards := by
  unfold own others
  rw [List.filter_filter]
  apply List.filter_congr
  intro record _
  cases hother : other.owns record with
  | false => rfl
  | true =>
    have hnot : card.owns record = false := by
      by_contra hcard
      exact hne (Card.eq_of_holds hother (Bool.not_eq_false _ ▸ hcard))
    simp [hnot]

theorem own_of_others (hne : other ≠ card) (h : others card after = others card before) :
    own other after = own other before := by
  rw [← own_others hne after, ← own_others hne before, h]

theorem Changes.own {occurrence : Nat} {change : Record → Record → Prop}
    (hchange : ∀ record record', card.owns record = true → change record record' →
      card.owns record' = true)
    (h : Changes ⟨card, occurrence⟩ change before after) {left right : List Record}
    {record : Record} (hown : Fits.own card before = left ++ record :: right)
    (hleft : left.length = occurrence) :
    others card after = others card before ∧ ∃ record', change record record' ∧
      Fits.own card after = left ++ record' :: right := by
  obtain ⟨first, found, rest, rfl, howns, hcount, record', hrecord, rfl⟩ := h
  have howns' := hchange found record' howns hrecord
  constructor
  · rw [others_append, others_append, others_cons howns, others_cons howns']
  · rw [own_append, own_cons howns] at hown
    have hlength : (Fits.own card first).length = left.length := by
      rw [length_own, hleft]
      exact hcount
    obtain ⟨hfirst, hrest⟩ := List.append_inj hown hlength
    obtain ⟨rfl, hright⟩ := List.cons_eq_cons.mp hrest
    refine ⟨record', hrecord, ?_⟩
    rw [own_append, own_cons howns', hfirst, hright]

theorem remove_own {header header' : H.Header} {occurrence : Nat}
    (h : H.remove header ⟨card, occurrence⟩ = .ok header') {left right : List Record}
    {record : Record} (hown : own card (H.cards header) = left ++ record :: right)
    (hleft : left.length = occurrence) :
    others card (H.cards header') = others card (H.cards header) ∧
      own card (H.cards header') = left ++ right := by
  obtain ⟨first, found, rest, hbefore, howns, hcount, hafter⟩ := H.remove_ok _ _ _ h
  rw [hbefore, hafter]
  constructor
  · rw [others_append, others_append, others_cons howns]
  · rw [hbefore, own_append, own_cons howns] at hown
    have hlength : (own card first).length = left.length := by
      rw [length_own, hleft]
      exact hcount
    obtain ⟨hfirst, hrest⟩ := List.append_inj hown hlength
    rw [own_append, hfirst, (List.cons_eq_cons.mp hrest).2]

theorem own_snoc {record : Record} (h : card.owns record = true)
    (hafter : after = before ++ [record]) :
    others card after = others card before ∧ own card after = own card before ++ [record] := by
  subst hafter
  rw [others_append, own_append, others_cons h, own_cons h]
  exact ⟨List.append_nil _, rfl⟩

theorem append_own {header header' : H.Header} {keyword : Text} {value : Value}
    (h : H.append header keyword value = .ok header') :
    others (.standard keyword) (H.cards header') = others (.standard keyword) (H.cards header) ∧
      ∃ record, record.kind = (Card.standard keyword).kindOf value ∧
        own (.standard keyword) (H.cards header') =
          own (.standard keyword) (H.cards header) ++ [record] := by
  obtain ⟨record, hkind, hafter⟩ := H.append_ok _ _ _ _ h
  have hstandard : record.kind = (Card.standard keyword).kindOf value := hkind
  obtain ⟨hothers, hown⟩ := own_snoc (owns_of_kind hstandard) hafter
  exact ⟨hothers, record, hkind, hown⟩

theorem setCard_ok {header header' : H.Header} {key : Key} {value : EditValue H}
    (h : setCard header key value = .ok header') :
    H.set header key (valueOf value) = .ok header' := Except.mapError_eq_ok_iff.mp h

theorem set_own {header header' : H.Header} {occurrence : Nat} {value : Value}
    (h : H.set header ⟨card, occurrence⟩ value = .ok header') {left right : List Record}
    {record : Record} (hown : own card (H.cards header) = left ++ record :: right)
    (hleft : left.length = occurrence) :
    others card (H.cards header') = others card (H.cards header) ∧
      ∃ record', record'.kind = card.kindOf value ∧
        own card (H.cards header') = left ++ record' :: right := by
  rcases H.set_ok _ _ _ _ h with hchanges | ⟨hnone, -⟩
  · exact hchanges.own (fun _ _ _ hkind => owns_of_kind hkind) hown hleft
  · rw [← length_own, hown] at hnone
    simp at hnone

theorem set_absent {header header' : H.Header} {occurrence : Nat} {value : Value}
    (h : H.set header ⟨card, occurrence⟩ value = .ok header')
    (hown : own card (H.cards header) = []) :
    others card (H.cards header') = others card (H.cards header) ∧
      ∃ record, record.kind = card.kindOf value ∧ own card (H.cards header') = [record] := by
  rcases H.set_ok _ _ _ _ h with ⟨first, record, rest, hbefore, howns, -, -⟩ | ⟨-, record, hkind, hafter⟩
  · rw [hbefore, own_append, own_cons howns] at hown
    simp at hown
  · obtain ⟨hothers, howned⟩ := own_snoc (owns_of_kind hkind) hafter
    exact ⟨hothers, record, hkind, by rw [howned, hown, List.nil_append]⟩

end Write

/-! ## One keyword -/

section Keyword

variable {card : Card} {value : EditValue H} {header header' : H.Header}

def Hold (card : Card) (value : EditValue H) (records : List Record) : Prop :=
  ∀ record ∈ records, record.kind = card.kindOf (valueOf value)

theorem Hold.cons {record : Record} {records : List Record}
    (hrecord : record.kind = card.kindOf (valueOf value)) (h : Hold card value records) :
    Hold card value (record :: records) := by
  intro other hother
  rcases List.mem_cons.mp hother with rfl | hother
  · exact hrecord
  · exact h other hother

theorem Hold.snoc {record : Record} {records : List Record}
    (hrecord : record.kind = card.kindOf (valueOf value)) (h : Hold card value records) :
    Hold card value (records ++ [record]) := by
  intro other hother
  rcases List.mem_append.mp hother with hother | hother
  · exact h other hother
  · obtain rfl := List.mem_singleton.mp hother
    exact hrecord

/-- What overwriting the card after `left` leaves: one card more that holds the value. -/
structure Overwrote (card : Card) (value : EditValue H) (left right : List Record)
    (before after : List Record) : Prop where
  others_eq : others card after = others card before
  own_eq : ∃ done, own card after = left ++ done ∧ done.length = right.length + 1 ∧
    Hold card value done

theorem replaceCard_ok {occurrence : Nat}
    (h : replaceCard header card occurrence value = .ok header') {left right : List Record}
    {record : Record} (hown : own card (H.cards header) = left ++ record :: right)
    (hleft : left.length = occurrence) (hright : Hold card value right) :
    Overwrote card value left right (H.cards header) (H.cards header') := by
  unfold replaceCard at h
  obtain ⟨removed, hremove, h⟩ := Except.bind_eq_ok_iff.mp h
  obtain ⟨hothers, hown'⟩ := remove_own (Except.mapError_eq_ok_iff.mp hremove) hown hleft
  cases card with
  | standard keyword =>
    obtain ⟨hothers', added, hkind, hafter⟩ := append_own (Except.mapError_eq_ok_iff.mp h)
    refine ⟨hothers'.trans hothers, right ++ [added], ?_, by simp, hright.snoc hkind⟩
    rw [hafter, hown', List.append_assoc]
  | hierarch name =>
    simp only at h
    split at h
    · rename_i hempty
      have hnone : own (.hierarch name) (H.cards removed) = [] := by
        simpa [Card.comments] using hempty
      obtain ⟨hothers', added, hkind, hafter⟩ :=
        set_absent (setCard_ok (Except.mapError_eq_ok_iff.mp h)) hnone
      rw [hnone] at hown'
      obtain ⟨rfl, rfl⟩ := List.append_eq_nil_iff.mp hown'.symm
      exact ⟨hothers'.trans hothers, [added], hafter, rfl, Hold.cons hkind hright⟩
    · cases h

theorem overwriteCard_ok {occurrence room : Nat} {comment : Option Text}
    (h : overwriteCard header card occurrence comment value room = .ok header')
    {left right : List Record} {record : Record}
    (hown : own card (H.cards header) = left ++ record :: right) (hleft : left.length = occurrence)
    (hright : Hold card value right) :
    Overwrote card value left right (H.cards header) (H.cards header') := by
  unfold overwriteCard at h
  simp only at h
  split at h
  · obtain ⟨hothers, written, hkind, hafter⟩ :=
      set_own (setCard_ok (Except.mapError_eq_ok_iff.mp h)) hown hleft
    exact ⟨hothers, written :: right, hafter, rfl, hright.cons hkind⟩
  split at h
  · exact replaceCard_ok h hown hleft hright
  -- the comment goes, the value is set, and what fits of the comment comes back
  obtain ⟨cleared, hclear, h⟩ := Except.bind_eq_ok_iff.mp h
  obtain ⟨valued, hvalue, h⟩ := Except.bind_eq_ok_iff.mp h
  have hkeeps : ∀ before after : Record, card.owns before = true → after.kind = before.kind →
      card.owns after = true := by
    intro before after howns hkind
    rw [Card.owns, hkind]
    exact howns
  obtain ⟨hothers, first, -, hown₁⟩ :=
    (H.setComment_ok _ _ _ _ (Except.mapError_eq_ok_iff.mp hclear)).own hkeeps hown hleft
  obtain ⟨hothers₂, second, hkind₂, hown₂⟩ :=
    set_own (setCard_ok (Except.mapError_eq_ok_iff.mp hvalue)) hown₁ hleft
  obtain ⟨hothers₃, third, hkind₃, hown₃⟩ :=
    (H.setComment_ok _ _ _ _ (Except.mapError_eq_ok_iff.mp h)).own hkeeps hown₂ hleft
  exact ⟨(hothers₃.trans hothers₂).trans hothers, third :: right, hown₃, rfl,
    hright.cons (hkind₃.trans hkind₂)⟩

theorem overwriteFrom_ok {room : Nat} {comments : List (Option Text)}
    (h : overwriteFrom card value room comments header = .ok header') {left right : List Record}
    (hown : own card (H.cards header) = left ++ right) (hleft : left.length = comments.length)
    (hright : Hold card value right) :
    others card (H.cards header') = others card (H.cards header) ∧
      (own card (H.cards header')).length = left.length + right.length ∧
        Hold card value (own card (H.cards header')) := by
  induction comments generalizing header left right with
  | nil =>
    cases h
    obtain rfl := List.eq_nil_of_length_eq_zero hleft
    rw [hown, List.nil_append]
    exact ⟨rfl, (Nat.zero_add _).symm, hright⟩
  | cons comment rest ih =>
    obtain ⟨next, hnext, hrest⟩ := Except.bind_eq_ok_iff.mp h
    obtain ⟨init, record, rfl⟩ : ∃ init record, left = init ++ [record] := by
      rcases List.eq_nil_or_concat left with rfl | ⟨init, record, rfl⟩
      · simp at hleft
      · exact ⟨init, record, by simp⟩
    rw [List.length_append, List.length_singleton, List.length_cons] at hleft
    rw [List.append_assoc, List.singleton_append] at hown
    have hlength : init.length = rest.length := by omega
    obtain ⟨hothers, done, hown', hdone, hheld⟩ := overwriteCard_ok hnext hown hlength hright
    obtain ⟨hothers', hcount, hheld'⟩ := ih hrest hown' hlength hheld
    refine ⟨hothers'.trans hothers, ?_, hheld'⟩
    rw [hcount, hdone, List.length_append, List.length_singleton]
    omega

theorem overwriteAll_ok (h : overwriteAll header card value = .ok header') :
    others card (H.cards header') = others card (H.cards header) ∧
      (own card (H.cards header')).length = (own card (H.cards header)).length ∧
        Hold card value (own card (H.cards header')) := by
  unfold overwriteAll at h
  simp only at h
  split at h
  · rename_i hempty
    have hnone : own card (H.cards header) = [] := by simpa [Card.comments] using hempty
    cases h
    refine ⟨rfl, rfl, ?_⟩
    rw [hnone]
    exact nofun
  split at h
  · cases h
  · have hnone : Hold card value [] := nofun
    obtain ⟨hothers, hcount, hheld⟩ := overwriteFrom_ok h (List.append_nil _).symm
      (by simp [Card.comments]) hnone
    exact ⟨hothers, hcount, hheld⟩

/-! ## Refusing a value that does not fit -/

theorem replaceCard_none {occurrence : Nat}
    (h : replaceCard header card occurrence value = .error none) {left right : List Record}
    {record : Record} (hown : own card (H.cards header) = left ++ record :: right)
    (hleft : left.length = occurrence) :
    (∃ name, card = .hierarch name) ∧ 0 < left.length + right.length := by
  unfold replaceCard at h
  rcases Except.bind_eq_error_iff.mp h with hremove | ⟨removed, hremove, h⟩
  · obtain ⟨_, -, hsome⟩ := Except.mapError_eq_error_iff.mp hremove
    cases hsome
  obtain ⟨-, hown'⟩ := remove_own (Except.mapError_eq_ok_iff.mp hremove) hown hleft
  cases card with
  | standard keyword =>
    obtain ⟨_, -, hsome⟩ := Except.mapError_eq_error_iff.mp h
    cases hsome
  | hierarch name =>
    refine ⟨⟨name, rfl⟩, ?_⟩
    simp only at h
    split at h
    · obtain ⟨_, -, hsome⟩ := Except.mapError_eq_error_iff.mp h
      cases hsome
    · rename_i hmore
      have hlength : own (.hierarch name) (H.cards removed) ≠ [] := by
        intro hnone
        exact hmore (by simp [Card.comments, hnone])
      rw [hown'] at hlength
      rw [← List.length_append]
      exact List.length_pos_iff.mpr hlength

theorem overwriteCard_none {occurrence room : Nat} {comment : Option Text}
    (h : overwriteCard header card occurrence comment value room = .error none)
    {left right : List Record} {record : Record}
    (hown : own card (H.cards header) = left ++ record :: right)
    (hleft : left.length = occurrence) :
    (∃ name, card = .hierarch name) ∧ 0 < left.length + right.length := by
  unfold overwriteCard at h
  simp only at h
  split at h
  · obtain ⟨_, -, hsome⟩ := Except.mapError_eq_error_iff.mp h
    cases hsome
  split at h
  · exact replaceCard_none h hown hleft
  · rcases Except.bind_eq_error_iff.mp h with h | ⟨_, -, h⟩
    · obtain ⟨_, -, hsome⟩ := Except.mapError_eq_error_iff.mp h
      cases hsome
    · rcases Except.bind_eq_error_iff.mp h with h | ⟨_, -, h⟩
      · obtain ⟨_, -, hsome⟩ := Except.mapError_eq_error_iff.mp h
        cases hsome
      · obtain ⟨_, -, hsome⟩ := Except.mapError_eq_error_iff.mp h
        cases hsome

theorem overwriteFrom_none {room : Nat} {comments : List (Option Text)}
    (h : overwriteFrom card value room comments header = .error none) {left right : List Record}
    (hown : own card (H.cards header) = left ++ right) (hleft : left.length = comments.length)
    (hright : Hold card value right) :
    (∃ name, card = .hierarch name) ∧ 2 ≤ left.length + right.length := by
  induction comments generalizing header left right with
  | nil => cases h
  | cons comment rest ih =>
    obtain ⟨init, record, rfl⟩ : ∃ init record, left = init ++ [record] := by
      rcases List.eq_nil_or_concat left with rfl | ⟨init, record, rfl⟩
      · simp at hleft
      · exact ⟨init, record, by simp⟩
    rw [List.length_append, List.length_singleton, List.length_cons] at hleft
    rw [List.append_assoc, List.singleton_append] at hown
    have hlength : init.length = rest.length := by omega
    rw [List.length_append, List.length_singleton]
    rcases Except.bind_eq_error_iff.mp h with h | ⟨next, hnext, h⟩
    · obtain ⟨hname, hmore⟩ := overwriteCard_none h hown hlength
      exact ⟨hname, by omega⟩
    · obtain ⟨-, done, hown', hdone, hheld⟩ := overwriteCard_ok hnext hown hlength hright
      obtain ⟨hname, hmore⟩ := ih h hown' hlength hheld
      exact ⟨hname, by omega⟩

/-- A keyword is refused only where it has a card and the value alone does not fit it, or where
several `HIERARCH` cards share its name. -/
theorem overwriteAll_none (h : overwriteAll header card value = .error none) :
    own card (H.cards header) ≠ [] ∧ (card.room value = none ∨
      (∃ name, card = .hierarch name) ∧ 2 ≤ (own card (H.cards header)).length) := by
  unfold overwriteAll at h
  simp only at h
  split at h
  · cases h
  rename_i hsome
  refine ⟨fun hnone => hsome (by simp [Card.comments, hnone]), ?_⟩
  split at h
  · rename_i hroom
    exact .inl hroom
  · have hnone : Hold card value [] := nofun
    obtain ⟨hname, hmore⟩ := overwriteFrom_none h (List.append_nil _).symm
      (by simp [Card.comments]) hnone
    exact .inr ⟨hname, by simpa using hmore⟩

def OfPackage (error : Option PatchError) : Prop :=
  ∀ found, error = some found → ∃ detail, found = .header detail

theorem ofPackage_mapError {α : Type} {x : Except Text α} {error : Option PatchError}
    (h : x.mapError (some ∘ headerError) = .error error) : OfPackage error := by
  obtain ⟨detail, -, rfl⟩ := Except.mapError_eq_error_iff.mp h
  intro found hfound
  cases hfound
  exact ⟨detail, rfl⟩

theorem ofPackage_setCard {key : Key} {error : Option PatchError}
    (h : (setCard header key value).mapError some = .error error) : OfPackage error := by
  obtain ⟨found, hset, rfl⟩ := Except.mapError_eq_error_iff.mp h
  obtain ⟨detail, -, rfl⟩ := Except.mapError_eq_error_iff.mp hset
  intro other hother
  cases hother
  exact ⟨detail, rfl⟩

theorem overwriteCard_error {occurrence room : Nat} {comment : Option Text}
    {error : Option PatchError}
    (h : overwriteCard header card occurrence comment value room = .error error) :
    OfPackage error := by
  unfold overwriteCard at h
  simp only at h
  split at h
  · exact ofPackage_setCard h
  split at h
  · unfold replaceCard at h
    rcases Except.bind_eq_error_iff.mp h with hremove | ⟨removed, -, h⟩
    · exact ofPackage_mapError hremove
    cases card with
    | standard keyword => exact ofPackage_mapError h
    | hierarch name =>
      simp only at h
      split at h
      · exact ofPackage_setCard h
      · cases h
        exact nofun
  · rcases Except.bind_eq_error_iff.mp h with h | ⟨_, -, h⟩
    · exact ofPackage_mapError h
    · rcases Except.bind_eq_error_iff.mp h with h | ⟨_, -, h⟩
      · exact ofPackage_setCard h
      · exact ofPackage_mapError h

theorem overwriteAll_error {error : Option PatchError}
    (h : overwriteAll header card value = .error error) : OfPackage error := by
  have hloop : ∀ (comments : List (Option Text)) (header : H.Header) (room : Nat),
      overwriteFrom card value room comments header = .error error → OfPackage error := by
    intro comments
    induction comments with
    | nil => exact fun _ _ h => by cases h
    | cons comment rest ih =>
      intro header room h
      rcases Except.bind_eq_error_iff.mp h with h | ⟨next, -, h⟩
      · exact overwriteCard_error h
      · exact ih next room h
  unfold overwriteAll at h
  simp only at h
  split at h
  · cases h
  split at h
  · cases h
    exact nofun
  · exact hloop _ _ _ h

theorem orTooLong_eq_tooLong {index edit : Nat} {error : Option PatchError}
    (herror : OfPackage error) (h : orTooLong index error = .refused edit .tooLong) :
    error = none ∧ edit = index := by
  cases error with
  | none =>
    cases h
    exact ⟨rfl, rfl⟩
  | some found =>
    obtain ⟨detail, rfl⟩ := herror found rfl
    cases h

end Keyword

/-! ## A list of keywords -/

section Pairs

variable {pairs : List (Card × EditValue H)} {header header' : H.Header}

def touched (pairs : List (Card × EditValue H)) (record : Record) : Bool :=
  pairs.any fun pair => pair.1.owns record

def lastValue (pairs : List (Card × EditValue H)) (card : Card) : Option (EditValue H) :=
  (pairs.reverse.find? fun pair => pair.1 = card).map Prod.snd

theorem lastValue_append (first rest : List (Card × EditValue H)) (card : Card) :
    lastValue (first ++ rest) card = (lastValue rest card).or (lastValue first card) := by
  unfold lastValue
  rw [List.reverse_append, List.find?_append]
  cases (rest.reverse.find? fun pair => pair.1 = card) <;> rfl

theorem lastValue_singleton (pair : Card × EditValue H) (card : Card) :
    lastValue [pair] card = if pair.1 = card then some pair.2 else none := by
  by_cases h : pair.1 = card <;> simp [lastValue, h]

theorem lastValue_eq_none {card : Card} :
    lastValue pairs card = none ↔ ∀ pair ∈ pairs, pair.1 ≠ card := by
  simp [lastValue]

/-- What writes leave of a header's cards: those of no keyword written as they were, and the cards of
a keyword that was written with the value written last. -/
structure Wrote (pairs : List (Card × EditValue H)) (before after : List Record) : Prop where
  untouched : (after.filter fun record => !touched pairs record) =
    before.filter fun record => !touched pairs record
  own_eq : ∀ card, lastValue pairs card = none → own card after = own card before
  held : ∀ card value, lastValue pairs card = some value → Hold card value (own card after)
  le_length : ∀ card, (own card before).length ≤ (own card after).length

theorem Wrote.refl (cards : List Record) : Wrote ([] : List (Card × EditValue H)) cards cards :=
  ⟨rfl, fun _ _ => rfl, nofun, fun _ => le_rfl⟩

theorem filter_not_touched_append (first rest : List (Card × EditValue H)) (cards : List Record) :
    (cards.filter fun record => !touched (first ++ rest) record) =
      (cards.filter fun record => !touched first record).filter
        fun record => !touched rest record := by
  rw [List.filter_filter]
  apply List.filter_congr
  intro record _
  simp [touched, Bool.and_comm]

theorem filter_not_touched_comm (first rest : List (Card × EditValue H)) (cards : List Record) :
    (cards.filter fun record => !touched (first ++ rest) record) =
      (cards.filter fun record => !touched rest record).filter
        fun record => !touched first record := by
  rw [List.filter_filter]
  apply List.filter_congr
  intro record _
  simp [touched]

theorem Wrote.trans {rest : List (Card × EditValue H)} {before middle after : List Record}
    (h : Wrote pairs before middle) (h' : Wrote rest middle after) :
    Wrote (pairs ++ rest) before after := by
  refine ⟨?_, ?_, ?_, fun card => (h.le_length card).trans (h'.le_length card)⟩
  · rw [filter_not_touched_comm, h'.untouched, ← filter_not_touched_comm, filter_not_touched_append,
      h.untouched, ← filter_not_touched_append]
  · intro card hnone
    rw [lastValue_append, Option.or_eq_none_iff] at hnone
    rw [h'.own_eq card hnone.1, h.own_eq card hnone.2]
  · intro card value hvalue
    rw [lastValue_append] at hvalue
    cases hrest : lastValue rest card with
    | some found =>
      rw [hrest] at hvalue
      cases hvalue
      exact h'.held card _ hrest
    | none =>
      rw [hrest] at hvalue
      rw [h'.own_eq card hrest]
      exact h.held card value hvalue

theorem wrote_one {card : Card} {value : EditValue H} {before after : List Record}
    (hothers : others card after = others card before)
    (hlength : (own card before).length ≤ (own card after).length)
    (hheld : Hold card value (own card after)) : Wrote [(card, value)] before after := by
  refine ⟨?_, ?_, ?_, fun other => ?_⟩
  · simpa [touched, others] using hothers
  · intro other hnone
    have hne : card ≠ other := by simpa using lastValue_eq_none.mp hnone
    exact own_of_others hne.symm hothers
  · intro other written hwritten
    rw [lastValue_singleton] at hwritten
    split at hwritten
    · rename_i hcard
      obtain rfl : card = other := hcard
      cases hwritten
      exact hheld
    · cases hwritten
  · by_cases hne : other = card
    · exact hne ▸ hlength
    · exact (congrArg List.length (own_of_others hne hothers)).ge

theorem overwriteEach_ok {index : Nat} (h : overwriteEach index pairs header = .ok header') :
    Wrote pairs (H.cards header) (H.cards header') ∧
      ∀ card, (own card (H.cards header')).length = (own card (H.cards header)).length := by
  induction pairs generalizing header with
  | nil =>
    cases h
    exact ⟨Wrote.refl _, fun _ => rfl⟩
  | cons pair rest ih =>
    obtain ⟨card, value⟩ := pair
    obtain ⟨next, hnext, hrest⟩ := Except.bind_eq_ok_iff.mp h
    obtain ⟨hothers, hlength, hheld⟩ := overwriteAll_ok (Except.mapError_eq_ok_iff.mp hnext)
    obtain ⟨hwrote, hlengths⟩ := ih hrest
    refine ⟨(wrote_one hothers hlength.ge hheld).trans hwrote, fun other => ?_⟩
    rw [hlengths other]
    by_cases hne : other = card
    · exact hne ▸ hlength
    · rw [own_of_others hne hothers]

theorem overwriteEach_tooLong {index edit : Nat}
    (h : overwriteEach index pairs header = .error (.refused edit .tooLong)) :
    edit = index ∧ ∃ pair ∈ pairs, own pair.1 (H.cards header) ≠ [] ∧
      (pair.1.room pair.2 = none ∨
        (∃ name, pair.1 = .hierarch name) ∧ 2 ≤ (own pair.1 (H.cards header)).length) := by
  induction pairs generalizing header with
  | nil => cases h
  | cons pair rest ih =>
    obtain ⟨card, value⟩ := pair
    rcases Except.bind_eq_error_iff.mp h with h | ⟨next, hnext, h⟩
    · obtain ⟨error, hall, herror⟩ := Except.mapError_eq_error_iff.mp h
      obtain ⟨rfl, hindex⟩ := orTooLong_eq_tooLong (overwriteAll_error hall) herror
      obtain ⟨hsome, hwhy⟩ := overwriteAll_none hall
      exact ⟨hindex, (card, value), List.mem_cons_self, hsome, hwhy⟩
    · obtain ⟨hindex, pair, hpair, hsome, hwhy⟩ := ih h
      obtain ⟨hothers, hlength, -⟩ := overwriteAll_ok (Except.mapError_eq_ok_iff.mp hnext)
      have hsame : (own pair.1 (H.cards next)).length = (own pair.1 (H.cards header)).length := by
        by_cases hne : pair.1 = card
        · exact hne ▸ hlength
        · rw [own_of_others hne hothers]
      rw [hsame] at hwhy
      refine ⟨hindex, pair, List.mem_cons_of_mem _ hpair, fun hnone => hsome ?_, hwhy⟩
      exact List.eq_nil_of_length_eq_zero (hsame.trans (by rw [hnone]; rfl))

end Pairs

/-! ## One edit -/

section Edit

variable {edit : FieldEdit H} {header header' : H.Header}

/-- The cards an edit writes, each with its value, in the order they are written. -/
def FieldEdit.written (edit : FieldEdit H) : List (Card × EditValue H) :=
  edit.standards ++ match edit.canonical with
    | none => []
    | some canonical => edit.aliases canonical

theorem Wrote.absorb {pairs : List (Card × EditValue H)} {card : Card} {value : EditValue H}
    {before after : List Record} (h : Wrote (pairs ++ [(card, value)]) before after)
    (hvalue : lastValue pairs card = some value) : Wrote pairs before after := by
  have hlast : ∀ other, lastValue (pairs ++ [(card, value)]) other = lastValue pairs other := by
    intro other
    rw [lastValue_append, lastValue_singleton]
    split
    · rename_i hcard
      obtain rfl : card = other := hcard
      rw [hvalue]
      rfl
    · rfl
  have htouched : ∀ record, touched (pairs ++ [(card, value)]) record = touched pairs record := by
    intro record
    simp only [touched, List.any_append, List.any_cons, List.any_nil, Bool.or_false]
    cases howns : card.owns record with
    | false => rw [Bool.or_false]
    | true =>
      rw [Bool.or_true, eq_comm, List.any_eq_true]
      by_contra hnone
      have : lastValue pairs card = none := by
        refine lastValue_eq_none.mpr fun pair hpair hcard => hnone ⟨pair, hpair, ?_⟩
        rw [hcard, howns]
      rw [hvalue] at this
      cases this
  refine ⟨?_, fun other hnone => h.own_eq other ((hlast other).trans hnone),
    fun other written hwritten => h.held other written ((hlast other).trans hwritten), h.le_length⟩
  simpa only [htouched] using h.untouched

theorem lastValue_canonical (hwrites : (edit.writes.map (·.keyword)).Nodup)
    {canonical : KeywordWrite H} (hcanonical : edit.canonical = some canonical) :
    lastValue edit.standards (.standard canonical.keyword) = some canonical.value := by
  unfold FieldEdit.canonical at hcanonical
  obtain ⟨rest, hrest⟩ := List.head?_eq_some_iff.mp hcanonical
  rw [hrest, List.map_cons, List.nodup_cons] at hwrites
  have hstandards : edit.standards = [(Card.standard canonical.keyword, canonical.value)] ++
      rest.map fun write => (Card.standard write.keyword, write.value) := by
    rw [FieldEdit.standards, hrest]
    rfl
  rw [hstandards, lastValue_append, lastValue_singleton, if_pos rfl]
  have hnone : lastValue (rest.map fun write => (Card.standard write.keyword, write.value))
      (.standard canonical.keyword) = none := by
    refine lastValue_eq_none.mpr fun pair hpair hcard => hwrites.1 ?_
    obtain ⟨write, hwrite, rfl⟩ := List.mem_map.mp hpair
    exact List.mem_map.mpr ⟨write, hwrite, Card.standard.inj hcard⟩
  rw [hnone]
  rfl

theorem lastValue_aliases (canonical : KeywordWrite H) (keyword : Text) :
    lastValue (edit.aliases canonical) (.standard keyword) = none := by
  refine lastValue_eq_none.mpr fun pair hpair hcard => ?_
  obtain ⟨name, -, rfl⟩ := List.mem_map.mp hpair
  cases hcard

theorem setCard_wrote {card : Card} {value : EditValue H}
    (h : setCard header ⟨card, 0⟩ value = .ok header')
    (hheld : Hold card value (own card (H.cards header))) :
    Wrote [(card, value)] (H.cards header) (H.cards header') ∧
      own card (H.cards header') ≠ [] := by
  cases hown : own card (H.cards header) with
  | nil =>
    obtain ⟨hothers, record, hkind, hafter⟩ := set_absent (setCard_ok h) hown
    refine ⟨wrote_one hothers (by simp [hown]) ?_, by simp [hafter]⟩
    rw [hafter]
    exact Hold.cons hkind nofun
  | cons first rest =>
    obtain ⟨hothers, record, hkind, hafter⟩ :=
      set_own (setCard_ok h) (hown.trans (List.nil_append _).symm) rfl
    rw [List.nil_append] at hafter
    refine ⟨wrote_one hothers (by simp [hown, hafter]) ?_, by simp [hafter]⟩
    rw [hafter]
    exact Hold.cons hkind fun other hother => hheld other (hown ▸ List.mem_cons_of_mem _ hother)

/-- What one edit leaves: its cards written, its canonical keyword there unless one of `addUnless`
was, and no other keyword's card added. -/
theorem apply_ok {index : Nat} (hwrites : (edit.writes.map (·.keyword)).Nodup)
    (h : edit.apply index header = .ok header') :
    Wrote edit.written (H.cards header) (H.cards header') ∧
    (∀ canonical, edit.canonical = some canonical →
      own (.standard canonical.keyword) (H.cards header') ≠ [] ∨
        ∃ keyword ∈ edit.addUnless, own (.standard keyword) (H.cards header) ≠ []) ∧
    ∀ card, (∀ canonical, edit.canonical = some canonical → card ≠ .standard canonical.keyword) →
      (own card (H.cards header')).length = (own card (H.cards header)).length := by
  unfold FieldEdit.apply at h
  split at h
  · cases h
  simp only at h
  obtain ⟨standard, hstandard, h⟩ := Except.bind_eq_ok_iff.mp h
  obtain ⟨hwrote, hlength⟩ := overwriteEach_ok hstandard
  unfold FieldEdit.written
  cases hcanonical : edit.canonical with
  | none =>
    rw [hcanonical] at h
    cases h
    exact ⟨by simpa using hwrote, nofun, fun card _ => hlength card⟩
  | some canonical =>
    rw [hcanonical] at h
    obtain ⟨aliased, haliased, h⟩ := Except.bind_eq_ok_iff.mp h
    obtain ⟨hwrote', hlength'⟩ := overwriteEach_ok haliased
    have hboth := hwrote.trans hwrote'
    split at h
    · rename_i hpresent
      cases h
      refine ⟨hboth, fun found _ => .inr ?_, fun card _ => (hlength' card).trans (hlength card)⟩
      obtain ⟨keyword, hkeyword, hcount⟩ := List.any_eq_true.mp hpresent
      refine ⟨keyword, hkeyword, ?_⟩
      rw [decide_eq_true_eq, H.count_eq, ← length_own] at hcount
      exact List.length_pos_iff.mp hcount
    · have hvalue : lastValue (edit.standards ++ edit.aliases canonical)
          (.standard canonical.keyword) = some canonical.value := by
        rw [lastValue_append, lastValue_aliases, lastValue_canonical hwrites hcanonical]
        rfl
      obtain ⟨hset, hsome⟩ := setCard_wrote h (hboth.held _ _ hvalue)
      refine ⟨(hboth.trans hset).absorb hvalue, fun found hfound => .inl ?_, fun card hne => ?_⟩
      · cases hfound
        exact hsome
      · rw [hset.own_eq card, hlength', hlength]
        rw [lastValue_singleton, if_neg (hne canonical rfl).symm]

theorem apply_tooLong {index found : Nat}
    (h : edit.apply index header = .error (.refused found .tooLong)) :
    found = index ∧ ∃ pair ∈ edit.written, own pair.1 (H.cards header) ≠ [] ∧
      (pair.1.room pair.2 = none ∨
        (∃ name, pair.1 = .hierarch name) ∧ 2 ≤ (own pair.1 (H.cards header)).length) := by
  unfold FieldEdit.apply at h
  split at h
  · cases h
  simp only at h
  unfold FieldEdit.written
  rcases Except.bind_eq_error_iff.mp h with h | ⟨standard, hstandard, h⟩
  · obtain ⟨hindex, pair, hpair, hwhy⟩ := overwriteEach_tooLong h
    exact ⟨hindex, pair, List.mem_append_left _ hpair, hwhy⟩
  obtain ⟨-, hlength⟩ := overwriteEach_ok hstandard
  cases hcanonical : edit.canonical with
  | none =>
    rw [hcanonical] at h
    cases h
  | some canonical =>
    rw [hcanonical] at h
    rcases Except.bind_eq_error_iff.mp h with h | ⟨aliased, -, h⟩
    · obtain ⟨hindex, pair, hpair, hsome, hwhy⟩ := overwriteEach_tooLong h
      rw [hlength] at hwhy
      refine ⟨hindex, pair, List.mem_append_right _ hpair, fun hnone => hsome ?_, hwhy⟩
      exact List.eq_nil_of_length_eq_zero ((hlength pair.1).trans (by rw [hnone]; rfl))
    · split at h
      · cases h
      · obtain ⟨detail, -, hheader⟩ := Except.mapError_eq_error_iff.mp h
        cases hheader

end Edit

/-! ## All edits -/

section Edited

variable {edits : List (FieldEdit H)} {header header' : H.Header}

/-- The cards a list of edits writes, in the order they are written. -/
def writtenBy (edits : List (FieldEdit H)) : List (Card × EditValue H) :=
  edits.flatMap FieldEdit.written

/-- What an accepted list of edits leaves of the cards before: `Wrote` of all they write, each edit's
canonical keyword unless one of its `addUnless` is there, and as many cards as before of every
keyword that is canonical in none of them. -/
structure Patched (edits : List (FieldEdit H)) (before after : List Record) : Prop where
  wrote : Wrote (writtenBy edits) before after
  canonical : ∀ edit ∈ edits, ∀ canonical, edit.canonical = some canonical →
    own (.standard canonical.keyword) after ≠ [] ∨
      ∃ keyword ∈ edit.addUnless, own (.standard keyword) after ≠ []
  length_eq : ∀ card, (∀ edit ∈ edits, ∀ canonical, edit.canonical = some canonical →
    card ≠ .standard canonical.keyword) → (own card after).length = (own card before).length

theorem Wrote.ne_nil {pairs : List (Card × EditValue H)} {before after : List Record}
    (h : Wrote pairs before after) {card : Card} (hbefore : own card before ≠ []) :
    own card after ≠ [] :=
  List.length_pos_iff.mp ((List.length_pos_iff.mpr hbefore).trans_le (h.le_length card))

theorem applyFrom_ok {index : Nat}
    (hwrites : ∀ edit ∈ edits, (edit.writes.map (·.keyword)).Nodup)
    (h : applyFrom index edits header = .ok header') :
    Patched edits (H.cards header) (H.cards header') := by
  induction edits generalizing index header with
  | nil =>
    cases h
    exact ⟨Wrote.refl _, nofun, fun _ _ => rfl⟩
  | cons edit rest ih =>
    obtain ⟨next, hnext, hrest⟩ := Except.bind_eq_ok_iff.mp h
    obtain ⟨hwrote, hcanonical, hlength⟩ := apply_ok (hwrites edit List.mem_cons_self) hnext
    have hlater := ih (fun other hother => hwrites other (List.mem_cons_of_mem _ hother)) hrest
    refine ⟨hwrote.trans hlater.wrote, ?_, fun card hcard => ?_⟩
    · intro other hother canonical hfound
      rcases List.mem_cons.mp hother with rfl | hother
      · rcases hcanonical canonical hfound with hpresent | ⟨keyword, hkeyword, hpresent⟩
        · exact .inl (hlater.wrote.ne_nil hpresent)
        · exact .inr ⟨keyword, hkeyword, hlater.wrote.ne_nil (hwrote.ne_nil hpresent)⟩
      · exact hlater.canonical other hother canonical hfound
    · rw [hlater.length_eq card fun other hother => hcard other (List.mem_cons_of_mem _ hother),
        hlength card (hcard edit List.mem_cons_self)]

theorem applyFrom_tooLong {index found : Nat}
    (hwrites : ∀ edit ∈ edits, (edit.writes.map (·.keyword)).Nodup)
    (h : applyFrom index edits header = .error (.refused found .tooLong)) :
    ∃ k edit, found = index + k ∧ edits[k]? = some edit ∧ ∃ pair ∈ edit.written,
      (own pair.1 (H.cards header) ≠ [] ∨ ∃ earlier ∈ edits.take k, ∃ canonical,
        earlier.canonical = some canonical ∧ pair.1 = .standard canonical.keyword) ∧
      (pair.1.room pair.2 = none ∨
        (∃ name, pair.1 = .hierarch name) ∧ 2 ≤ (own pair.1 (H.cards header)).length) := by
  induction edits generalizing index header with
  | nil => cases h
  | cons edit rest ih =>
    rcases Except.bind_eq_error_iff.mp h with h | ⟨next, hnext, h⟩
    · obtain ⟨rfl, pair, hpair, hsome, hwhy⟩ := apply_tooLong h
      exact ⟨0, edit, rfl, rfl, pair, hpair, .inl hsome, hwhy⟩
    · obtain ⟨-, -, hlength⟩ := apply_ok (hwrites edit List.mem_cons_self) hnext
      obtain ⟨k, other, rfl, hother, pair, hpair, hsome, hwhy⟩ :=
        ih (fun other hother => hwrites other (List.mem_cons_of_mem _ hother)) h
      refine ⟨k + 1, other, by omega, hother, pair, hpair, ?_, ?_⟩
      · rcases hsome with hsome | ⟨earlier, hearlier, canonical, hcanonical, hcard⟩
        · by_cases hnew : ∃ canonical, edit.canonical = some canonical ∧
            pair.1 = .standard canonical.keyword
          · obtain ⟨canonical, hcanonical, hcard⟩ := hnew
            exact .inr ⟨edit, List.mem_cons_self, canonical, hcanonical, hcard⟩
          · refine .inl fun hnone => hsome ?_
            have hsame := hlength pair.1 fun canonical hcanonical hcard =>
              hnew ⟨canonical, hcanonical, hcard⟩
            exact List.eq_nil_of_length_eq_zero (hsame.trans (by rw [hnone]; rfl))
        · exact .inr ⟨earlier, List.mem_cons_of_mem _ hearlier, canonical, hcanonical, hcard⟩
      · refine hwhy.imp_right fun hmany => ⟨hmany.1, ?_⟩
        obtain ⟨name, hname⟩ := hmany.1
        have hsame := hlength pair.1 fun canonical _ hcard => by
          rw [hname] at hcard
          cases hcard
        rw [← hsame]
        exact hmany.2

theorem eq_others {card : Card} {cards : List Record} (h : cards.countP card.owns = 0) :
    cards = others card cards := by
  rw [List.countP_eq_zero] at h
  exact (List.filter_eq_self.mpr fun record hrecord => by simp [h record hrecord]).symm

theorem dropChecksums_ok {steps : Nat} (hsteps : H.count header "CHECKSUM".toList ≤ steps)
    (h : dropChecksums steps header = .ok header') :
    H.cards header' = others (.standard "CHECKSUM".toList) (H.cards header) := by
  induction steps generalizing header with
  | zero =>
    rw [dropChecksums] at h
    cases h
    rw [H.count_eq] at hsteps
    exact eq_others (Nat.le_zero.mp hsteps)
  | succ steps ih =>
    rw [dropChecksums] at h
    split at h
    · obtain ⟨next, hnext, hrest⟩ := Except.bind_eq_ok_iff.mp h
      obtain ⟨first, record, rest, hbefore, howns, -, hafter⟩ :=
        H.remove_ok _ _ _ (Except.mapError_eq_ok_iff.mp hnext)
      replace howns : (Card.standard "CHECKSUM".toList).owns record = true := howns
      have hless : H.count next "CHECKSUM".toList ≤ steps := by
        rw [H.count_eq, hbefore, List.countP_append, List.countP_cons_of_pos howns] at hsteps
        rw [H.count_eq, hafter, List.countP_append]
        omega
      rw [ih hless hrest, hbefore, hafter, others_append, others_append, others_cons howns]
    · rename_i hnone
      cases h
      rw [H.count_eq] at hnone
      exact eq_others (Nat.eq_zero_of_not_pos hnone)

theorem dropChecksums_error {steps : Nat} {error : PatchError}
    (h : dropChecksums steps header = .error error) : ∃ detail, error = .header detail := by
  induction steps generalizing header with
  | zero => cases h
  | succ steps ih =>
    rw [dropChecksums] at h
    split at h
    · rcases Except.bind_eq_error_iff.mp h with h | ⟨next, -, h⟩
      · obtain ⟨detail, -, rfl⟩ := Except.mapError_eq_error_iff.mp h
        exact ⟨detail, rfl⟩
      · exact ih h
    · cases h

theorem forM_eq_error {α ε : Type} {f : α → Except ε Unit} {as : List α} {error : ε}
    (h : as.forM f = .error error) : ∃ a ∈ as, f a = .error error := by
  induction as with
  | nil => cases h
  | cons a as ih =>
    rcases Except.bind_eq_error_iff.mp h with h | ⟨_, -, h⟩
    · exact ⟨a, List.mem_cons_self, h⟩
    · obtain ⟨b, hb, herror⟩ := ih h
      exact ⟨b, List.mem_cons_of_mem _ hb, herror⟩

theorem validateFrom_error {index found : Nat} {reason : Refusal}
    (h : validateFrom index edits = .error (.refused found reason)) :
    ∃ k edit, found = index + k ∧ edits[k]? = some edit ∧
      ∃ text ∈ edit.texts, fitsText text = .error reason := by
  induction edits generalizing index with
  | nil => cases h
  | cons edit rest ih =>
    rcases Except.bind_eq_error_iff.mp h with h | ⟨_, -, h⟩
    · obtain ⟨text, htext, herror⟩ := forM_eq_error h
      obtain ⟨_, hfits, hrefused⟩ := Except.mapError_eq_error_iff.mp herror
      cases hrefused
      exact ⟨0, edit, rfl, rfl, text, htext, hfits⟩
    · obtain ⟨k, other, rfl, hother, htext⟩ := ih h
      exact ⟨k + 1, other, by omega, hother, htext⟩

end Edited

/-- An accepted list of edits leaves every card of the keywords it writes with the value written to
it last, and every other card but `CHECKSUM` as it was and in its place among them. A canonical
keyword is there unless one of its edit's `addUnless` is, and no other keyword gains a card. An edit
is refused as too long only for a text no card can hold or, where no `HIERARCH` name of the edit is
on two cards, for a value too long for one of its cards. -/
theorem edited_patches (H : Headers) (bytes : Text) (edits : List (FieldEdit H))
    (hwrites : ∀ edit ∈ edits, (edit.writes.map (·.keyword)).Nodup) :
    (∀ header', edited H bytes edits = .ok header' → ∃ header, H.parse bytes = some header ∧
      Patched edits (others (.standard "CHECKSUM".toList) (H.cards header)) (H.cards header')) ∧
    ∀ index, edited H bytes edits = .error (.refused index .tooLong) →
      ∃ edit, edits[index]? = some edit ∧
        ((∃ text ∈ edit.texts, fitsText text = .error .tooLong) ∨
          ∃ header, H.parse bytes = some header ∧
            ((∀ name ∈ edit.hierarch, (own (.hierarch name) (H.cards header)).length ≤ 1) →
              ∃ pair ∈ edit.written, pair.1.room pair.2 = none ∧
                (own pair.1 (H.cards header) ≠ [] ∨ ∃ earlier ∈ edits.take index, ∃ canonical,
                  earlier.canonical = some canonical ∧
                    pair.1 = .standard canonical.keyword))) := by
  constructor
  · intro header' h
    obtain ⟨-, -, h⟩ := Except.bind_eq_ok_iff.mp h
    split at h
    · cases h
    rename_i header hparse
    split at h
    · cases h
    split at h
    · cases h
    obtain ⟨dropped, hdropped, h⟩ := Except.bind_eq_ok_iff.mp h
    refine ⟨header, hparse, ?_⟩
    rw [← dropChecksums_ok le_rfl hdropped]
    exact applyFrom_ok hwrites h
  · intro index h
    rcases Except.bind_eq_error_iff.mp h with h | ⟨-, -, h⟩
    · obtain ⟨k, edit, hindex, hedit, htext⟩ := validateFrom_error h
      rw [Nat.zero_add] at hindex
      exact ⟨edit, hindex ▸ hedit, .inl htext⟩
    split at h
    · cases h
    rename_i header hparse
    split at h
    · cases h
    split at h
    · cases h
    rcases Except.bind_eq_error_iff.mp h with h | ⟨dropped, hdropped, h⟩
    · obtain ⟨detail, hheader⟩ := dropChecksums_error h
      cases hheader
    have hcards := dropChecksums_ok le_rfl hdropped
    obtain ⟨k, edit, hindex, hedit, pair, hpair, hsome, hwhy⟩ := applyFrom_tooLong hwrites h
    rw [Nat.zero_add] at hindex
    subst hindex
    refine ⟨edit, hedit, .inr ⟨header, hparse, fun hfew => ⟨pair, hpair, ?_, ?_⟩⟩⟩
    · rcases hwhy with hroom | ⟨⟨name, hname⟩, hmany⟩
      · exact hroom
      · -- a name of the edit's own, on two cards
        exfalso
        rw [hcards, own_others (by rw [hname]; nofun), hname] at hmany
        have hmem : name ∈ edit.hierarch := by
          unfold FieldEdit.written at hpair
          rcases List.mem_append.mp hpair with hpair | hpair
          · obtain ⟨write, -, rfl⟩ := List.mem_map.mp hpair
            cases hname
          · cases hcanonical : edit.canonical with
            | none =>
              rw [hcanonical] at hpair
              cases hpair
            | some canonical =>
              rw [hcanonical] at hpair
              obtain ⟨found, hfound, rfl⟩ := List.mem_map.mp hpair
              cases hname
              exact hfound
        exact absurd (hfew name hmem) (by omega)
    · refine hsome.imp_left fun howned hnone => howned ?_
      rw [hcards, own, others, List.filter_filter, List.filter_eq_nil_iff]
      intro record hrecord hboth
      rw [own, List.filter_eq_nil_iff] at hnone
      exact hnone record hrecord (Bool.and_eq_true_iff.mp hboth).1

/-! ## A header as its cards -/

def changeAt (card : Card) (change : Record → Record) : Nat → List Record → Option (List Record)
  | _, [] => none
  | occurrence, record :: rest =>
    if card.owns record then
      match occurrence with
      | 0 => some (change record :: rest)
      | occurrence + 1 => (changeAt card change occurrence rest).map (record :: ·)
    else (changeAt card change occurrence rest).map (record :: ·)

theorem changeAt_eq_some {card : Card} {change : Record → Record} {occurrence : Nat}
    {cards after : List Record} (h : changeAt card change occurrence cards = some after) :
    Changes ⟨card, occurrence⟩ (fun record record' => record' = change record) cards after := by
  induction cards generalizing occurrence after with
  | nil => cases h
  | cons record rest ih =>
    rw [changeAt.eq_def] at h
    simp only at h
    split at h
    · rename_i howns
      cases occurrence with
      | zero =>
        cases h
        exact ⟨[], record, rest, rfl, howns, rfl, change record, rfl, rfl⟩
      | succ occurrence =>
        obtain ⟨tail, htail, rfl⟩ := Option.map_eq_some_iff.mp h
        obtain ⟨first, found, more, rfl, hfound, hcount, record', hrecord, rfl⟩ := ih htail
        refine ⟨record :: first, found, more, rfl, hfound, ?_, record', hrecord, rfl⟩
        rw [List.countP_cons_of_pos howns]
        exact congrArg Nat.succ hcount
    · rename_i howns
      obtain ⟨tail, htail, rfl⟩ := Option.map_eq_some_iff.mp h
      obtain ⟨first, found, more, rfl, hfound, hcount, record', hrecord, rfl⟩ := ih htail
      refine ⟨record :: first, found, more, rfl, hfound, ?_, record', hrecord, rfl⟩
      rw [List.countP_cons_of_neg howns]
      exact hcount

def removeAt (card : Card) : Nat → List Record → Option (List Record)
  | _, [] => none
  | occurrence, record :: rest =>
    if card.owns record then
      match occurrence with
      | 0 => some rest
      | occurrence + 1 => (removeAt card occurrence rest).map (record :: ·)
    else (removeAt card occurrence rest).map (record :: ·)

theorem removeAt_eq_some {card : Card} {occurrence : Nat} {cards after : List Record}
    (h : removeAt card occurrence cards = some after) :
    ∃ first record rest, cards = first ++ record :: rest ∧ card.owns record = true ∧
      first.countP card.owns = occurrence ∧ after = first ++ rest := by
  induction cards generalizing occurrence after with
  | nil => cases h
  | cons record rest ih =>
    rw [removeAt.eq_def] at h
    simp only at h
    split at h
    · rename_i howns
      cases occurrence with
      | zero =>
        cases h
        exact ⟨[], record, rest, rfl, howns, rfl, rfl⟩
      | succ occurrence =>
        obtain ⟨tail, htail, rfl⟩ := Option.map_eq_some_iff.mp h
        obtain ⟨first, found, more, rfl, hfound, hcount, rfl⟩ := ih htail
        refine ⟨record :: first, found, more, rfl, hfound, ?_, rfl⟩
        rw [List.countP_cons_of_pos howns, hcount]
    · rename_i howns
      obtain ⟨tail, htail, rfl⟩ := Option.map_eq_some_iff.mp h
      obtain ⟨first, found, more, rfl, hfound, hcount, rfl⟩ := ih htail
      refine ⟨record :: first, found, more, rfl, hfound, ?_, rfl⟩
      rw [List.countP_cons_of_neg howns, hcount]

def padded (line : String) : Text := line.toList ++ List.replicate (cardLen - line.length) ' '

/-- A header block that holds an exposure under its alias alone. -/
def exposureText : Text :=
  padded "SIMPLE  =                    T" ++ padded "NAXIS   =                    2" ++
    padded "EXPOSURE=                 60.0" ++ padded "END" ++ List.replicate 2560 ' '

def exposureCards : List Record :=
  [⟨.value "SIMPLE".toList (.literal "T".toList), none, padded "SIMPLE  =                    T"⟩,
    ⟨.value "NAXIS".toList (.literal "2".toList), none, padded "NAXIS   =                    2"⟩,
    ⟨.value "EXPOSURE".toList (.literal "60.0".toList), none,
      padded "EXPOSURE=                 60.0"⟩]

abbrev cardLists : Headers where
  Header := List Record
  F64 := Int
  parse text := if text.take 6 = "SIMPLE".toList then some exposureCards else none
  cards header := header
  naxis _ := some 2
  count header keyword := header.countP (Card.standard keyword).owns
  set header key value :=
    match changeAt key.card (fun record => { record with kind := key.card.kindOf value, image := [] })
        key.occurrence header with
    | some header' => .ok header'
    | none =>
      if header.countP key.card.owns = 0 then .ok (header ++ [⟨key.card.kindOf value, none, []⟩])
      else .error "no such card".toList
  append header keyword value := .ok (header ++ [⟨.value keyword value, none, []⟩])
  remove header key :=
    match removeAt key.card key.occurrence header with
    | some header' => .ok header'
    | none => .error "no such card".toList
  setComment header key comment :=
    match changeAt key.card (fun record => { record with comment := some comment, image := [] })
        key.occurrence header with
    | some header' => .ok header'
    | none => .error "no such card".toList
  realToken number := decimal number.toNat ++ ".0".toList
  integerToken number := decimal number.toNat
  count_eq _ _ := rfl
  set_ok header key value header' h := by
    split at h
    · rename_i hchange
      cases h
      obtain ⟨first, record, rest, hbefore, howns, hcount, record', rfl, hafter⟩ :=
        changeAt_eq_some hchange
      exact .inl ⟨first, record, rest, hbefore, howns, hcount, _, rfl, hafter⟩
    · split at h
      · rename_i hnone
        cases h
        exact .inr ⟨hnone, _, rfl, rfl⟩
      · cases h
  append_ok header keyword value header' h := by
    cases h
    exact ⟨_, rfl, rfl⟩
  remove_ok header key header' h := by
    split at h
    · rename_i hremove
      cases h
      exact removeAt_eq_some hremove
    · cases h
  setComment_ok header key comment header' h := by
    split at h
    · rename_i hchange
      cases h
      obtain ⟨first, record, rest, hbefore, howns, hcount, record', hrecord, hafter⟩ :=
        changeAt_eq_some hchange
      refine ⟨first, record, rest, hbefore, howns, hcount, record', ?_, hafter⟩
      rw [hrecord]
    · cases h

def exposureEdit : FieldEdit cardLists where
  writes := [⟨"EXPTIME".toList, .real (300 : Int)⟩, ⟨"EXPOSURE".toList, .real (300 : Int)⟩]
  addUnless := ["EXPTIME".toList, "EXPOSURE".toList]
  hierarch := []
  property := none

def patchedCards : List Record :=
  [⟨.value "SIMPLE".toList (.literal "T".toList), none, padded "SIMPLE  =                    T"⟩,
    ⟨.value "NAXIS".toList (.literal "2".toList), none, padded "NAXIS   =                    2"⟩,
    ⟨.value "EXPOSURE".toList (.literal "300.0".toList), none, []⟩]

theorem simple_exposureText : exposureText.take 6 = "SIMPLE".toList := by
  decide

theorem parse_exposureText : cardLists.parse exposureText = some exposureCards := by
  change (if exposureText.take 6 = "SIMPLE".toList then some exposureCards else none) = _
  rw [if_pos simple_exposureText]

theorem edited_exposureText :
    edited cardLists exposureText [exposureEdit] = .ok patchedCards := by
  have hvalidate : validateFrom 0 [exposureEdit] = .ok () := rfl
  unfold edited
  rw [hvalidate]
  simp only [bind, Except.bind, if_pos simple_exposureText]
  with_unfolding_all rfl

theorem canonical_absent : ∃ header' : List Record,
    edited cardLists exposureText [exposureEdit] = .ok header' ∧
      exposureEdit.canonical.map (·.keyword) = some "EXPTIME".toList ∧
      own (.standard "EXPTIME".toList) header' = [] := by
  refine ⟨patchedCards, edited_exposureText, rfl, ?_⟩
  decide

theorem edited_patches_of_an_exposure :
    Patched [exposureEdit] (others (.standard "CHECKSUM".toList) exposureCards) patchedCards := by
  have hwrites : ∀ edit ∈ [exposureEdit], (edit.writes.map (·.keyword)).Nodup := by
    intro edit hedit
    rw [List.mem_singleton.mp hedit]
    decide
  obtain ⟨header, hparse, hpatched⟩ :=
    (edited_patches cardLists exposureText [exposureEdit] hwrites).1 patchedCards
      edited_exposureText
  obtain rfl := Option.some.inj (parse_exposureText.symm.trans hparse)
  exact hpatched

end PlateVault.Fits
