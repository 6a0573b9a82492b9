import PlateVault.Base.Basic

/-!
# FITS headers

A header is a list of cards to the code that edits it: the package that parses and writes headers
finds a card by its keyword and how many of that keyword stand before it. Of that package nothing is
assumed but that cards keep their order, that a write changes the one card it names, and that a new
card goes to the end.
-/

namespace PlateVault.Fits

/-- A value as a card holds it: a quoted string, or a token. -/
inductive Value
  | str (text : Text)
  | literal (token : Text)
  deriving DecidableEq, Repr

inductive RecordKind
  | value (keyword : Text) (value : Value)
  | hierarch (keyword : Text) (value : Value)
  | opaqueText (text : Text)
  | other
  deriving DecidableEq, Repr

structure Record where
  kind : RecordKind
  comment : Option Text
  image : Text
  deriving DecidableEq, Repr

/-- The cards of one keyword: a standard one, or an ESO-style `HIERARCH` long name. -/
inductive Card
  | standard (keyword : Text)
  | hierarch (name : Text)
  deriving DecidableEq, Repr

namespace Card

def holds : Card → RecordKind → Bool
  | standard keyword, .value name _ => name = keyword
  | hierarch keyword, .hierarch name _ => name = keyword
  | _, _ => false

def kindOf : Card → Value → RecordKind
  | standard keyword, value => .value keyword value
  | hierarch name, value => .hierarch name value

def owns (card : Card) (record : Record) : Bool := card.holds record.kind

@[simp] theorem holds_kindOf (card : Card) (value : Value) : card.holds (card.kindOf value) = true := by
  cases card <;> simp [holds, kindOf]

theorem eq_of_holds {card other : Card} {kind : RecordKind} (h : card.holds kind = true)
    (h' : other.holds kind = true) : card = other := by
  cases card <;> cases other <;> cases kind <;> simp_all [holds]

end Card

/-- A card by its keyword and the number of that keyword's cards before it. -/
structure Key where
  card : Card
  occurrence : Nat

/-- A write that leaves every card but one as it was: the one the key names becomes `change` of it. -/
def Changes (key : Key) (change : Record → Record → Prop) (before after : List Record) : Prop :=
  ∃ first record rest, before = first ++ record :: rest ∧ key.card.owns record = true ∧
    first.countP key.card.owns = key.occurrence ∧
    ∃ record', change record record' ∧ after = first ++ record' :: rest

structure Headers where
  Header : Type
  F64 : Type
  parse : Text → Option Header
  cards : Header → List Record
  /-- The value of `NAXIS`, where it is an integer. -/
  naxis : Header → Option Int
  count : Header → Text → Nat
  set : Header → Key → Value → Except Text Header
  append : Header → Text → Value → Except Text Header
  remove : Header → Key → Except Text Header
  setComment : Header → Key → Text → Except Text Header
  /-- The token of a number. -/
  realToken : F64 → Text
  integerToken : Int → Text
  count_eq : ∀ header keyword,
    count header keyword = (cards header).countP (Card.standard keyword).owns
  set_ok : ∀ header key value header', set header key value = .ok header' →
    Changes key (fun _ record => record.kind = key.card.kindOf value) (cards header)
      (cards header') ∨
    (cards header).countP key.card.owns = 0 ∧ ∃ record, record.kind = key.card.kindOf value ∧
      cards header' = cards header ++ [record]
  append_ok : ∀ header keyword value header', append header keyword value = .ok header' →
    ∃ record, record.kind = .value keyword value ∧ cards header' = cards header ++ [record]
  remove_ok : ∀ header key header', remove header key = .ok header' →
    ∃ first record rest, cards header = first ++ record :: rest ∧ key.card.owns record = true ∧
      first.countP key.card.owns = key.occurrence ∧ cards header' = first ++ rest
  setComment_ok : ∀ header key comment header', setComment header key comment = .ok header' →
    Changes key (fun record record' => record'.kind = record.kind) (cards header) (cards header')

/-! ## A keyword's own cards, and the others -/

section Own

variable (card : Card) (cards : List Record)

def own : List Record := cards.filter card.owns

def others : List Record := cards.filter fun record => !card.owns record

variable {card cards}

@[simp] theorem own_append (first rest : List Record) :
    own card (first ++ rest) = own card first ++ own card rest := List.filter_append ..

@[simp] theorem others_append (first rest : List Record) :
    others card (first ++ rest) = others card first ++ others card rest := List.filter_append ..

theorem own_cons {record : Record} (h : card.owns record = true) (rest : List Record) :
    own card (record :: rest) = record :: own card rest := List.filter_cons_of_pos h

theorem others_cons {record : Record} (h : card.owns record = true) (rest : List Record) :
    others card (record :: rest) = others card rest := by
  unfold others
  rw [List.filter_cons_of_neg (by simp [h])]

theorem length_own : (own card cards).length = cards.countP card.owns :=
  List.countP_eq_length_filter.symm

theorem owns_of_kind {record : Record} {value : Value} (h : record.kind = card.kindOf value) :
    card.owns record = true := by
  rw [Card.owns, h, Card.holds_kindOf]

end Own

end PlateVault.Fits
