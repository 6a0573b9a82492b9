import PlateVault.Fits.Header
import PlateVault.Grouping.Metadata

/-!
# Editing a FITS header

The header of a patched copy: every card of an edit's keywords is overwritten, each occurrence, and
the canonical keyword is added where none of `addUnless` is present. A card's comment stays beside
the value, is cut to the room left, or is dropped with the card, which then moves to the end.
-/

namespace PlateVault.Fits

def cardLen : Nat := 80

/-- A value card's `KEYWORD = ` before its value. -/
def valueStart : Nat := 10

/-- A `HIERARCH` card's `HIERARCH ` and ` = ` around its long name. -/
def hierarchOverhead : Nat := 12

/-- The ` / ` between a value and its comment. -/
def commentSeparator : Nat := 3

def literalWidth : Nat := 20

def stringCardOverhead : Nat := 12

/-! ## Edits -/

section Edits

variable (H : Headers)

inductive EditValue
  | text (text : Text)
  | real (number : H.F64)
  | integer (number : Int)

structure KeywordWrite where
  keyword : Text
  value : EditValue H

/-- Everything one corrected field writes into a patched copy. -/
structure FieldEdit where
  writes : List (KeywordWrite H)
  addUnless : List Text
  hierarch : List Text
  property : Option (Text × Text)

variable {H}

def FieldEdit.canonical (edit : FieldEdit H) : Option (KeywordWrite H) := edit.writes.head?

inductive Refusal
  | noHeader
  | notPrintableAscii
  | tooLong
  | imageInExtension
  | hierarchAlias
  | xisfLayout
  deriving DecidableEq, Repr

inductive PatchError
  | refused (edit : Nat) (reason : Refusal)
  | header (detail : Text)
  deriving DecidableEq, Repr

/-! ## Texts -/

def quote : Char := Char.ofNat 39

def len (text : Text) : Nat := (text.map Char.utf8Size).sum

def escapedLen (text : Text) : Nat := len text + text.count quote

/-- Whether a card can hold `text` as a fixed-format string value. -/
def fitsText (text : Text) : Except Refusal Unit :=
  if !text.all fun c => ' ' ≤ c && c ≤ '~' then .error .notPrintableAscii
  else if cardLen < max (escapedLen text) 8 + stringCardOverhead then .error .tooLong
  else .ok ()

def FieldEdit.texts (edit : FieldEdit H) : List Text :=
  (edit.writes.filterMap fun write => match write.value with
    | .text text => some text
    | _ => none) ++ (edit.property.map Prod.snd).toList

def validateFrom : Nat → List (FieldEdit H) → Except PatchError Unit
  | _, [] => .ok ()
  | index, edit :: rest => do
    edit.texts.forM fun text => (fitsText text).mapError (.refused index)
    validateFrom (index + 1) rest

/-- The longest start of `comment` of at most `max` bytes. -/
def takeBytes : Nat → Text → Text
  | _, [] => []
  | max, c :: rest => if c.utf8Size ≤ max then c :: takeBytes (max - c.utf8Size) rest else []

/-- What stands before the last `c`, or all of it. -/
def beforeLast (c : Char) (text : Text) : Text :=
  if c ∈ text then ((text.reverse.dropWhile (· ≠ c)).tail).reverse else text

def trimEnd (text : Text) : Text := (text.reverse.dropWhile isWhiteSpace).reverse

/-- `comment` cut to at most `max` bytes, at the end of a word where one ends in that room. -/
def shortened (comment : Text) (max : Nat) : Text :=
  let cut := takeBytes max comment
  let atWord := match (comment.drop cut.length).head? with
    | some next => if isWhiteSpace next then cut else beforeLast ' ' cut
    | none => cut
  trimEnd atWord

end Edits

/-! ## Cards -/

section Cards

variable {H : Headers}

def valueOf : EditValue H → Value
  | .text text => .str text
  | .real number => .literal (H.realToken number)
  | .integer number => .literal (H.integerToken number)

def headerError (detail : Text) : PatchError := .header detail

def setCard (header : H.Header) (key : Key) (value : EditValue H) : Except PatchError H.Header :=
  (H.set header key (valueOf value)).mapError headerError

namespace Card

def comments (card : Card) (header : H.Header) : List (Option Text) :=
  (own card (H.cards header)).map Record.comment

/-- The bytes one of these cards takes up to the end of its value. -/
def width (card : Card) (value : EditValue H) : Nat :=
  match card, valueOf value with
  | standard _, .str text => valueStart + (max (escapedLen text) 8 + 2)
  | standard _, .literal token => valueStart + max (len token) literalWidth
  | hierarch name, .str text => hierarchOverhead + len name + (escapedLen text + 2)
  | hierarch name, .literal token => hierarchOverhead + len name + len token

/-- The characters one of these cards holding `value` has left after it. -/
def room (card : Card) (value : EditValue H) : Option Nat :=
  if card.width value ≤ cardLen then some (cardLen - card.width value) else none

end Card

/-- A card that can keep no comment is replaced by one without it. -/
def replaceCard (header : H.Header) (card : Card) (occurrence : Nat) (value : EditValue H) :
    Except (Option PatchError) H.Header := do
  let header ← (H.remove header ⟨card, occurrence⟩).mapError (some ∘ headerError)
  match card with
  | .standard keyword => (H.append header keyword (valueOf value)).mapError (some ∘ headerError)
  | .hierarch name =>
    -- a `HIERARCH` card is only ever set alone
    if ((Card.hierarch name).comments header).isEmpty then
      (setCard header ⟨.hierarch name, 0⟩ value).mapError some
    else .error none

/-- Overwrites one card, whose comment is `comment`. -/
def overwriteCard (header : H.Header) (card : Card) (occurrence : Nat) (comment : Option Text)
    (value : EditValue H) (room : Nat) : Except (Option PatchError) H.Header :=
  let key : Key := ⟨card, occurrence⟩
  match comment.filter fun comment => room < commentSeparator + len comment with
  | none => (setCard header key value).mapError some
  | some comment =>
    let kept := shortened comment (room - commentSeparator)
    if kept.isEmpty then replaceCard header card occurrence value
    else do
      let header ← (H.setComment header key []).mapError (some ∘ headerError)
      let header ← (setCard header key value).mapError some
      (H.setComment header key kept).mapError (some ∘ headerError)

/-- The loop over the cards, the last one first: `comments` are those of the cards still to do, in
the order of the header. -/
def overwriteFrom (card : Card) (value : EditValue H) (room : Nat) :
    List (Option Text) → H.Header → Except (Option PatchError) H.Header
  | [], header => .ok header
  | comment :: rest, header => do
    let header ← overwriteCard header card rest.length comment value room
    overwriteFrom card value room rest header

/-- Overwrites every present card of `card` with `value`; `none` where the value does not fit one of
these cards. -/
def overwriteAll (header : H.Header) (card : Card) (value : EditValue H) :
    Except (Option PatchError) H.Header :=
  let comments := card.comments header
  if comments.isEmpty then .ok header
  else
    match card.room value with
    | none => .error none
    | some room => overwriteFrom card value room comments.reverse header

/-! ## Unaddressable cards -/

def words : Text → List Text
  | [] => []
  | c :: rest =>
    if isWhiteSpace c then words rest
    else
      match rest.head?, words rest with
      | some next, word :: more => if isWhiteSpace next then [c] :: word :: more
        else (c :: word) :: more
      | _, more => [c] :: more

/-- Whether the header holds a `HIERARCH` card naming `alias` in a spelling the package cannot
address. -/
def unaddressableHierarch (header : H.Header) (name : Text) : Bool :=
  (H.cards header).any fun record =>
    match record.kind with
    | .opaqueText text =>
      "HIERARCH".toList.isPrefixOf text &&
        ((List.intercalate [' '] (words ((text.drop 8).takeWhile (· ≠ '=')))).map Char.toLower =
          name.map Char.toLower)
    | _ => false

/-! ## The edited header -/

/-- Removes cards of `CHECKSUM` while there are any. -/
def dropChecksums : Nat → H.Header → Except PatchError H.Header
  | 0, header => .ok header
  | steps + 1, header =>
    if 0 < H.count header "CHECKSUM".toList then do
      let header ← (H.remove header ⟨.standard "CHECKSUM".toList, 0⟩).mapError headerError
      dropChecksums steps header
    else .ok header

/-- A refusal where a value does not fit, and the package's own errors. -/
def orTooLong (index : Nat) : Option PatchError → PatchError
  | some error => error
  | none => .refused index .tooLong

def overwriteEach (index : Nat) :
    List (Card × EditValue H) → H.Header → Except PatchError H.Header
  | [], header => .ok header
  | (card, value) :: rest, header => do
    let header ← (overwriteAll header card value).mapError (orTooLong index)
    overwriteEach index rest header

namespace FieldEdit

/-- The cards of the fixed-format keywords, each with its value. -/
def standards (edit : FieldEdit H) : List (Card × EditValue H) :=
  edit.writes.map fun write => (.standard write.keyword, write.value)

/-- The cards of the long aliases, with the canonical value. -/
def aliases (edit : FieldEdit H) (canonical : KeywordWrite H) : List (Card × EditValue H) :=
  edit.hierarch.map fun name => (.hierarch name, canonical.value)

def apply (edit : FieldEdit H) (index : Nat) (header : H.Header) :
    Except PatchError H.Header :=
  if edit.hierarch.any (unaddressableHierarch header) then .error (.refused index .hierarchAlias)
  else do
    let present := edit.addUnless.any fun keyword => 0 < H.count header keyword
    let header ← overwriteEach index edit.standards header
    match edit.canonical with
    | none => pure header
    | some canonical => do
      let header ← overwriteEach index (edit.aliases canonical) header
      if present then pure header
      else setCard header ⟨.standard canonical.keyword, 0⟩ canonical.value

end FieldEdit

def applyFrom : Nat → List (FieldEdit H) → H.Header → Except PatchError H.Header
  | _, [], header => .ok header
  | index, edit :: rest, header => do
    let header ← edit.apply index header
    applyFrom (index + 1) rest header

def isSimple (record : Record) : Bool := (Card.standard "SIMPLE".toList).owns record

/-- The parsed primary header `bytes` with `edits` applied. -/
def edited (H : Headers) (bytes : Text) (edits : List (FieldEdit H)) :
    Except PatchError H.Header := do
  validateFrom 0 edits
  match H.parse bytes with
  | none => .error (.refused 0 .noHeader)
  | some header =>
    if !((H.cards header).head?.any isSimple) then .error (.refused 0 .noHeader)
    else if H.naxis header = some 0 then .error (.refused 0 .imageInExtension)
    else do
      let header ← dropChecksums (H.count header "CHECKSUM".toList) header
      applyFrom 0 edits header

end Cards

end PlateVault.Fits
