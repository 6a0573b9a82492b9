import PlateVault.Lib.ContentLines
import PlateVault.Lib.Gregorian
import PlateVault.Planning.Agree
import PlateVault.View.Folders

/-!
# Calendar export

A confirmed window snapshot as RFC 5545 text: one event for each window with UTC instants, every text
property escaped and every line folded at 75 octets between two characters.
-/

namespace PlateVault.Planning

open ContentLines (crlf)
open View (padded)

structure Printing (A : Astronomy) where
  fixed6 : A.F64 → Text
  fixed6_plain : ∀ x, ∀ c ∈ fixed6 x, c.isAlphanum = true ∨ c = '-' ∨ c = '.'

structure SiteBasis (A : Astronomy) where
  name : Text
  latitudeDeg : A.F64
  longitudeDeg : A.F64

structure CalendarSnapshot (A : Astronomy) where
  designation : Text
  site : SiteBasis A
  timeZone : Text
  criteria : PlanCriteria A
  windows : List (ObservingWindow A)

/-! ## Instants -/

def hour : Int := 60 * minute

def dayLength : Int := 24 * hour

structure Civil where
  date : CivilDate
  hour : Int
  minute : Int
  second : Int

def civil (instant : Int) : Civil where
  date := CivilDate.ofDay (instant / dayLength)
  hour := instant % dayLength / hour
  minute := instant % hour / minute
  second := instant % minute / second

def utcStamp (instant : Int) : Text :=
  let at_ := civil instant
  padded 4 at_.date.year ++ padded 2 at_.date.month ++ padded 2 at_.date.day ++
    'T' :: (padded 2 at_.hour ++ padded 2 at_.minute ++ padded 2 at_.second ++ ['Z'])

def localText (instant : LocalTime) : Text :=
  let at_ := civil (instant.utc + instant.offset * second)
  let hours := (instant.offset.tdiv 3600).natAbs
  let minutes := ((instant.offset.tmod 3600).tdiv 60).natAbs
  let sign := if instant.offset < 0 then '-' else '+'
  padded 4 at_.date.year ++ '-' :: padded 2 at_.date.month ++ '-' :: padded 2 at_.date.day ++
    'T' :: padded 2 at_.hour ++ ':' :: padded 2 at_.minute ++ ':' :: padded 2 at_.second ++
    sign :: padded 2 hours ++ ':' :: padded 2 minutes

/-- `Uuid` as `Display` prints it. -/
def uuidText (id : Uuid) : Text := id.hyphenated.toList

def uid {A : Astronomy} (window : ObservingWindow A) : Text :=
  let start := civil window.key.startUtc
  uuidText window.key.targetId ++ '-' :: uuidText window.key.siteId ++
    '-' :: padded 4 start.date.year ++ padded 2 start.date.month ++ padded 2 start.date.day ++
    'T' :: padded 2 start.hour ++ padded 2 start.minute ++ "Z@platevault".toList

/-! ## Texts -/

def escapeChar (c : Char) : Text :=
  if c = '\\' then ['\\', '\\']
  else if c = ';' then ['\\', ';']
  else if c = ',' then ['\\', ',']
  else if c = '\n' then ['\\', 'n']
  else if c = '\r' then []
  else [c]

def escape (text : Text) : Text := text.flatMap escapeChar

def lineOctets : Nat := 75

/-- The characters of a line as written, `used` octets into its physical line. -/
def foldChars : Nat → Text → Text
  | _, [] => []
  | used, c :: rest =>
    if used + c.utf8Size > lineOctets then
      '\r' :: '\n' :: ' ' :: c :: foldChars (1 + c.utf8Size) rest
    else c :: foldChars (used + c.utf8Size) rest

def foldInto (out line : Text) : Text := out ++ (foldChars 0 line ++ crlf)

section Render

variable {A : Astronomy} (P : Printing A)

def darknessText : Darkness → Text
  | .civil => "civil darkness (Sun below -6 degrees)".toList
  | .nautical => "nautical darkness (Sun below -12 degrees)".toList
  | .astronomical => "astronomical darkness (Sun below -18 degrees)".toList

def moonText : MoonCriterion A.F64 → Text
  | .none => "no Moon limit".toList
  | .belowHorizon => "Moon below the horizon".toList
  | .minSeparation deg =>
    "Moon at least ".toList ++ A.display deg ++ " degrees away while up".toList

def description (snapshot : CalendarSnapshot A) (window : ObservingWindow A) : Text :=
  snapshot.designation ++ " from ".toList ++ snapshot.site.name ++
    " (".toList ++ P.fixed6 snapshot.site.latitudeDeg ++ ", ".toList ++
    P.fixed6 snapshot.site.longitudeDeg ++ "), time zone ".toList ++ snapshot.timeZone ++
    ". Local ".toList ++ localText window.startLocal ++ " to ".toList ++
    localText window.endLocal ++ " (".toList ++ decimal window.durationMinutes ++
    " minutes). Criteria: altitude at least ".toList ++ A.display snapshot.criteria.minAltitudeDeg ++
    " degrees, ".toList ++ darknessText snapshot.criteria.darkness ++ ", ".toList ++
    moonText snapshot.criteria.moon ++ ", at least ".toList ++
    decimal snapshot.criteria.minDurationMinutes ++
    (" minutes. Astronomical suitability only, computed with skymath 0.7.2, geometric, " ++
      "no refraction.").toList

def eventLines (snapshot : CalendarSnapshot A) (stamp : Int) (window : ObservingWindow A) :
    List Text :=
  [ "BEGIN:VEVENT".toList,
    "UID:".toList ++ uid window,
    "DTSTAMP:".toList ++ utcStamp stamp,
    "DTSTART:".toList ++ utcStamp window.startUtc,
    "DTEND:".toList ++ utcStamp window.endUtc,
    "SUMMARY:".toList ++ escape (snapshot.designation ++ " observing window".toList),
    "LOCATION:".toList ++ escape snapshot.site.name,
    "GEO:".toList ++ P.fixed6 snapshot.site.latitudeDeg ++
      ';' :: P.fixed6 snapshot.site.longitudeDeg,
    "DESCRIPTION:".toList ++ escape (description P snapshot window),
    "TRANSP:TRANSPARENT".toList,
    "END:VEVENT".toList ]

def calendarLines (snapshot : CalendarSnapshot A) (stamp : Int) : List Text :=
  [ "BEGIN:VCALENDAR".toList,
    "VERSION:2.0".toList,
    "PRODID:-//PlateVault//Observing plans 1//EN".toList,
    "CALSCALE:GREGORIAN".toList,
    "METHOD:PUBLISH".toList,
    "X-WR-CALNAME:".toList ++
      escape (snapshot.designation ++ " from ".toList ++ snapshot.site.name),
    "X-WR-TIMEZONE:".toList ++ escape snapshot.timeZone ] ++
  snapshot.windows.flatMap (eventLines P snapshot stamp) ++ ["END:VCALENDAR".toList]

def renderIcs (snapshot : CalendarSnapshot A) (stamp : Int) : Text :=
  (calendarLines P snapshot stamp).foldl foldInto []

/-! ## What is written -/

inductive PropertyValue
  | plain (value : Text)
  | text (value : Text)

structure Property where
  name : Text
  value : PropertyValue

def PropertyValue.written : PropertyValue → Text
  | .plain value => value
  | .text value => escape value

def Property.line (property : Property) : Text := property.name ++ ':' :: property.value.written

def eventProperties (snapshot : CalendarSnapshot A) (stamp : Int) (window : ObservingWindow A) :
    List Property :=
  [ ⟨"BEGIN".toList, .plain "VEVENT".toList⟩,
    ⟨"UID".toList, .plain (uid window)⟩,
    ⟨"DTSTAMP".toList, .plain (utcStamp stamp)⟩,
    ⟨"DTSTART".toList, .plain (utcStamp window.startUtc)⟩,
    ⟨"DTEND".toList, .plain (utcStamp window.endUtc)⟩,
    ⟨"SUMMARY".toList, .text (snapshot.designation ++ " observing window".toList)⟩,
    ⟨"LOCATION".toList, .text snapshot.site.name⟩,
    ⟨"GEO".toList, .plain (P.fixed6 snapshot.site.latitudeDeg ++
      ';' :: P.fixed6 snapshot.site.longitudeDeg)⟩,
    ⟨"DESCRIPTION".toList, .text (description P snapshot window)⟩,
    ⟨"TRANSP".toList, .plain "TRANSPARENT".toList⟩,
    ⟨"END".toList, .plain "VEVENT".toList⟩ ]

def headProperties (snapshot : CalendarSnapshot A) : List Property :=
  [ ⟨"BEGIN".toList, .plain "VCALENDAR".toList⟩,
    ⟨"VERSION".toList, .plain "2.0".toList⟩,
    ⟨"PRODID".toList, .plain "-//PlateVault//Observing plans 1//EN".toList⟩,
    ⟨"CALSCALE".toList, .plain "GREGORIAN".toList⟩,
    ⟨"METHOD".toList, .plain "PUBLISH".toList⟩,
    ⟨"X-WR-CALNAME".toList,
      .text (snapshot.designation ++ " from ".toList ++ snapshot.site.name)⟩,
    ⟨"X-WR-TIMEZONE".toList, .text snapshot.timeZone⟩ ]

/-- The calendar as properties, each a name with what it is to say. -/
def calendarProperties (snapshot : CalendarSnapshot A) (stamp : Int) : List Property :=
  headProperties snapshot ++ snapshot.windows.flatMap (eventProperties P snapshot stamp) ++
    [⟨"END".toList, .plain "VCALENDAR".toList⟩]

end Render

/-! ## Reading back -/

def unescape : Text → Text
  | '\\' :: 'n' :: rest => '\n' :: unescape rest
  | '\\' :: 'N' :: rest => '\n' :: unescape rest
  | '\\' :: c :: rest => c :: unescape rest
  | c :: rest => c :: unescape rest
  | [] => []

def readLine (line : Text) : Text × Text :=
  (line.takeWhile (· ≠ ':'), (line.dropWhile (· ≠ ':')).tail)

/-- The names and values of a calendar's content lines, as any program that unfolds them reads. -/
def readIcs (text : Text) : List (Text × Text) :=
  (ContentLines.linesFrom [] (ContentLines.unfolded text)).map readLine

def octets (text : Text) : List UInt8 := text.flatMap String.utf8EncodeChar

/-! ## Escapes -/

theorem unescape_cons {c : Char} (h : c ≠ '\\') (rest : Text) :
    unescape (c :: rest) = c :: unescape rest := by
  rw [unescape.eq_def]
  split <;> simp_all

theorem unescape_escape (text : Text) : unescape (escape text) = text.filter (· ≠ '\r') := by
  induction text with
  | nil => rfl
  | cons c rest ih =>
    change unescape (escapeChar c ++ escape rest) = _
    unfold escapeChar
    by_cases hmark : c = '\\'
    · subst hmark
      rw [if_pos rfl]
      exact congrArg ('\\' :: ·) ih
    rw [if_neg hmark]
    by_cases hsemicolon : c = ';'
    · subst hsemicolon
      exact congrArg (';' :: ·) ih
    rw [if_neg hsemicolon]
    by_cases hcomma : c = ','
    · subst hcomma
      exact congrArg (',' :: ·) ih
    rw [if_neg hcomma]
    by_cases hline : c = '\n'
    · subst hline
      exact congrArg ('\n' :: ·) ih
    rw [if_neg hline]
    by_cases hreturn : c = '\r'
    · subst hreturn
      exact ih
    · rw [if_neg hreturn, List.singleton_append, unescape_cons hmark, ih,
        List.filter_cons_of_pos (by simpa using hreturn)]

/-! ## Texts without line breaks -/

def Unbroken (text : Text) : Prop := '\r' ∉ text ∧ '\n' ∉ text

instance (text : Text) : Decidable (Unbroken text) := inferInstanceAs (Decidable (_ ∧ _))

@[simp] theorem unbroken_nil : Unbroken [] := ⟨List.not_mem_nil, List.not_mem_nil⟩

@[simp] theorem unbroken_append {front back : Text} :
    Unbroken (front ++ back) ↔ Unbroken front ∧ Unbroken back := by
  simp only [Unbroken, List.mem_append, not_or]
  tauto

@[simp] theorem unbroken_cons {c : Char} {rest : Text} :
    Unbroken (c :: rest) ↔ (c ≠ '\r' ∧ c ≠ '\n') ∧ Unbroken rest := by
  simp only [Unbroken, List.mem_cons, not_or, Ne, eq_comm]
  tauto

theorem unbroken_of_forall {text : Text} (h : ∀ c ∈ text, c ≠ '\r' ∧ c ≠ '\n') : Unbroken text :=
  ⟨fun hmem => (h _ hmem).1 rfl, fun hmem => (h _ hmem).2 rfl⟩

theorem unbroken_escape (text : Text) : Unbroken (escape text) := by
  refine unbroken_of_forall fun c hc => ?_
  obtain ⟨source, -, hc⟩ := List.mem_flatMap.mp hc
  unfold escapeChar at hc
  split at hc
  · simp only [List.mem_cons, List.not_mem_nil, or_false, or_self] at hc
    subst hc
    decide
  split at hc
  · simp only [List.mem_cons, List.not_mem_nil, or_false] at hc
    rcases hc with rfl | rfl <;> decide
  split at hc
  · simp only [List.mem_cons, List.not_mem_nil, or_false] at hc
    rcases hc with rfl | rfl <;> decide
  split at hc
  · simp only [List.mem_cons, List.not_mem_nil, or_false] at hc
    rcases hc with rfl | rfl <;> decide
  split at hc
  · cases hc
  · next hline hreturn =>
    rw [List.mem_singleton.mp hc]
    exact ⟨hreturn, hline⟩

theorem unbroken_padded (width : Nat) (n : Int) : Unbroken (padded width n) := by
  have hdigits : ∀ (width n : Nat), Unbroken ((decimal n).leftpad width '0') := by
    intro width n
    refine unbroken_of_forall fun c hc => ?_
    have hdigit := View.isDigit_of_mem_leftpad hc
    constructor
    · rintro rfl
      contradiction
    · rintro rfl
      contradiction
  cases n with
  | ofNat n => exact hdigits width n
  | negSucc n => exact unbroken_cons.mpr ⟨by decide, hdigits (width - 1) (n + 1)⟩

theorem unbroken_utcStamp (instant : Int) : Unbroken (utcStamp instant) := by
  simp [utcStamp, unbroken_padded]

theorem unbroken_uuidText (id : Uuid) : Unbroken (uuidText id) := by
  refine unbroken_of_forall fun c hc => ?_
  rcases Uuid.mem_hyphenated hc with rfl | ⟨digit, hlt, rfl⟩
  · decide
  · have hall : ∀ digit < 16, Nat.digitChar digit ≠ '\r' ∧ Nat.digitChar digit ≠ '\n' := by decide
    exact hall digit hlt

theorem unbroken_uid {A : Astronomy} (window : ObservingWindow A) : Unbroken (uid window) := by
  simp [uid, unbroken_padded, unbroken_uuidText]

theorem Printing.unbroken {A : Astronomy} (P : Printing A) (x : A.F64) : Unbroken (P.fixed6 x) := by
  refine unbroken_of_forall fun c hc => ?_
  constructor
  · rintro rfl
    have := P.fixed6_plain x _ hc
    revert this
    decide
  · rintro rfl
    have := P.fixed6_plain x _ hc
    revert this
    decide

/-! ## Folding -/

theorem folds_foldChars (used : Nat) (line : Text) :
    ContentLines.Folds line (foldChars used line) := by
  induction line generalizing used with
  | nil => exact .nil
  | cons c rest ih =>
    rw [foldChars]
    split
    · exact .fold (.char c (ih _))
    · exact .char c (ih _)

theorem foldChars_lines {used : Nat} {line : Text} (hused : used ≤ lineOctets)
    (hline : Unbroken line) :
    ∃ (first : Text) (more : List Text), foldChars used line = first ++ more.flatMap (crlf ++ ·) ∧
      used + (first.map Char.utf8Size).sum ≤ lineOctets ∧ Unbroken first ∧
      ∀ part ∈ more, (part.map Char.utf8Size).sum ≤ lineOctets ∧ Unbroken part := by
  induction line generalizing used with
  | nil => exact ⟨[], [], rfl, hused, unbroken_nil, fun _ h => by cases h⟩
  | cons c rest ih =>
    obtain ⟨hc, hrest⟩ := unbroken_cons.mp hline
    have hsize := c.utf8Size_le_four
    rw [foldChars]
    split
    · obtain ⟨first, more, heq, hfirst, hplain, hmore⟩ :=
        @ih (1 + c.utf8Size) (by simp only [lineOctets]; omega) hrest
      refine ⟨[], (' ' :: c :: first) :: more, ?_, hused, unbroken_nil, ?_⟩
      · rw [heq]
        rfl
      · intro part hpart
        rcases List.mem_cons.mp hpart with rfl | hpart
        · have hspace : Char.utf8Size ' ' = 1 := rfl
          refine ⟨?_, unbroken_cons.mpr ⟨by decide, unbroken_cons.mpr ⟨hc, hplain⟩⟩⟩
          simp only [List.map_cons, List.sum_cons, hspace]
          omega
        · exact hmore part hpart
    · next hfits =>
      obtain ⟨first, more, heq, hfirst, hplain, hmore⟩ := @ih (used + c.utf8Size) (by omega) hrest
      refine ⟨c :: first, more, by rw [heq]; rfl, ?_, unbroken_cons.mpr ⟨hc, hplain⟩, hmore⟩
      simp only [List.map_cons, List.sum_cons]
      omega

theorem length_octets (text : Text) : (octets text).length = (text.map Char.utf8Size).sum := by
  simp [octets, List.length_flatMap]

theorem foldl_foldInto (lines : List Text) (out : Text) :
    lines.foldl foldInto out = out ++ lines.flatMap fun line => foldChars 0 line ++ crlf := by
  induction lines generalizing out with
  | nil => simp
  | cons line lines ih =>
    rw [List.foldl_cons, ih, foldInto, List.flatMap_cons, List.append_assoc]

/-- A text whose lines all end in CRLF and hold at most 75 octets. -/
def Folded (text : Text) : Prop :=
  ∃ lines : List Text, text = lines.flatMap (· ++ crlf) ∧
    ∀ line ∈ lines, (octets line).length ≤ lineOctets ∧ Unbroken line

theorem folded_flatMap {lines : List Text} (h : ∀ line ∈ lines, Unbroken line) :
    Folded (lines.flatMap fun line => foldChars 0 line ++ crlf) := by
  induction lines with
  | nil => exact ⟨[], rfl, fun _ h => by cases h⟩
  | cons line lines ih =>
    obtain ⟨later, hlater, hfits⟩ := ih fun l hl => h l (List.mem_cons_of_mem _ hl)
    obtain ⟨first, more, heq, hfirst, hplain, hmore⟩ :=
      @foldChars_lines 0 line (by decide) (h line List.mem_cons_self)
    have hparts : ∀ parts : List Text, parts.flatMap (crlf ++ ·) ++ crlf =
        crlf ++ parts.flatMap (· ++ crlf) := by
      intro parts
      induction parts with
      | nil => simp
      | cons part parts ih =>
        rw [List.flatMap_cons, List.append_assoc, ih, List.flatMap_cons]
        simp only [List.append_assoc]
    refine ⟨first :: more ++ later, ?_, ?_⟩
    · rw [List.flatMap_cons, hlater, heq, List.append_assoc, List.append_assoc, ← List.append_assoc _ crlf,
        hparts, List.cons_append, List.flatMap_cons, List.flatMap_append]
      simp only [List.append_assoc]
    · intro part hpart
      rw [List.cons_append] at hpart
      rcases List.mem_cons.mp hpart with rfl | hpart
      · rw [length_octets]
        exact ⟨by omega, hplain⟩
      · rcases List.mem_append.mp hpart with hpart | hpart
        · rw [length_octets]
          exact hmore part hpart
        · exact hfits part hpart

/-! ## The calendar's lines -/

section Lines

variable {A : Astronomy} {P : Printing A} {snapshot : CalendarSnapshot A} {stamp : Int}

theorem eventLines_eq (window : ObservingWindow A) : eventLines P snapshot stamp window =
    (eventProperties P snapshot stamp window).map Property.line := by
  simp [eventLines, eventProperties, Property.line, PropertyValue.written]

theorem calendarLines_eq : calendarLines P snapshot stamp =
    (calendarProperties P snapshot stamp).map Property.line := by
  rw [calendarLines, calendarProperties, List.map_append, List.map_append, List.map_flatMap,
    funext eventLines_eq]
  simp [headProperties, Property.line, PropertyValue.written]

def IsName (name : Text) : Prop := name ≠ [] ∧ ∀ c ∈ name, c.isUpper = true ∨ c = '-'

instance (name : Text) : Decidable (IsName name) :=
  @instDecidableAnd _ _ inferInstance (List.decidableBAll _ _)

theorem IsName.ne {name : Text} (h : IsName name) {c d : Char} (hc : c ∈ name)
    (hd : d.isUpper = false ∧ d ≠ '-') : c ≠ d := by
  rintro rfl
  rcases h.2 c hc with hupper | hhyphen
  · rw [hd.1] at hupper
    cases hupper
  · exact hd.2 hhyphen

/-- A property whose line reads back: its name is a name, and its value holds no line break. -/
structure Property.Sound (property : Property) : Prop where
  name : IsName property.name
  value : Unbroken property.value.written

theorem Property.Sound.of {name : Text} {value : PropertyValue} (hname : IsName name)
    (hvalue : Unbroken value.written) : Property.Sound ⟨name, value⟩ := ⟨hname, hvalue⟩

theorem Property.Sound.unbroken {property : Property} (h : property.Sound) :
    Unbroken property.line := by
  refine unbroken_append.mpr ⟨unbroken_of_forall fun c hc => ?_,
    unbroken_cons.mpr ⟨by decide, h.value⟩⟩
  exact ⟨h.name.ne hc (by decide), h.name.ne hc (by decide)⟩

theorem Property.Sound.read {property : Property} (h : property.Sound) :
    readLine property.line = (property.name, property.value.written) := by
  have hname : ∀ c ∈ property.name, decide (c ≠ ':') = true := by
    intro c hc
    exact decide_eq_true (h.name.ne hc (by decide))
  rw [readLine, Property.line, List.takeWhile_append_of_pos hname,
    List.dropWhile_append_of_pos hname]
  simp

theorem Property.Sound.starts_line {property : Property} (h : property.Sound) (rest : Text) :
    ContentLines.Starts (foldChars 0 property.line ++ (crlf ++ rest)) := by
  obtain ⟨c, name, hname⟩ := List.exists_cons_of_ne_nil h.name.1
  have hc : c ∈ property.name := by rw [hname]; exact List.mem_cons_self
  intro first more heq
  have hsize := c.utf8Size_le_four
  rw [Property.line, hname, List.cons_append, foldChars,
    if_neg (by simp only [lineOctets]; omega)] at heq
  obtain ⟨rfl, -⟩ := List.cons.inj heq
  exact ⟨h.name.ne hc (by decide), h.name.ne hc (by decide)⟩

theorem sound_event (window : ObservingWindow A) :
    ∀ property ∈ eventProperties P snapshot stamp window, property.Sound := by
  have hplace : Unbroken (P.fixed6 snapshot.site.latitudeDeg ++
      ';' :: P.fixed6 snapshot.site.longitudeDeg) :=
    unbroken_append.mpr ⟨P.unbroken _, unbroken_cons.mpr ⟨by decide, P.unbroken _⟩⟩
  simp only [eventProperties, List.forall_mem_cons, List.not_mem_nil, false_imp_iff, implies_true,
    and_true]
  exact ⟨.of (by decide) (by decide), .of (by decide) (unbroken_uid window),
    .of (by decide) (unbroken_utcStamp _), .of (by decide) (unbroken_utcStamp _),
    .of (by decide) (unbroken_utcStamp _), .of (by decide) (unbroken_escape _),
    .of (by decide) (unbroken_escape _), .of (by decide) hplace,
    .of (by decide) (unbroken_escape _), .of (by decide) (by decide),
    .of (by decide) (by decide)⟩

theorem sound_head : ∀ property ∈ headProperties snapshot, property.Sound := by
  simp only [headProperties, List.forall_mem_cons, List.not_mem_nil, false_imp_iff, implies_true,
    and_true]
  exact ⟨.of (by decide) (by decide), .of (by decide) (by decide), .of (by decide) (by decide),
    .of (by decide) (by decide), .of (by decide) (by decide),
    .of (by decide) (unbroken_escape _), .of (by decide) (unbroken_escape _)⟩

theorem sound_calendar : ∀ property ∈ calendarProperties P snapshot stamp, property.Sound := by
  intro property hproperty
  rcases List.mem_append.mp hproperty with hproperty | hproperty
  · rcases List.mem_append.mp hproperty with hproperty | hproperty
    · exact sound_head property hproperty
    · obtain ⟨window, -, hwindow⟩ := List.mem_flatMap.mp hproperty
      exact sound_event window property hwindow
  · rw [List.mem_singleton.mp hproperty]
    exact .of (by decide) (by decide)

theorem renderIcs_eq : renderIcs P snapshot stamp =
    ((calendarProperties P snapshot stamp).map Property.line).flatMap fun line =>
      foldChars 0 line ++ crlf := by
  rw [renderIcs, foldl_foldInto, calendarLines_eq, List.nil_append]

theorem folded_renderIcs : Folded (renderIcs P snapshot stamp) := by
  rw [renderIcs_eq]
  refine folded_flatMap fun line hline => ?_
  obtain ⟨property, hproperty, rfl⟩ := List.mem_map.mp hline
  exact (sound_calendar property hproperty).unbroken

theorem readIcs_renderIcs : readIcs (renderIcs P snapshot stamp) =
    (calendarProperties P snapshot stamp).map fun property =>
      (property.name, property.value.written) := by
  have hlines : ContentLines.linesFrom [] (ContentLines.unfolded (renderIcs P snapshot stamp)) =
      (calendarProperties P snapshot stamp).map Property.line := by
    rw [renderIcs_eq]
    apply ContentLines.linesFrom_unfolded
    · intro line _
      exact folds_foldChars 0 line
    · intro line hline
      obtain ⟨property, hproperty, rfl⟩ := List.mem_map.mp hline
      exact (sound_calendar property hproperty).unbroken.1
    · intro line hline rest
      obtain ⟨property, hproperty, rfl⟩ := List.mem_map.mp hline
      exact (sound_calendar property hproperty).starts_line rest
  rw [readIcs, hlines, List.map_map]
  refine List.map_congr_left fun property hproperty => ?_
  exact (sound_calendar property hproperty).read

end Lines

/-! ## Identities -/

theorem length_uuidText (id : Uuid) : (uuidText id).length = 36 := by
  simp [uuidText, Uuid.hyphenated, Uuid.simple]

theorem uuidText_injective {id other : Uuid} (h : uuidText id = uuidText other) : id = other :=
  Uuid.hyphenated_injective (String.toList_injective h)

theorem length_padded_two {n : Int} (h : 0 ≤ n ∧ n < 100) : (padded 2 n).length = 2 := by
  obtain ⟨n, rfl⟩ := Int.eq_ofNat_of_zero_le h.1
  exact View.length_leftpad_two (by omega)

theorem civil_range (instant : Int) :
    (0 ≤ (civil instant).hour ∧ (civil instant).hour < 24) ∧
      0 ≤ (civil instant).minute ∧ (civil instant).minute < 60 := by
  simp only [civil, dayLength, hour, minute, second]
  omega

theorem instant_eq {start start' : Int} (hstart : start % minute = 0) (hstart' : start' % minute = 0)
    (hdate : (civil start).date = (civil start').date) (hhour : (civil start).hour = (civil start').hour)
    (hminute : (civil start).minute = (civil start').minute) : start = start' := by
  have hday : start / dayLength = start' / dayLength := CivilDate.ofDay_injective hdate
  simp only [civil, dayLength, hour, minute, second] at hday hhour hminute hstart hstart'
  omega

/-- Every window's key is one `WindowKey.new` makes. -/
def Keyed {A : Astronomy} (windows : List (ObservingWindow A)) : Prop :=
  ∀ window ∈ windows, WindowKey.new A window.key.targetId window.key.siteId window.key.startUtc =
    .ok window.key

theorem Keyed.whole {A : Astronomy} {windows : List (ObservingWindow A)} (h : Keyed windows)
    {window : ObservingWindow A} (hwindow : window ∈ windows) :
    window.key.startUtc % minute = 0 := by
  have hkey := h window hwindow
  unfold WindowKey.new at hkey
  split at hkey
  · cases hkey
  · next hwhole => exact not_not.mp hwhole

theorem uid_injective {A : Astronomy} {window window' : ObservingWindow A}
    (hwhole : window.key.startUtc % minute = 0) (hwhole' : window'.key.startUtc % minute = 0)
    (h : uid window = uid window') : window.key = window'.key := by
  have hdate := CivilDate.ofDay_range (window.key.startUtc / dayLength)
  have hdate' := CivilDate.ofDay_range (window'.key.startUtc / dayLength)
  have htime := civil_range window.key.startUtc
  have htime' := civil_range window'.key.startUtc
  have htwo : ∀ {m n : Int}, 0 ≤ m ∧ m < 100 → 0 ≤ n ∧ n < 100 →
      (padded 2 m).length = (padded 2 n).length := by
    intro m n hm hn
    rw [length_padded_two hm, length_padded_two hn]
  -- Everything behind the year has one length, so the text splits from its end.
  obtain ⟨h, -⟩ := List.append_inj' h rfl
  obtain ⟨h, hminute⟩ := List.append_inj' h (htwo (by omega) (by omega))
  obtain ⟨h, hhour⟩ := List.append_inj' h (congrArg Nat.succ (htwo (by omega) (by omega)))
  obtain ⟨h, hday⟩ := List.append_inj' h (htwo (by dsimp only [civil]; omega)
    (by dsimp only [civil]; omega))
  obtain ⟨h, hmonth⟩ := List.append_inj' h (htwo (by dsimp only [civil]; omega)
    (by dsimp only [civil]; omega))
  obtain ⟨h, hyear⟩ := List.append_inj h (by simp [length_uuidText])
  obtain ⟨htarget, hsite⟩ := List.append_inj h (by simp [length_uuidText])
  have hcivil : (civil window.key.startUtc).date = (civil window'.key.startUtc).date := by
    have := View.padded_injective (List.cons.inj hyear).2
    have := View.padded_injective hmonth
    have := View.padded_injective hday
    rcases hd : (civil window.key.startUtc).date with ⟨year, month, day⟩
    rcases hd' : (civil window'.key.startUtc).date with ⟨year', month', day'⟩
    simp_all
  have hstart : window.key.startUtc = window'.key.startUtc :=
    instant_eq hwhole hwhole' hcivil (View.padded_injective (List.cons.inj hhour).2)
      (View.padded_injective hminute)
  rcases hk : window.key with ⟨target, site, start⟩
  rcases hk' : window'.key with ⟨target', site', start'⟩
  rw [hk, hk'] at htarget hsite hstart
  have htarget := uuidText_injective htarget
  have hsite := uuidText_injective (List.cons.inj hsite).2
  simp_all

/-! ## What any program reads -/

def eventNames : List Text :=
  ["BEGIN", "UID", "DTSTAMP", "DTSTART", "DTEND", "SUMMARY", "LOCATION", "GEO", "DESCRIPTION", "TRANSP",
    "END"].map String.toList

def calendarNames (events : Nat) : List Text :=
  ["BEGIN", "VERSION", "PRODID", "CALSCALE", "METHOD", "X-WR-CALNAME", "X-WR-TIMEZONE"].map
    String.toList ++ (List.replicate events eventNames).flatten ++ ["END".toList]

def isBoundary (line : Text × Text) : Bool := line.1 = "BEGIN".toList || line.1 = "END".toList

/-- Where a calendar of `events` events begins and ends its components. -/
def calendarBoundaries (events : Nat) : List (Text × Text) :=
  ("BEGIN".toList, "VCALENDAR".toList) :: (List.replicate events
    [("BEGIN".toList, "VEVENT".toList), ("END".toList, "VEVENT".toList)]).flatten ++
    [("END".toList, "VCALENDAR".toList)]

section Reads

variable {A : Astronomy} {P : Printing A} {snapshot : CalendarSnapshot A} {stamp : Int}

theorem flatMap_eq_replicate {α β : Type*} {f : α → List β} {bs : List β} {as : List α}
    (h : ∀ a, f a = bs) : as.flatMap f = (List.replicate as.length bs).flatten := by
  rw [List.flatMap_def, funext h, List.map_const']

theorem names_renderIcs : (readIcs (renderIcs P snapshot stamp)).map Prod.fst =
    calendarNames snapshot.windows.length := by
  have hevent : ∀ window, (eventProperties P snapshot stamp window).map (Prod.fst ∘
      fun property : Property => (property.name, property.value.written)) = eventNames := fun _ => rfl
  rw [readIcs_renderIcs, List.map_map, calendarProperties, List.map_append, List.map_append,
    List.map_flatMap, flatMap_eq_replicate hevent]
  rfl

theorem boundaries_renderIcs : (readIcs (renderIcs P snapshot stamp)).filter isBoundary =
    calendarBoundaries snapshot.windows.length := by
  have hevent : ∀ window, ((eventProperties P snapshot stamp window).map fun property =>
      (property.name, property.value.written)).filter isBoundary =
        [("BEGIN".toList, "VEVENT".toList), ("END".toList, "VEVENT".toList)] := by
    intro window
    simp [eventProperties, isBoundary, PropertyValue.written]
  have hhead : ((headProperties snapshot).map fun property =>
      (property.name, property.value.written)).filter isBoundary =
        [("BEGIN".toList, "VCALENDAR".toList)] := by
    simp [headProperties, isBoundary, PropertyValue.written]
  rw [readIcs_renderIcs, calendarProperties, List.map_append, List.map_append, List.filter_append,
    List.filter_append, hhead, List.map_flatMap, List.filter_flatMap,
    @flatMap_eq_replicate _ _ _ _ _ hevent]
  rfl

/-- Every line of an exported calendar ends in CRLF and holds at most 75 octets. Unfolding gives the
lines that were written, each text property says what it was made from less its carriage returns, and
whatever the texts hold, the lines have the names of a calendar with that many events and begin and
end its components. Windows with one UID have one identity. -/
theorem calendar_reads_back (P : Printing A) (snapshot : CalendarSnapshot A) (stamp : Int)
    (hkeys : Keyed snapshot.windows) :
    Folded (renderIcs P snapshot stamp) ∧
      readIcs (renderIcs P snapshot stamp) = (calendarProperties P snapshot stamp).map
        (fun property => (property.name, property.value.written)) ∧
      (∀ property ∈ calendarProperties P snapshot stamp, ∀ text, property.value = .text text →
        unescape property.value.written = text.filter (· ≠ '\r')) ∧
      (readIcs (renderIcs P snapshot stamp)).map Prod.fst =
        calendarNames snapshot.windows.length ∧
      (readIcs (renderIcs P snapshot stamp)).filter isBoundary =
        calendarBoundaries snapshot.windows.length ∧
      ∀ window ∈ snapshot.windows, ∀ window' ∈ snapshot.windows,
        uid window = uid window' → window.key = window'.key := by
  refine ⟨folded_renderIcs, readIcs_renderIcs, ?_, names_renderIcs, boundaries_renderIcs, ?_⟩
  · intro property _ text htext
    rw [htext]
    exact unescape_escape text
  · intro window hwindow window' hwindow' huid
    exact uid_injective (hkeys.whole hwindow) (hkeys.whole hwindow') huid

end Reads

def sixDecimals : Printing steadySky where
  fixed6 x := (if (x : Int) < 0 then ['-'] else []) ++ decimal (Int.natAbs x / 1000) ++
    '.' :: (decimal (Int.natAbs x % 1000)).leftpad 3 '0' ++ ['0', '0', '0']
  fixed6_plain x c hc := by
    have hdigit : ∀ {c : Char}, c.isDigit = true → c.isAlphanum = true := by
      intro c h
      simp [Char.isAlphanum, h]
    rcases List.mem_append.mp hc with hc | hc
    · rcases List.mem_append.mp hc with hc | hc
      · rcases List.mem_append.mp hc with hc | hc
        · split at hc
          · exact .inr (.inl (List.mem_singleton.mp hc))
          · cases hc
        · exact .inl (hdigit (View.isDigit_of_mem_decimal hc))
      · rcases List.mem_cons.mp hc with hc | hc
        · exact .inr (.inr hc)
        · exact .inl (hdigit (View.isDigit_of_mem_leftpad hc))
    · rw [List.eq_of_mem_replicate (show c ∈ List.replicate 3 '0' from hc)]
      exact .inl (by decide)

def lateWindow : ObservingWindow steadySky where
  key := ⟨4, 1, 79200 * second⟩
  startUtc := 79200 * second
  endUtc := 86400 * second
  startLocal := ⟨79200 * second, 0⟩
  endLocal := ⟨86400 * second, 0⟩
  timeZone := "UTC".toList
  durationMinutes := 120
  night := (0 : Int)
  siteName := "Home".toList
  peakAltitudeDeg := (69000 : Int)

def lateSnapshot : CalendarSnapshot steadySky where
  designation := "M 81; M 82".toList
  site := ⟨"Home\r\nEND:VEVENT".toList, (52000 : Int), (4000 : Int)⟩
  timeZone := "UTC".toList
  criteria := anHour
  windows := [lateWindow]

theorem calendar_reads_back_of_a_name :
    (readIcs (renderIcs sixDecimals lateSnapshot 0)).map Prod.fst = calendarNames 1 := by
  have hkeys : Keyed lateSnapshot.windows := by
    intro window hwindow
    rw [List.mem_singleton.mp hwindow]
    rfl
  exact (calendar_reads_back sixDecimals lateSnapshot 0 hkeys).2.2.2.1

end PlateVault.Planning
