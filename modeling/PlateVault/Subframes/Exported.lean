import PlateVault.Naming.Pieces
import PlateVault.Subframes.Match

/-!
# What an export is read to

An export as it is written: preamble lines, the header, one line for each row. The table is read to
exactly the fields written, unless a preamble line is taken for its header.
-/

namespace PlateVault.Subframes

open Delimited
open Roots (parseU64)

/-! ## One row -/

namespace RowShape

variable {R : Readers} {shape : RowShape} {fields : List Text}

theorem split_intercalate (hlength : fields.length = shape.fields)
    (hfile : shape.fileAt < shape.fields)
    (hcomma : ∀ i, i ≠ shape.fileAt → ',' ∉ fields.getD i []) :
    shape.split (List.intercalate [','] fields) = some fields := by
  have hlt : shape.fileAt < fields.length := hlength ▸ hfile
  have hgetD : ∀ i (hi : i < fields.length), fields.getD i [] = fields[i] := fun i hi => by
    rw [List.getD_eq_getElem?_getD, List.getElem?_eq_getElem hi]
    rfl
  have hfirst : ∀ field ∈ fields.take shape.fileAt, ',' ∉ field := by
    intro field hfield
    obtain ⟨i, hi, rfl⟩ := List.getElem_of_mem hfield
    rw [List.length_take] at hi
    rw [List.getElem_take, ← hgetD i (by omega)]
    exact hcomma i (by omega)
  have hlast : ∀ field ∈ fields.drop (shape.fileAt + 1), ',' ∉ field := by
    intro field hfield
    obtain ⟨i, hi, rfl⟩ := List.getElem_of_mem hfield
    rw [List.length_drop] at hi
    rw [List.getElem_drop, ← hgetD _ (by omega)]
    exact hcomma _ (by omega)
  have hsplit : fields = fields.take shape.fileAt ++
      fields[shape.fileAt] :: fields.drop (shape.fileAt + 1) := by
    rw [← List.drop_eq_getElem_cons hlt, List.take_append_drop]
  have hcount : (fields.take shape.fileAt).length = shape.fileAt := by
    rw [List.length_take]
    omega
  have hleading := splitN_intercalate
    (fields[shape.fileAt] :: fields.drop (shape.fileAt + 1)) (List.cons_ne_nil _ _) hfirst
  rw [hcount, ← hsplit] at hleading
  have htrailing := rsplitN_intercalate fields[shape.fileAt] hlast
  have hafter : (fields.drop (shape.fileAt + 1)).length = shape.fields - shape.fileAt - 1 := by
    rw [List.length_drop]
    omega
  rw [hafter] at htrailing
  unfold split
  simp only [hleading, List.take_left' hcount, List.drop_left' hcount, List.head?_cons, htrailing]
  rw [if_neg (by simpa using hcount), if_neg (by simp; omega)]
  rw [List.reverse_append, List.reverse_reverse, List.reverse_singleton, List.singleton_append,
    ← hsplit]

theorem parse_intercalate (line : Nat) (hlength : fields.length = shape.fields)
    (hfile : shape.fileAt < shape.fields)
    (hcomma : ∀ i, i ≠ shape.fileAt → ',' ∉ fields.getD i []) :
    shape.parse R line (List.intercalate [','] fields) = shape.row R line fields := by
  rw [parse, split_intercalate hlength hfile hcomma]

theorem file_row {line : Nat} (h : (shape.row R line fields).index ≠ none) :
    (shape.row R line fields).file = unquote (fields.getD shape.fileAt []) := by
  unfold row at h ⊢
  split
  · rename_i hnone
    simp only [hnone] at h
    exact absurd rfl h
  · rfl

theorem rows_append (first rest : List Text) (header : Text) :
    shape.rows R (first ++ header :: rest) first.length =
      ((rest.zipIdx (first.length + 2)).filter fun (line, _) => !(trim line).isEmpty).map
        fun (text, line) => shape.parse R line text := by
  have hdrop : ((first ++ header :: rest).zipIdx 1).drop (first.length + 1) =
      rest.zipIdx (first.length + 2) := by
    rw [List.zipIdx_append, List.zipIdx_cons, ← List.drop_drop,
      List.drop_left' List.length_zipIdx, List.drop_one, List.tail_cons]
    congr 1
    omega
  rw [rows, hdrop]

theorem length_rows_append (first rest : List Text) (header : Text) :
    (shape.rows R (first ++ header :: rest) first.length).length =
      rest.countP fun line => !(trim line).isEmpty := by
  rw [rows_append, List.length_map, ← List.countP_eq_length_filter]
  conv_rhs => rw [← List.zipIdx_map_fst (first.length + 2) rest, List.countP_map]
  rfl

end RowShape

theorem unquote_quoted (path : Text) : unquote ('"' :: (path ++ ['"'])) = path := by
  simp [unquote]

/-! ## Tables -/

/-- A table as it is written: the lines before it, its header and its rows. Every field but File is
free of commas. -/
structure Table where
  preamble : List Text
  header : List Text
  rows : List (List Text)
  plain : ∀ name ∈ header, ∀ c ∈ name, c ∉ special
  layout : layoutOf (header.map trim) ≠ none
  length_eq : ∀ row ∈ rows, row.length = header.length
  comma_free : ∀ row ∈ rows, ∀ i, i ≠ (header.map trim).findIdx (· = "File".toList) →
    ',' ∉ row.getD i []

namespace Table

variable (table : Table)

/-- The lines an export of the table has, blank lines behind it apart. -/
def lines : List Text :=
  table.preamble ++ List.intercalate [','] table.header ::
    table.rows.map (List.intercalate [','])

/-- A file that holds the table, and blank lines behind it. -/
def WrittenIn (bytes : Text) : Prop :=
  ∃ text blanks, fromUtf8 bytes = some text ∧ (∀ blank ∈ blanks, trim blank = []) ∧
    Subframes.lines text = table.lines ++ blanks

/-- Where the table's fields are, its columns classified so. -/
def shape (columns : List ImportColumn) : RowShape where
  fields := table.header.length
  indexAt := (table.header.map trim).findIdx (· = "Index".toList)
  fileAt := (table.header.map trim).findIdx (· = "File".toList)
  mapped := (columns.filter (·.cls = .mapped)).map (·.position)

/-- Each row read of exactly the fields written, numbered by its line. -/
def read (R : Readers) (columns : List ImportColumn) : List (ExportRow R.F64) :=
  (table.rows.zipIdx (table.preamble.length + 2)).map fun (fields, line) =>
    (table.shape columns).row R line fields

variable {table}

theorem mem_of_layout {headers : List Text} (h : layoutOf headers ≠ none) :
    "Index".toList ∈ headers ∧ "File".toList ∈ headers := by
  obtain ⟨layout, hlayout⟩ := Option.ne_none_iff_exists'.mp h
  obtain ⟨⟨found, names⟩, hfind, -⟩ := Option.map_eq_some_iff.mp hlayout
  have hall : ∀ name ∈ names, name ∈ headers := by
    intro name hname
    have hnames := List.find?_some hfind
    exact of_decide_eq_true (List.all_eq_true.mp hnames name hname)
  have hmem := List.mem_of_find?_eq_some hfind
  simp only [List.mem_cons, Prod.mk.injEq, List.not_mem_nil, or_false] at hmem
  rcases hmem with ⟨-, rfl⟩ | ⟨-, rfl⟩ | ⟨-, rfl⟩
  · exact ⟨hall _ (by decide), hall _ (by decide)⟩
  · exact ⟨hall _ (by decide), hall _ (by decide)⟩
  · exact ⟨hall _ (by decide), hall _ (by decide)⟩

theorem header_ne_nil : table.header ≠ [] := by
  intro hnil
  have hindex := (mem_of_layout table.layout).1
  rw [hnil] at hindex
  cases hindex

theorem two_le_length : 2 ≤ table.header.length := by
  obtain ⟨hindex, hfile⟩ := mem_of_layout table.layout
  match hheader : table.header with
  | [] => exact absurd hheader header_ne_nil
  | [name] =>
    rw [hheader, List.map_singleton, List.mem_singleton] at hindex hfile
    exact absurd (hindex.trans hfile.symm) (by decide)
  | _ :: _ :: rest => simp

theorem comma_mem {fields : List Text} (h : 2 ≤ fields.length) :
    ',' ∈ List.intercalate [','] fields := by
  match fields with
  | first :: second :: rest =>
    rw [List.intercalate_cons_cons]
    simp

theorem record_header (R : Readers) :
    R.record (List.intercalate [','] table.header) = .ok (some table.header) := by
  refine R.record_plain _ (fun hnil => ?_) table.plain
  have hmem := comma_mem table.two_le_length
  rw [hnil] at hmem
  cases hmem

theorem splitOn_header : (List.intercalate [','] table.header).splitOn ',' = table.header := by
  refine List.splitOn_intercalate ',' (fun name hname hmem => ?_) header_ne_nil
  exact table.plain name hname ',' hmem (by decide)

theorem isHeader_header : isHeader (List.intercalate [','] table.header) = true := by
  obtain ⟨name, hname, htrim⟩ := List.mem_map.mp (mem_of_layout table.layout).1
  rw [isHeader, splitOn_header, List.any_eq_true]
  exact ⟨name, hname, by simp [htrim]⟩

theorem trim_ne_nil {text : Text} {c : Char} (hmem : c ∈ text) (hc : isWhiteSpace c = false) :
    trim text ≠ [] := by
  intro hnil
  have htrim : c ∈ trim text := Naming.mem_trimMatches hc hmem
  rw [hnil] at htrim
  cases htrim

theorem trim_row_ne_nil {row : List Text} (h : row ∈ table.rows) :
    trim (List.intercalate [','] row) ≠ [] := by
  have hlength := table.length_eq row h
  have htwo := table.two_le_length
  exact trim_ne_nil (comma_mem (by omega)) (by decide)

theorem rows_lines (R : Readers) (columns : List ImportColumn) {blanks : List Text}
    (hblanks : ∀ blank ∈ blanks, trim blank = []) :
    (table.shape columns).rows R (table.lines ++ blanks) table.preamble.length =
      table.read R columns := by
  have hfile : (table.shape columns).fileAt < (table.shape columns).fields := by
    have hlt : (table.header.map trim).findIdx (· = "File".toList) < (table.header.map trim).length :=
      List.findIdx_lt_length_of_exists ⟨_, (mem_of_layout table.layout).2, decide_eq_true rfl⟩
    rwa [List.length_map] at hlt
  rw [lines, List.append_assoc, List.cons_append, RowShape.rows_append, List.zipIdx_append,
    List.filter_append, List.map_append]
  have hrows : ∀ entry ∈ (table.rows.map (List.intercalate [','])).zipIdx
      (table.preamble.length + 2), !(trim entry.1).isEmpty := by
    intro entry hentry
    obtain ⟨row, hrow, heq⟩ := List.mem_map.mp (List.fst_mem_of_mem_zipIdx hentry)
    rw [← heq]
    simpa using trim_row_ne_nil hrow
  have hnone : ((blanks.zipIdx (table.preamble.length + 2 +
      (table.rows.map (List.intercalate [','])).length)).filter
      fun (line, _) => !(trim line).isEmpty) = [] := by
    refine List.filter_eq_nil_iff.mpr fun entry hentry => ?_
    simp [hblanks entry.1 (List.fst_mem_of_mem_zipIdx hentry)]
  rw [List.filter_eq_self.mpr hrows, hnone, List.map_nil, List.append_nil, read,
    List.zipIdx_map, List.map_map]
  refine List.map_congr_left fun entry hentry => ?_
  have hmem := List.fst_mem_of_mem_zipIdx hentry
  exact RowShape.parse_intercalate entry.2 (table.length_eq _ hmem) hfile
    (table.comma_free _ hmem)

theorem findIdx?_of_mem {headers : List Text} {name : Text} (h : name ∈ headers) :
    headers.findIdx? (· = name) = some (headers.findIdx (· = name)) :=
  List.findIdx?_eq_some_iff_findIdx_eq.mpr
    ⟨List.findIdx_lt_length_of_exists ⟨name, h, decide_eq_true rfl⟩, rfl⟩

theorem parse_of_apart (R : Readers) {bytes : Text} (hsize : bytes.length ≤ maxExportBytes)
    (hwritten : table.WrittenIn bytes) (hapart : ∀ line ∈ table.preamble, isHeader line = false) :
    ∃ exported, parse R bytes = .ok exported ∧ exported.rows = table.read R exported.columns := by
  obtain ⟨text, blanks, htext, hblanks, hlines⟩ := hwritten
  have hfound : (Subframes.lines text).findIdx? isHeader = some table.preamble.length := by
    rw [hlines, lines, List.append_assoc, List.findIdx?_append,
      List.findIdx?_eq_none_iff.mpr hapart, List.cons_append, List.findIdx?_cons,
      isHeader_header]
    simp
  have hheader : (Subframes.lines text).getD table.preamble.length [] =
      List.intercalate [','] table.header := by
    rw [hlines, lines]
    simp
  have hfields : headerFields R ((Subframes.lines text).getD table.preamble.length []) =
      .ok (table.header.map trim) := by
    rw [headerFields, hheader, record_header]
    rfl
  obtain ⟨layout, hlayout⟩ := Option.ne_none_iff_exists'.mp table.layout
  obtain ⟨hindex, hfile⟩ := mem_of_layout table.layout
  rw [parse, if_neg (by omega), htext]
  simp only [hfound, parseTable, hfields, bind, Except.bind, findIdx?_of_mem hindex,
    findIdx?_of_mem hfile, hlayout]
  refine ⟨_, rfl, ?_⟩
  rw [List.length_map, hlines]
  exact rows_lines R _ hblanks

theorem parseTable_ok {R : Readers} {lines : List Text} {headerAt : Nat}
    {exported : SubframeExport R.F64} (h : parseTable R lines headerAt = .ok exported) :
    ∃ shape : RowShape, exported.rows = shape.rows R lines headerAt := by
  obtain ⟨headers, -, h⟩ := Except.bind_eq_ok_iff.mp h
  split at h
  · split at h
    · cases h
    · cases h
      exact ⟨_, rfl⟩
  · cases h

theorem length_lt_of_isHeader (R : Readers) {bytes : Text} (hwritten : table.WrittenIn bytes)
    {line : Text} (hline : line ∈ table.preamble) (hheader : isHeader line = true)
    {exported : SubframeExport R.F64} (h : parse R bytes = .ok exported) :
    table.rows.length < exported.rows.length := by
  obtain ⟨text, blanks, htext, -, hlines⟩ := hwritten
  obtain ⟨headerAt, hfound⟩ := Option.isSome_iff_exists.mp
    (List.findIdx?_isSome.trans (List.any_eq_true.mpr ⟨line, hline, hheader⟩))
  have hlt : headerAt < table.preamble.length :=
    (List.findIdx?_eq_some_iff_findIdx_eq.mp hfound).1
  have hrows : ∃ shape : RowShape,
      exported.rows = shape.rows R (table.lines ++ blanks) headerAt := by
    rw [parse] at h
    split at h
    · cases h
    rw [htext] at h
    simp only [hlines] at h
    rw [lines, List.append_assoc, List.findIdx?_append, hfound, Option.some_or] at h
    rw [lines, List.append_assoc]
    exact parseTable_ok h
  obtain ⟨shape, hrows⟩ := hrows
  -- the lines behind the one found: the rest of the preamble, the header, the rows
  have hcut : table.lines ++ blanks = table.preamble.take headerAt ++ table.preamble[headerAt] ::
      (table.preamble.drop (headerAt + 1) ++ (List.intercalate [','] table.header ::
        (table.rows.map (List.intercalate [',']) ++ blanks))) := by
    rw [lines, List.append_assoc, ← List.cons_append, ← List.append_assoc,
      ← List.drop_eq_getElem_cons hlt, ← List.append_assoc (table.preamble.take headerAt),
      List.take_append_drop]
    simp
  have htake : (table.preamble.take headerAt).length = headerAt := by
    rw [List.length_take]
    omega
  have hwritten : ∀ row ∈ table.rows.map (List.intercalate [',']), !(trim row).isEmpty := by
    intro row hrow
    obtain ⟨fields, hfields, rfl⟩ := List.mem_map.mp hrow
    simpa using trim_row_ne_nil hfields
  have hheader' : trim (List.intercalate [','] table.header) ≠ [] :=
    trim_ne_nil (comma_mem two_le_length) (by decide)
  have hcount := @RowShape.length_rows_append R shape
    (table.preamble.take headerAt) (table.preamble.drop (headerAt + 1) ++
      (List.intercalate [','] table.header ::
        (table.rows.map (List.intercalate [',']) ++ blanks))) table.preamble[headerAt]
  rw [← hcut, htake, ← hrows, List.countP_append, List.countP_cons, List.countP_append,
    List.countP_eq_length.mpr hwritten, List.length_map, if_pos (by simpa using hheader')] at hcount
  omega

/-- The table is read as it was written: each row of exactly the fields written, the path between
its quotes. -/
def ReadAsWritten (table : Table) (R : Readers) (bytes : Text) : Prop :=
  ∃ exported, parse R bytes = .ok exported ∧ exported.rows = table.read R exported.columns ∧
    ∀ (i : Nat) (fields : List Text) (path : Text) (row : ExportRow R.F64),
      table.rows[i]? = some fields →
      fields.getD (table.shape exported.columns).fileAt [] = '"' :: (path ++ ['"']) →
      exported.rows[i]? = some row → row.index ≠ none → row.file = path

theorem file_read {R : Readers} {columns : List ImportColumn} {i : Nat} {fields : List Text}
    {path : Text} {row : ExportRow R.F64} (hfields : table.rows[i]? = some fields)
    (hpath : fields.getD (table.shape columns).fileAt [] = '"' :: (path ++ ['"']))
    (hrow : (table.read R columns)[i]? = some row) (hindex : row.index ≠ none) :
    row.file = path := by
  rw [read, List.getElem?_map, List.getElem?_zipIdx, hfields] at hrow
  obtain rfl := Option.some.inj hrow
  have hfile := RowShape.file_row hindex
  rw [hpath, unquote_quoted] at hfile
  exact hfile

end Table

/-! ## The import -/

/-- A table is read as it was written exactly when no line before it is taken for its header, and
whatever was read, its rows and frames are matched one to one, by path before name, the undecided
ones reported. -/
theorem table_read_iff (R : Readers) (table : Table) (bytes : Text)
    (candidates : List ImportCandidate) (hsize : bytes.length ≤ maxExportBytes)
    (hwritten : table.WrittenIn bytes)
    (hhost : ∀ a ∈ candidates, ∀ b ∈ candidates, a.path.onWindows = b.path.onWindows) :
    (table.ReadAsWritten R bytes ↔ ∀ line ∈ table.preamble, isHeader line = false) ∧
      ∀ exported : SubframeExport R.F64,
        Matched exported candidates (matchRows exported candidates) := by
  refine ⟨⟨?_, fun hapart => ?_⟩, fun exported => matchRows_matched exported candidates hhost⟩
  · rintro ⟨exported, hparse, hrows, -⟩ line hline
    by_contra hheader
    have hlt := Table.length_lt_of_isHeader R hwritten hline (Bool.not_eq_false _ ▸ hheader) hparse
    rw [hrows, Table.read, List.length_map, List.length_zipIdx] at hlt
    omega
  · obtain ⟨exported, hparse, hrows⟩ := Table.parse_of_apart R hsize hwritten hapart
    refine ⟨exported, hparse, hrows, fun i fields path row hfields hpath hrow hindex => ?_⟩
    exact Table.file_read hfields hpath (hrows ▸ hrow) hindex

/-! ## Two exports -/

theorem length_utf8_le (text : Text) : (utf8 text).length ≤ 4 * text.length := by
  rw [utf8, List.length_map]
  induction text with
  | nil => simp
  | cons c text ih =>
    have hsize := Char.utf8Size_le_four c
    rw [List.flatMap_cons, List.length_append, String.length_utf8EncodeChar, List.length_cons]
    omega

theorem lines_intercalate {rest : List Text} (hnil : rest ≠ [])
    (h : ∀ line ∈ rest, '\n' ∉ line ∧ line.getLast? ≠ some '\r') :
    lines (List.intercalate ['\n'] rest) = rest := by
  rw [lines, List.splitOn_intercalate '\n' (fun line hline => (h line hline).1) hnil]
  refine (List.map_congr_left fun line hline => ?_).trans (List.map_id _)
  exact if_neg (h line hline).2

theorem Table.writtenIn_intercalate (table : Table)
    (h : ∀ line ∈ table.lines, '\n' ∉ line ∧ line.getLast? ≠ some '\r') :
    table.WrittenIn (utf8 (List.intercalate ['\n'] table.lines)) := by
  refine ⟨_, [], fromUtf8_utf8 _, nofun, ?_⟩
  rw [List.append_nil, lines_intercalate (by simp [Table.lines]) h]

def plainReaders : Readers where
  record line := .ok (some (line.splitOn ','))
  F64 := Nat
  parseF64 := parseU64
  isFinite _ := true
  isOne value := value = 1
  debug text := '"' :: (text ++ ['"'])
  record_plain fields hnil hplain := by
    have hfields : fields ≠ [] := fun h => hnil (h ▸ rfl)
    rw [List.splitOn_intercalate ',' (fun field hfield hmem => ?_) hfields]
    exact hplain field hfield ',' hmem (by decide)

def frameRow : List Text :=
  ["1", "true", "false", "\"/Astro \"T7\"/Ha, night 1/Ha_001.fits\"", "1", "1", "1", "1", "1", "1",
    "3", "1", "1", "1", "1", "1", "1", "1", "1", "1", "1", "1", "1"].map String.toList

def tableBehind (preamble : List Text) : Table where
  preamble := preamble
  header := columns23
  rows := [frameRow]
  plain name hname c hc := by
    have hall : (columns23.all fun name => name.all fun c => decide (c ∉ special)) = true := by
      decide
    exact of_decide_eq_true (List.all_eq_true.mp (List.all_eq_true.mp hall name hname) c hc)
  layout := by decide
  length_eq := by decide
  comma_free row hrow i hi := by
    obtain rfl := List.mem_singleton.mp hrow
    have hfile : (columns23.map trim).findIdx (· = "File".toList) = 3 := by decide
    have hall : ∀ i < 23, i ≠ 3 → ',' ∉ frameRow.getD i [] := by decide
    by_cases hlt : i < 23
    · exact hall i hlt (hfile ▸ hi)
    · rw [List.getD_eq_getElem?_getD, List.getElem?_eq_none (by simp [frameRow]; omega)]
      exact List.not_mem_nil

def shortPreamble : List Text :=
  ["SubframeSelector module version 1.7.3".toList, "Approval expression,\"FWHM < 4\"".toList]

/-- An expression of three lines, as the older modules wrote it. -/
def longPreamble : List Text :=
  ["SubframeSelector module version 1.7.3".toList, "Approval expression,\"FWHM < 4 && 2 <".toList,
    "Index".toList, "&& PSFFlux > 1\"".toList]

def tableLines : List Text :=
  [List.intercalate [','] columns23, List.intercalate [','] frameRow]

theorem lines_tableBehind (preamble : List Text) :
    (tableBehind preamble).lines = preamble ++ tableLines := rfl

theorem endless_tableLines :
    ∀ line ∈ tableLines, '\n' ∉ line ∧ line.getLast? ≠ some '\r' := by
  decide

theorem writtenIn_tableBehind {preamble : List Text}
    (h : ∀ line ∈ preamble, '\n' ∉ line ∧ line.getLast? ≠ some '\r') :
    (tableBehind preamble).WrittenIn
      (utf8 (List.intercalate ['\n'] (tableBehind preamble).lines)) := by
  refine Table.writtenIn_intercalate _ fun line hline => ?_
  rw [lines_tableBehind] at hline
  rcases List.mem_append.mp hline with hline | hline
  · exact h line hline
  · exact endless_tableLines line hline

theorem size_tableBehind {preamble : List Text}
    (h : (List.intercalate ['\n'] (preamble ++ tableLines)).length ≤ 1000) :
    (utf8 (List.intercalate ['\n'] (tableBehind preamble).lines)).length ≤ maxExportBytes := by
  have hle := length_utf8_le (List.intercalate ['\n'] (tableBehind preamble).lines)
  have hmax : maxExportBytes = 16777216 := rfl
  rw [lines_tableBehind] at hle ⊢
  omega

set_option maxRecDepth 4000 in
theorem length_shortPreamble :
    (List.intercalate ['\n'] (shortPreamble ++ tableLines)).length ≤ 1000 := by
  decide

theorem endless_shortPreamble :
    ∀ line ∈ shortPreamble, '\n' ∉ line ∧ line.getLast? ≠ some '\r' := by
  decide

theorem apart_shortPreamble : ∀ line ∈ shortPreamble, isHeader line = false := by
  decide

theorem table_read_behind_short_expression :
    (tableBehind shortPreamble).ReadAsWritten plainReaders
      (utf8 (List.intercalate ['\n'] (tableBehind shortPreamble).lines)) := by
  have hsize := size_tableBehind length_shortPreamble
  have hwritten := writtenIn_tableBehind endless_shortPreamble
  have hapart : ∀ line ∈ (tableBehind shortPreamble).preamble, isHeader line = false :=
    apart_shortPreamble
  exact (table_read_iff plainReaders (tableBehind shortPreamble) _ [] hsize hwritten
    (fun _ h => absurd h List.not_mem_nil)).1.mpr hapart

theorem endless_longPreamble :
    ∀ line ∈ longPreamble, '\n' ∉ line ∧ line.getLast? ≠ some '\r' := by
  decide

set_option maxRecDepth 4000 in
theorem length_longPreamble :
    (List.intercalate ['\n'] (longPreamble ++ tableLines)).length ≤ 1000 := by
  decide

theorem findIdx?_longPreamble : longPreamble.findIdx? isHeader = some 2 := by
  decide

/-- An export whose expression has a line `Index` is refused for a table that has both columns. -/
theorem table_refused_behind_long_expression :
    (tableBehind longPreamble).WrittenIn
        (utf8 (List.intercalate ['\n'] (tableBehind longPreamble).lines)) ∧
      parse plainReaders (utf8 (List.intercalate ['\n'] (tableBehind longPreamble).lines)) =
        .error (unsupported "the table needs both an Index and a File column") ∧
      ¬ (tableBehind longPreamble).ReadAsWritten plainReaders
        (utf8 (List.intercalate ['\n'] (tableBehind longPreamble).lines)) := by
  have hwritten := writtenIn_tableBehind endless_longPreamble
  have hsize := size_tableBehind length_longPreamble
  have hlines : lines (List.intercalate ['\n'] (tableBehind longPreamble).lines) =
      longPreamble ++ tableLines := by
    rw [lines_tableBehind]
    refine lines_intercalate (by simp [tableLines]) fun line hline => ?_
    rcases List.mem_append.mp hline with hline | hline
    · exact endless_longPreamble line hline
    · exact endless_tableLines line hline
  have hparse : parse plainReaders
      (utf8 (List.intercalate ['\n'] (tableBehind longPreamble).lines)) =
        .error (unsupported "the table needs both an Index and a File column") := by
    rw [parse, if_neg (by omega), fromUtf8_utf8]
    simp only [hlines, List.findIdx?_append, findIdx?_longPreamble, Option.some_or]
    rfl
  refine ⟨hwritten, hparse, ?_⟩
  rintro ⟨exported, hexported, -⟩
  rw [hparse] at hexported
  cases hexported

end PlateVault.Subframes
