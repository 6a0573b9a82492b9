import PlateVault.Subframes.Export

/-!
# Rows matched to frames

A row is matched to the frame whose path it names, or else to the only frame of its file name.
Several such frames, or two rows on one frame, make a row ambiguous.
-/

namespace PlateVault.Subframes

inductive RawPath
  | windowsUtf16 (units : List UInt16)
  | unixBytes (bytes : List UInt8)
  deriving DecidableEq

def RawPath.onWindows : RawPath → Bool
  | .windowsUtf16 _ => true
  | .unixBytes _ => false

structure ImportCandidate where
  assetId : Uuid
  path : RawPath
  /-- The absolute path as Unicode text. -/
  pathText : Option Text
  /-- The final path component as Unicode text. -/
  basename : Option Text
  fingerprint : ObservationFingerprint
  sha256 : Option Text

inductive RowMatch
  | matchedPath
  | matchedName
  | ambiguous
  | unmatched
  | unparsed
  deriving DecidableEq, Repr

structure ImportBasis where
  fingerprint : ObservationFingerprint
  sha256 : Option Text

structure ImportRow (F64 : Type) where
  line : Nat
  index : Option Nat
  file : Text
  matchState : RowMatch
  reason : Option Reason
  candidates : List Uuid
  assetId : Option Uuid
  basis : Option ImportBasis
  values : List (ImportCell F64)

/-- A path with `/` read as the separator of Windows. -/
def backslashed (file : Text) : Text := file.map fun c => if c = '/' then '\\' else c

def pathMatches (file : Text) (candidate : ImportCandidate) : Bool :=
  match candidate.pathText with
  | none => false
  | some text => match candidate.path with
    | .windowsUtf16 _ => backslashed file = text
    | .unixBytes _ => file = text

def basenameOf (file : Text) : Text :=
  (file.reverse.takeWhile fun c => !(c = '/' || c = '\\')).reverse

section Matching

variable {F64 : Type}

def byPath (file : Text) (candidates : List ImportCandidate) : List ImportCandidate :=
  candidates.filter (pathMatches file)

def byName (file : Text) (candidates : List ImportCandidate) : List ImportCandidate :=
  candidates.filter (·.basename = some (basenameOf file))

def partners (file : Text) (candidates : List ImportCandidate) : List ImportCandidate :=
  if (byPath file candidates).isEmpty then byName file candidates else byPath file candidates

def firstMatch (row : ExportRow F64) (candidates : List ImportCandidate) : ImportRow F64 :=
  let unmatched : ImportRow F64 :=
    ⟨row.line, row.index, row.file, .unmatched, none, [], none, none, row.values⟩
  if row.index = none then { unmatched with matchState := .unparsed, reason := row.reason }
  else
    let state := if (byPath row.file candidates).isEmpty then .matchedName else .matchedPath
    let found := partners row.file candidates
    let listed := { unmatched with candidates := found.map (·.assetId) }
    match found with
    | [] => listed
    | [only] =>
      { listed with
        matchState := state
        assetId := some only.assetId
        basis := some ⟨only.fingerprint, only.sha256⟩ }
    | _ => { listed with matchState := .ambiguous }

def attached (rows : List (ImportRow F64)) (asset : Uuid) : Nat :=
  rows.countP (·.assetId = some asset)

def settle (rows : List (ImportRow F64)) (row : ImportRow F64) : ImportRow F64 :=
  if row.assetId.any fun asset => 1 < attached rows asset then
    { row with
      matchState := .ambiguous
      reason := some .duplicateAssetMatch
      assetId := none
      basis := none }
  else row

def matchRows (exported : SubframeExport F64) (candidates : List ImportCandidate) :
    List (ImportRow F64) :=
  let rows := exported.rows.map (firstMatch · candidates)
  rows.map (settle rows)

/-! ## One row -/

variable {row : ExportRow F64} {candidates : List ImportCandidate}

theorem firstMatch_assetId {asset : Uuid} :
    (firstMatch row candidates).assetId = some asset ↔ row.index ≠ none ∧
      ∃ only, partners row.file candidates = [only] ∧ only.assetId = asset := by
  unfold firstMatch
  by_cases hindex : row.index = none
  · simp [hindex]
  · rw [if_neg hindex]
    match partners row.file candidates with
    | [] => simp
    | [only] => simp [hindex]
    | _ :: _ :: _ => simp

theorem firstMatch_ambiguous (hindex : row.index ≠ none)
    (h : 2 ≤ (partners row.file candidates).length) :
    (firstMatch row candidates).matchState = .ambiguous ∧
      (firstMatch row candidates).assetId = none := by
  unfold firstMatch
  rw [if_neg hindex]
  match hfound : partners row.file candidates with
  | [] | [only] => simp [hfound] at h
  | _ :: _ :: _ => exact ⟨rfl, rfl⟩

theorem settle_assetId {rows : List (ImportRow F64)} {row : ImportRow F64} {asset : Uuid} :
    (settle rows row).assetId = some asset ↔ row.assetId = some asset ∧ attached rows asset ≤ 1 := by
  unfold settle
  cases hrow : row.assetId with
  | none => simp [hrow]
  | some own =>
    by_cases hmany : 1 < attached rows own
    · rw [if_pos (by simpa using hmany)]
      simp only [Option.some.injEq]
      constructor
      · nofun
      · rintro ⟨rfl, hone⟩
        omega
    · rw [if_neg (by simpa using hmany), hrow]
      simp only [Option.some.injEq]
      constructor
      · rintro rfl
        exact ⟨rfl, by omega⟩
      · exact fun h => h.1

theorem settle_ambiguous {rows : List (ImportRow F64)} {row : ImportRow F64}
    (h : row.matchState = .ambiguous ∧ row.assetId = none ∨
      ∃ asset, row.assetId = some asset ∧ 1 < attached rows asset) :
    (settle rows row).matchState = .ambiguous ∧ (settle rows row).assetId = none := by
  unfold settle
  rcases h with ⟨hstate, hnone⟩ | ⟨asset, hasset, hmany⟩
  · rw [hnone]
    exact ⟨hstate, hnone⟩
  · rw [if_pos (by simpa [hasset] using hmany)]
    exact ⟨rfl, rfl⟩

theorem two_le_attached {rows : List (ImportRow F64)} {i j : Nat} {row other : ImportRow F64}
    {asset : Uuid} (hij : i < j) (hi : rows[i]? = some row) (hj : rows[j]? = some other)
    (hrow : row.assetId = some asset) (hother : other.assetId = some asset) :
    2 ≤ attached rows asset := by
  have hfirst : row ∈ rows.take j := by
    refine List.mem_of_getElem? (i := i) ?_
    rw [List.getElem?_take_of_lt hij]
    exact hi
  have hlast : other ∈ rows.drop j := by
    refine List.mem_of_getElem? (i := 0) ?_
    rw [List.getElem?_drop, Nat.add_zero]
    exact hj
  have hone : 0 < (rows.take j).countP (·.assetId = some asset) :=
    List.countP_pos_iff.mpr ⟨row, hfirst, decide_eq_true hrow⟩
  have htwo : 0 < (rows.drop j).countP (·.assetId = some asset) :=
    List.countP_pos_iff.mpr ⟨other, hlast, decide_eq_true hother⟩
  rw [attached, ← List.take_append_drop j rows, List.countP_append]
  omega

theorem getElem?_matchRows {exported : SubframeExport F64} (i : Nat) :
    (matchRows exported candidates)[i]? = exported.rows[i]?.map fun row =>
      settle (exported.rows.map (firstMatch · candidates)) (firstMatch row candidates) := by
  rw [matchRows, List.getElem?_map, List.getElem?_map, Option.map_map]
  rfl

/-! ## Equally good partners -/

def spelled (onWindows : Bool) (file : Text) : Text :=
  if onWindows then backslashed file else file

theorem pathMatches_iff {file : Text} {candidate : ImportCandidate} :
    pathMatches file candidate = true ↔
      candidate.pathText = some (spelled candidate.path.onWindows file) := by
  unfold pathMatches spelled
  cases candidate.pathText with
  | none => simp
  | some text =>
    cases candidate.path with
    | windowsUtf16 units => simp [RawPath.onWindows, eq_comm]
    | unixBytes bytes => simp [RawPath.onWindows, eq_comm]

theorem byPath_congr {file other : Text} {candidate : ImportCandidate}
    (hhost : ∀ a ∈ candidates, ∀ b ∈ candidates, a.path.onWindows = b.path.onWindows)
    (hcandidate : candidate ∈ candidates) (h : pathMatches file candidate = true)
    (hother : pathMatches other candidate = true) :
    byPath file candidates = byPath other candidates := by
  refine List.filter_congr fun found hfound => ?_
  have hkind := hhost candidate hcandidate found hfound
  have hspelled : spelled found.path.onWindows file = spelled found.path.onWindows other := by
    rw [← hkind]
    exact Option.some.inj ((pathMatches_iff.mp h).symm.trans (pathMatches_iff.mp hother))
  rw [Bool.eq_iff_iff, pathMatches_iff, pathMatches_iff, hspelled]

theorem byName_congr {file other : Text} {candidate : ImportCandidate}
    (h : candidate ∈ byName file candidates) (hother : candidate ∈ byName other candidates) :
    byName file candidates = byName other candidates := by
  have hname := of_decide_eq_true (List.mem_filter.mp h).2
  have hname' := of_decide_eq_true (List.mem_filter.mp hother).2
  rw [byName, byName, Option.some.inj (hname.symm.trans hname')]

theorem partners_of_nil {file : Text} (h : byPath file candidates = []) :
    partners file candidates = byName file candidates := by
  rw [partners, h]
  rfl

theorem partners_of_ne_nil {file : Text} (h : byPath file candidates ≠ []) :
    partners file candidates = byPath file candidates :=
  if_neg (by rwa [List.isEmpty_iff])

theorem partners_congr {file other : Text} {candidate : ImportCandidate}
    (hhost : ∀ a ∈ candidates, ∀ b ∈ candidates, a.path.onWindows = b.path.onWindows)
    (hkind : byPath file candidates = [] ↔ byPath other candidates = [])
    (h : candidate ∈ partners file candidates) (hother : candidate ∈ partners other candidates) :
    partners file candidates = partners other candidates := by
  by_cases hnil : byPath file candidates = []
  · rw [partners_of_nil hnil] at h ⊢
    rw [partners_of_nil (hkind.mp hnil)] at hother ⊢
    exact byName_congr h hother
  · have hnil' : byPath other candidates ≠ [] := fun hnil' => hnil (hkind.mpr hnil')
    rw [partners_of_ne_nil hnil] at h ⊢
    rw [partners_of_ne_nil hnil'] at hother ⊢
    obtain ⟨hmem, hmatch⟩ := List.mem_filter.mp h
    exact byPath_congr hhost hmem hmatch (List.mem_filter.mp hother).2

/-! ## The order of rows and frames -/

/-- A row matched alike, its frames listed in any order. -/
structure SameMatch (row other : ImportRow F64) : Prop where
  line : row.line = other.line
  index : row.index = other.index
  file : row.file = other.file
  matchState : row.matchState = other.matchState
  reason : row.reason = other.reason
  candidates : row.candidates.Perm other.candidates
  assetId : row.assetId = other.assetId
  basis : row.basis = other.basis
  values : row.values = other.values

theorem byPath_perm {file : Text} {others : List ImportCandidate} (h : candidates.Perm others) :
    (byPath file candidates).isEmpty = (byPath file others).isEmpty ∧
      (partners file candidates).Perm (partners file others) := by
  have hpath : (byPath file candidates).Perm (byPath file others) := h.filter _
  by_cases hnil : byPath file candidates = []
  · have hnil' : byPath file others = [] := List.nil_perm.mp (hnil ▸ hpath)
    rw [partners_of_nil hnil, partners_of_nil hnil', hnil, hnil']
    exact ⟨rfl, h.filter _⟩
  · have hnil' : byPath file others ≠ [] := fun hnil' => hnil (List.perm_nil.mp (hnil' ▸ hpath))
    rw [partners_of_ne_nil hnil, partners_of_ne_nil hnil']
    exact ⟨by rw [List.isEmpty_eq_false_iff.mpr hnil, List.isEmpty_eq_false_iff.mpr hnil'], hpath⟩

theorem firstMatch_perm (row : ExportRow F64) {others : List ImportCandidate}
    (h : candidates.Perm others) :
    SameMatch (firstMatch row candidates) (firstMatch row others) := by
  obtain ⟨hempty, hperm⟩ := @byPath_perm _ row.file _ h
  unfold firstMatch
  by_cases hindex : row.index = none
  · rw [if_pos hindex, if_pos hindex]
    exact ⟨rfl, rfl, rfl, rfl, rfl, List.Perm.refl _, rfl, rfl, rfl⟩
  · rw [if_neg hindex, if_neg hindex, hempty]
    match hfound : partners row.file candidates, hfound' : partners row.file others with
    | [], [] => exact ⟨rfl, rfl, rfl, rfl, rfl, List.Perm.refl _, rfl, rfl, rfl⟩
    | [only], [only'] =>
      obtain rfl := List.singleton_perm_singleton.mp (hfound ▸ hfound' ▸ hperm)
      exact ⟨rfl, rfl, rfl, rfl, rfl, List.Perm.refl _, rfl, rfl, rfl⟩
    | _ :: _ :: _, _ :: _ :: _ =>
      refine ⟨rfl, rfl, rfl, rfl, rfl, ?_, rfl, rfl, rfl⟩
      exact (hfound ▸ hfound' ▸ hperm : List.Perm _ _).map _
    | [], _ :: _ | _ :: _, [] | [_], _ :: _ :: _ | _ :: _ :: _, [_] =>
      have hlength := hperm.length_eq
      simp [hfound, hfound'] at hlength

theorem attached_perm {rows others : List (ImportRow F64)} (h : rows.Perm others) (asset : Uuid) :
    attached rows asset = attached others asset := h.countP_eq _

theorem attached_firstMatch_perm {rows others : List (ExportRow F64)}
    {candidates' : List ImportCandidate} (hrows : rows.Perm others)
    (hcandidates : candidates.Perm candidates') (asset : Uuid) :
    attached (rows.map (firstMatch · candidates)) asset =
      attached (others.map (firstMatch · candidates')) asset := by
  rw [attached_perm (hrows.map (firstMatch · candidates)), attached, attached, List.countP_map,
    List.countP_map]
  refine List.countP_congr fun row _ => ?_
  simp only [Function.comp_apply, (firstMatch_perm row hcandidates).assetId]

theorem SameMatch.settle {rows others : List (ImportRow F64)} {row other : ImportRow F64}
    (h : SameMatch row other) (hattached : ∀ asset, attached rows asset = attached others asset) :
    SameMatch (settle rows row) (settle others other) := by
  unfold Subframes.settle
  simp only [h.assetId, hattached]
  split
  · exact ⟨h.line, h.index, h.file, rfl, rfl, h.candidates, rfl, rfl, h.values⟩
  · exact h

/-! ## All rows -/

/-- What matching makes of a table's rows and a scope's frames. -/
structure Matched (exported : SubframeExport F64) (candidates : List ImportCandidate)
    (result : List (ImportRow F64)) : Prop where
  length_eq : result.length = exported.rows.length
  /-- A row is attached to its only partner. -/
  partner : ∀ (i : Nat) (read : ExportRow F64) (row : ImportRow F64) (asset : Uuid),
    exported.rows[i]? = some read → result[i]? = some row →
    row.assetId = some asset →
      ∃ only, partners read.file candidates = [only] ∧ only.assetId = asset
  /-- A frame has one row. -/
  once : ∀ (i j : Nat) (row other : ImportRow F64) (asset : Uuid), result[i]? = some row → result[j]? = some other →
    row.assetId = some asset → other.assetId = some asset → i = j
  /-- A row of a frame's path is attached to no other frame. -/
  path : ∀ (i : Nat) (read : ExportRow F64) (row : ImportRow F64) (candidate : ImportCandidate)
    (asset : Uuid), exported.rows[i]? = some read → result[i]? = some row →
    candidate ∈ candidates → pathMatches read.file candidate = true →
      row.assetId = some asset → asset = candidate.assetId
  /-- A row with several partners is ambiguous. -/
  severalFrames : ∀ (i : Nat) (read : ExportRow F64) (row : ImportRow F64), exported.rows[i]? = some read → result[i]? = some row →
    read.index ≠ none → 2 ≤ (partners read.file candidates).length →
      row.matchState = .ambiguous ∧ row.assetId = none
  /-- A row that is not the only one for its partner is ambiguous. -/
  severalRows : ∀ (i j : Nat) (read other : ExportRow F64) (row : ImportRow F64)
    (candidate : ImportCandidate), i ≠ j → exported.rows[i]? = some read →
    exported.rows[j]? = some other → result[i]? = some row → read.index ≠ none →
      other.index ≠ none →
      (byPath read.file candidates = [] ↔ byPath other.file candidates = []) →
      candidate ∈ partners read.file candidates → candidate ∈ partners other.file candidates →
        row.matchState = .ambiguous ∧ row.assetId = none
  /-- The order of rows and frames plays no part. -/
  order : ∀ (exported' : SubframeExport F64) (candidates' : List ImportCandidate),
    exported.rows.Perm exported'.rows → candidates.Perm candidates' →
      ∀ (i j : Nat) (read : ExportRow F64) (row row' : ImportRow F64), exported.rows[i]? = some read → exported'.rows[j]? = some read →
        result[i]? = some row → (matchRows exported' candidates')[j]? = some row' →
          SameMatch row row'

section Rows

variable {exported : SubframeExport F64} {i j : Nat} {read other : ExportRow F64}

theorem two_le_attached_firstMatch {only : ImportCandidate} (hij : i < j)
    (hi : exported.rows[i]? = some read) (hj : exported.rows[j]? = some other)
    (hread : read.index ≠ none) (hother : other.index ≠ none)
    (hpartners : partners read.file candidates = [only])
    (hpartners' : partners other.file candidates = [only]) :
    2 ≤ attached (exported.rows.map (firstMatch · candidates)) only.assetId := by
  have hfirst : (exported.rows.map (firstMatch · candidates))[i]? =
      some (firstMatch read candidates) := by
    rw [List.getElem?_map, hi]
    rfl
  have hsecond : (exported.rows.map (firstMatch · candidates))[j]? =
      some (firstMatch other candidates) := by
    rw [List.getElem?_map, hj]
    rfl
  exact two_le_attached hij hfirst hsecond
    (firstMatch_assetId.mpr ⟨hread, only, hpartners, rfl⟩)
    (firstMatch_assetId.mpr ⟨hother, only, hpartners', rfl⟩)

theorem exists_of_getElem?_matchRows {row : ImportRow F64}
    (h : (matchRows exported candidates)[i]? = some row) :
    ∃ read, exported.rows[i]? = some read ∧
      row = settle (exported.rows.map (firstMatch · candidates)) (firstMatch read candidates) := by
  rw [getElem?_matchRows] at h
  obtain ⟨read, hread, heq⟩ := Option.map_eq_some_iff.mp h
  exact ⟨read, hread, heq.symm⟩

theorem eq_settle {row : ImportRow F64} (hread : exported.rows[i]? = some read)
    (h : (matchRows exported candidates)[i]? = some row) :
    row = settle (exported.rows.map (firstMatch · candidates)) (firstMatch read candidates) := by
  rw [getElem?_matchRows, hread] at h
  exact (Option.some.inj h).symm

end Rows

theorem matchRows_matched (exported : SubframeExport F64) (candidates : List ImportCandidate)
    (hhost : ∀ a ∈ candidates, ∀ b ∈ candidates, a.path.onWindows = b.path.onWindows) :
    Matched exported candidates (matchRows exported candidates) where
  length_eq := by
    rw [matchRows, List.length_map, List.length_map]
  partner i read row asset hread hrow hasset := by
    rw [eq_settle hread hrow] at hasset
    exact (firstMatch_assetId.mp (settle_assetId.mp hasset).1).2
  once i j row other asset hi hj hrow hother := by
    obtain ⟨read, hread, rfl⟩ := exists_of_getElem?_matchRows hi
    obtain ⟨read', hread', rfl⟩ := exists_of_getElem?_matchRows hj
    obtain ⟨hasset, hone⟩ := settle_assetId.mp hrow
    obtain ⟨hasset', -⟩ := settle_assetId.mp hother
    have hfirst : (exported.rows.map (firstMatch · candidates))[i]? =
        some (firstMatch read candidates) := by
      rw [List.getElem?_map, hread]
      rfl
    have hsecond : (exported.rows.map (firstMatch · candidates))[j]? =
        some (firstMatch read' candidates) := by
      rw [List.getElem?_map, hread']
      rfl
    rcases Nat.lt_trichotomy i j with hij | hij | hij
    · have := two_le_attached hij hfirst hsecond hasset hasset'
      omega
    · exact hij
    · have := two_le_attached hij hsecond hfirst hasset' hasset
      omega
  path i read row candidate asset hread hrow hmem hmatch hasset := by
    rw [eq_settle hread hrow] at hasset
    obtain ⟨-, only, hpartners, rfl⟩ := firstMatch_assetId.mp (settle_assetId.mp hasset).1
    have hpath : candidate ∈ byPath read.file candidates := List.mem_filter.mpr ⟨hmem, hmatch⟩
    rw [partners_of_ne_nil (List.ne_nil_of_mem hpath)] at hpartners
    rw [hpartners, List.mem_singleton] at hpath
    rw [hpath]
  severalFrames i read row hread hrow hindex hmany := by
    rw [eq_settle hread hrow]
    exact settle_ambiguous (.inl (firstMatch_ambiguous hindex hmany))
  severalRows i j read other row candidate hij hread hother hrow hindex hindex' hkind hmem hmem' := by
    rw [eq_settle hread hrow]
    have hsame := partners_congr hhost hkind hmem hmem'
    by_cases hmany : 2 ≤ (partners read.file candidates).length
    · exact settle_ambiguous (.inl (firstMatch_ambiguous hindex hmany))
    · obtain ⟨only, hpartners⟩ : ∃ only, partners read.file candidates = [only] := by
        have hpos := List.length_pos_of_mem hmem
        exact List.length_eq_one_iff.mp (by omega)
      refine settle_ambiguous (.inr ⟨only.assetId, ?_, ?_⟩)
      · exact firstMatch_assetId.mpr ⟨hindex, only, hpartners, rfl⟩
      · rcases Nat.lt_or_gt_of_ne hij with hlt | hgt
        · exact two_le_attached_firstMatch hlt hread hother hindex hindex' hpartners
            (hsame ▸ hpartners)
        · exact two_le_attached_firstMatch hgt hother hread hindex' hindex (hsame ▸ hpartners)
            hpartners
  order exported' candidates' hrows hcandidates i j read row row' hread hread' hrow hrow' := by
    rw [eq_settle hread hrow, eq_settle hread' hrow']
    exact (firstMatch_perm read hcandidates).settle (attached_firstMatch_perm hrows hcandidates)

end Matching

end PlateVault.Subframes
