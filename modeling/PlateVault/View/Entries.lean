import PlateVault.View.Names
import PlateVault.Grouping.Laws

/-!
# Every input in its place

Every draft is of the input its source names. Where the names of distinct inputs have distinct
keys, every draft has an entry in its folder that places its input, and entry paths that differ by
more than case are left to the folders: `FoldersApart`.
-/

namespace PlateVault.View

variable {H : Host}

/-! ## Drafts -/

/-- A draft is of the input its source names; a light places the capture's chosen copy. -/
structure WellDrafted (input : PlanInput H) (draft : Draft H) : Prop where
  input_eq : draft.input = draft.source.input
  sourceId_eq : draft.sourceId = draft.source.sourceId
  light_chosen : ∀ captureKey assetId, draft.source = .light captureKey assetId →
    input.chosen captureKey = some assetId
  light_of_capture : ∀ captureKey, draft.input = .capture captureKey →
    ∃ assetId, draft.source = .light captureKey assetId

theorem placeLight_eq_some {chosen : Uuid → Option Uuid} {place : Place H}
    {capture : BasisCapture} {draft : Draft H} (h : placeLight chosen place capture = some draft) :
    ∃ assetId, chosen capture.captureKey = some assetId ∧ draft.folder = place.folder ∧
      draft.source = .light capture.captureKey assetId ∧ draft.sourceId = assetId ∧
      draft.input = .capture capture.captureKey := by
  unfold placeLight at h
  simp only [Option.bind_eq_bind, Option.bind_eq_some_iff, Option.some.injEq] at h
  obtain ⟨assetId, hchosen, copy, _, rfl⟩ := h
  exact ⟨assetId, hchosen, rfl, rfl, rfl, rfl⟩

/-- Whether an entry or a draft places a file of a pinned target. -/
def Places (target : PinTarget H) (file : PinnedFile) (source : EntrySource) : Prop :=
  match target.input with
  | .master masterId _ => source.input = .master masterId ∧ source.sourceId = masterId
  | .rawSet _ _ => ∃ assetId, file.assetId = some assetId ∧
      source.input = .calibrationFrame assetId ∧ source.sourceId = assetId

theorem mem_placePin {pin : SettledPin H} {kind : InputKind} {place : Place H} {draft : Draft H}
    (h : draft ∈ placePin pin kind place) :
    draft.folder = place.folder ∧ draft.input = draft.source.input ∧
      draft.sourceId = draft.source.sourceId ∧ ∀ captureKey, draft.input ≠ .capture captureKey := by
  unfold placePin at h
  split at h
  · cases h
  · next target _ =>
    obtain ⟨file, _, hfile⟩ := List.mem_filterMap.mp h
    simp only at hfile
    split at hfile
    · cases hfile
      exact ⟨rfl, rfl, rfl, fun _ h => by cases h⟩
    · cases hfile
      exact ⟨rfl, rfl, rfl, fun _ h => by cases h⟩
    · cases hfile

theorem validateFrames_named {sessionId : Uuid} {seen : List Uuid} {files : List PinnedFile}
    (h : validateFrames sessionId seen files = .ok ()) :
    ∀ file ∈ files, ∃ assetId, file.assetId = some assetId := by
  induction files generalizing seen with
  | nil => intro file hfile; cases hfile
  | cons file files ih =>
    unfold validateFrames at h
    cases hasset : file.assetId with
    | none => simp [hasset] at h
    | some asset =>
      simp only [hasset] at h
      split at h
      · cases h
      · intro other hother
        rcases List.mem_cons.mp hother with rfl | hother
        · exact ⟨asset, hasset⟩
        · exact ih h other hother

theorem PinTarget.frames_named {target : PinTarget H} {sessionId : Uuid} {revision : Nat}
    (hinput : target.input = .rawSet sessionId revision) :
    ∀ file ∈ target.files, ∃ assetId, file.assetId = some assetId := by
  have hvalid := target.valid
  unfold validateFiles at hvalid
  simp only [Result.bind_eq_ok, hinput] at hvalid
  obtain ⟨_, _, _, _, hframes⟩ := hvalid
  exact validateFrames_named hframes

theorem exists_mem_placePin {pin : SettledPin H} {target : PinTarget H} {kind : InputKind}
    {place : Place H} {file : PinnedFile} (hpin : pin.target = some target)
    (hfile : file ∈ target.files) :
    ∃ draft ∈ placePin pin kind place, Places target file draft.source := by
  unfold placePin Places
  rw [hpin]
  cases hinput : target.input with
  | master masterId revision =>
    refine ⟨_, List.mem_filterMap.mpr ⟨file, hfile, by simp only [hinput]; rfl⟩, ?_⟩
    exact ⟨rfl, rfl⟩
  | rawSet sessionId revision =>
    obtain ⟨assetId, hasset⟩ := target.frames_named hinput file hfile
    refine ⟨_, List.mem_filterMap.mpr ⟨file, hfile, by simp only [hinput, hasset]; rfl⟩, ?_⟩
    exact ⟨assetId, hasset, rfl, rfl⟩

theorem mem_sessionDrafts {input : PlanInput H} {names : Names} {lit : Lit H} {draft : Draft H} :
    draft ∈ sessionDrafts input names lit ↔
      (∃ capture ∈ lit.session.captures, capture.included = true ∧
        placeLight input.chosen (lightsPlace names input.lit lit) capture = some draft) ∨
      draft ∈ placePin lit.session.calibration.flat .flat (flatsPlace names input.lit lit) ∨
      draft ∈ placePin lit.session.calibration.dark .dark
        (calibrationPlace names input.lit .dark "Darks".toList lit) ∨
      draft ∈ placePin lit.session.calibration.bias .bias
        (calibrationPlace names input.lit .bias "Bias".toList lit) := by
  unfold sessionDrafts
  simp only [List.mem_append, List.mem_filterMap, List.mem_filter, and_assoc, or_assoc]

theorem wellDrafted_of_placePin {input : PlanInput H} {pin : SettledPin H} {kind : InputKind}
    {place : Place H} {draft : Draft H} (h : draft ∈ placePin pin kind place) :
    WellDrafted input draft := by
  obtain ⟨_, hinput, hsource, hcapture⟩ := mem_placePin h
  refine ⟨hinput, hsource, fun captureKey assetId hlight => ?_, fun captureKey h =>
    absurd h (hcapture captureKey)⟩
  exact absurd (hinput.trans (congrArg EntrySource.input hlight)) (hcapture captureKey)

theorem sessionDrafts_wellDrafted {input : PlanInput H} {names : Names} {lit : Lit H} :
    ∀ draft ∈ sessionDrafts input names lit, WellDrafted input draft := by
  intro draft hdraft
  rcases mem_sessionDrafts.mp hdraft with ⟨capture, _, _, hlight⟩ | hflat | hdark | hbias
  · obtain ⟨assetId, hchosen, _, hsource, hsourceId, hinput⟩ := placeLight_eq_some hlight
    refine ⟨?_, ?_, fun captureKey asset h => ?_, fun captureKey h => ?_⟩
    · rw [hinput, hsource]; rfl
    · rw [hsourceId, hsource]; rfl
    · rw [hsource] at h
      cases h
      exact hchosen
    · rw [hinput] at h
      cases h
      exact ⟨assetId, hsource⟩
  · exact wellDrafted_of_placePin hflat
  · exact wellDrafted_of_placePin hdark
  · exact wellDrafted_of_placePin hbias

theorem draftsOf_eq_ok {input : PlanInput H} {drafts : List (Draft H)}
    (h : draftsOf input = .ok drafts) :
    ∃ names, Names.new input = .ok names ∧
      drafts = input.lit.flatMap (sessionDrafts input names) := by
  unfold draftsOf at h
  cases hnames : Names.new input with
  | error error =>
    rw [hnames] at h
    cases h
  | ok names =>
    rw [hnames] at h
    cases h
    exact ⟨names, rfl, rfl⟩

theorem draftsOf_wellDrafted {input : PlanInput H} {drafts : List (Draft H)}
    (h : draftsOf input = .ok drafts) : ∀ draft ∈ drafts, WellDrafted input draft := by
  obtain ⟨names, _, rfl⟩ := draftsOf_eq_ok h
  intro draft hdraft
  obtain ⟨lit, _, hdraft⟩ := List.mem_flatMap.mp hdraft
  exact sessionDrafts_wellDrafted draft hdraft

/-! ## Names -/

theorem plan_eq_ok {input : PlanInput H} {p : Plan H} (h : plan input = .ok p) :
    ∃ drafts, draftsOf input = .ok drafts ∧
      nameNewcomers input (input.names.map fun reserved => nameKey H reserved.2.text)
        (newcomers input drafts) = .ok p.names ∧
      p.entries = (Ordered.sortBy Prod.fst (Ordered.firsts Prod.fst
        (drafts.filterMap (placedAt input p.names)))).zipIdx.map fun placed =>
          entryOf input.basis.mode placed.2 placed.1.1 placed.1.2 := by
  unfold plan at h
  cases hdrafts : draftsOf input with
  | error error =>
    rw [hdrafts] at h
    cases h
  | ok drafts =>
    rw [hdrafts] at h
    change finish input drafts = .ok p at h
    unfold finish at h
    simp only at h
    cases hnames : nameNewcomers input (input.names.map fun reserved =>
        nameKey H reserved.2.text) (newcomers input drafts) with
    | error error =>
      rw [hnames] at h
      cases h
    | ok names =>
      rw [hnames] at h
      cases h
      exact ⟨drafts, rfl, hnames, rfl⟩

theorem mem_newcomers {input : PlanInput H} {drafts : List (Draft H)} {draft : Draft H}
    (hdraft : draft ∈ drafts) (hnew : input.names.lookup draft.input = none) :
    draft.input ∈ (newcomers input drafts).map Prod.fst := by
  have hmem : (draft.input, draft.sourceId) ∈ (drafts.filter fun draft =>
      (input.names.lookup draft.input).isNone).map fun draft => (draft.input, draft.sourceId) :=
    List.mem_map.mpr ⟨draft, List.mem_filter.mpr ⟨hdraft, by simp [hnew]⟩, rfl⟩
  obtain ⟨newcomer, hnewcomer, hinput⟩ : ∃ newcomer ∈ Ordered.firsts Prod.fst _,
      newcomer.1 = draft.input := Ordered.exists_mem_firsts hmem
  exact List.mem_map.mpr ⟨newcomer, Ordered.mem_sortBy.mpr hnewcomer, hinput⟩

theorem exists_nameOf {input : PlanInput H} {drafts : List (Draft H)} {taken : List Text}
    {names : List (EntryName H)}
    (hnames : nameNewcomers input taken (newcomers input drafts) = .ok names)
    {draft : Draft H} (hdraft : draft ∈ drafts) :
    ∃ name, nameOf input names draft.input = some name := by
  unfold nameOf PlanInput.reserved
  cases hreserved : input.names.lookup draft.input with
  | some reserved => exact ⟨reserved.text, rfl⟩
  | none =>
    have hmem := mem_newcomers hdraft hreserved
    rw [← nameNewcomers_inputs hnames] at hmem
    obtain ⟨name, hname, hinput⟩ := List.mem_map.mp hmem
    have hfound : (names.find? fun name => name.input = draft.input).isSome :=
      List.find?_isSome.mpr ⟨name, hname, by simp [hinput]⟩
    obtain ⟨found, hfound⟩ := Option.isSome_iff_exists.mp hfound
    exact ⟨found.basename, by simp [hfound]⟩

def NamesApart (input : PlanInput H) (names : List (EntryName H)) : Prop :=
  ∀ left right leftName rightName, nameOf input names left = some leftName →
    nameOf input names right = some rightName → nameKey H leftName = nameKey H rightName →
      left = right

theorem nameOf_eq_some {input : PlanInput H} {names : List (EntryName H)} {entryInput : EntryInput}
    {name : Text} (h : nameOf input names entryInput = some name) :
    (∃ reserved, (entryInput, reserved) ∈ input.names ∧ reserved.text = name) ∨
      ∃ given ∈ names, given.input = entryInput ∧ given.basename = name := by
  unfold nameOf PlanInput.reserved at h
  rcases Option.or_eq_some_iff.mp h with h | ⟨_, h⟩
  · obtain ⟨reserved, hlookup, rfl⟩ := Option.map_eq_some_iff.mp h
    obtain ⟨front, back, heq, _⟩ := List.lookup_eq_some_iff.mp hlookup
    exact .inl ⟨reserved, by rw [heq]; simp, rfl⟩
  · obtain ⟨given, hfound, rfl⟩ := Option.map_eq_some_iff.mp h
    exact .inr ⟨given, List.mem_of_find?_eq_some hfound, by simpa using List.find?_some hfound, rfl⟩

theorem namesApart_of_distinct {input : PlanInput H} {names : List (EntryName H)}
    (hreserved : (input.names.map fun reserved => nameKey H reserved.2.text).Nodup)
    (hnames : (names.map fun name => nameKey H name.basename).Nodup)
    (hapart : ∀ name ∈ names, nameKey H name.basename ∉
      input.names.map fun reserved => nameKey H reserved.2.text) : NamesApart input names := by
  intro left right leftName rightName hleft hright hkey
  rcases nameOf_eq_some hleft with ⟨reserved, hmem, rfl⟩ | ⟨given, hmem, hinput, rfl⟩ <;>
    rcases nameOf_eq_some hright with ⟨reserved', hmem', rfl⟩ | ⟨given', hmem', hinput', rfl⟩
  · exact congrArg Prod.fst (List.inj_on_of_nodup_map hreserved hmem hmem' hkey)
  · exact absurd (List.mem_map.mpr ⟨(left, reserved), hmem, hkey⟩) (hapart given' hmem')
  · exact absurd (List.mem_map.mpr ⟨(right, reserved'), hmem', hkey.symm⟩) (hapart given hmem)
  · rw [← hinput, ← hinput', List.inj_on_of_nodup_map hnames hmem hmem' hkey]

/-! ## Entries -/

section Placed

variable {input : PlanInput H} {p : Plan H} {drafts : List (Draft H)}
  (hentries : p.entries = (Ordered.sortBy Prod.fst (Ordered.firsts Prod.fst
    (drafts.filterMap (placedAt input p.names)))).zipIdx.map fun placed =>
      entryOf input.basis.mode placed.2 placed.1.1 placed.1.2)

include hentries

theorem entry_draft {entry : PlanEntry H} (h : entry ∈ p.entries) :
    ∃ draft ∈ drafts, ∃ name, nameOf input p.names draft.input = some name ∧
      entry.path = draft.folder ++ [name] ∧ entry.source = draft.source ∧
        entry.sourceId = draft.sourceId := by
  rw [hentries] at h
  obtain ⟨⟨⟨path, draft⟩, seq⟩, hplaced, rfl⟩ := List.mem_map.mp h
  have hmem := Ordered.firsts_subset (Ordered.mem_sortBy.mp (List.fst_mem_of_mem_zipIdx hplaced))
  obtain ⟨found, hfound, hat⟩ := List.mem_filterMap.mp hmem
  obtain ⟨name, hname, heq⟩ := Option.map_eq_some_iff.mp hat
  cases heq
  exact ⟨draft, hfound, name, hname, rfl, rfl, rfl⟩

theorem exists_entry {draft : Draft H} (hdraft : draft ∈ drafts) {name : Text}
    (hname : nameOf input p.names draft.input = some name) :
    ∃ entry ∈ p.entries, entry.path = draft.folder ++ [name] := by
  have hmem : (draft.folder ++ [name], draft) ∈ drafts.filterMap (placedAt input p.names) :=
    List.mem_filterMap.mpr ⟨draft, hdraft, by simp [placedAt, hname]⟩
  obtain ⟨placed, hplaced, hpath⟩ : ∃ placed ∈ Ordered.firsts Prod.fst _,
      placed.1 = draft.folder ++ [name] := Ordered.exists_mem_firsts hmem
  have hsorted : placed ∈ ((Ordered.sortBy Prod.fst (Ordered.firsts Prod.fst
      (drafts.filterMap (placedAt input p.names)))).zipIdx).map Prod.fst := by
    rw [List.zipIdx_map_fst]
    exact Ordered.mem_sortBy.mpr hplaced
  obtain ⟨⟨found, seq⟩, hzip, rfl⟩ := List.mem_map.mp hsorted
  refine ⟨entryOf input.basis.mode seq found.1 found.2, ?_, hpath⟩
  rw [hentries]
  exact List.mem_map.mpr ⟨_, hzip, rfl⟩

theorem nodup_paths : (p.entries.map PlanEntry.path).Nodup := by
  have hkeys : (Ordered.sortBy Prod.fst (Ordered.firsts Prod.fst
      (drafts.filterMap (placedAt input p.names)))).map Prod.fst = p.entries.map PlanEntry.path := by
    rw [hentries, List.map_map]
    conv_lhs => rw [← List.zipIdx_map_fst 0 (Ordered.sortBy Prod.fst _), List.map_map]
    rfl
  rw [← hkeys]
  exact ((Ordered.perm_sortBy _ _).map Prod.fst).nodup_iff.mpr (Ordered.nodup_firsts _ _)

end Placed

/-! ## The plan -/

def pathKey (H : Host) (path : List Text) : List Text := path.map (nameKey H)

/-- Each newcomer, in the order of the inputs, has a candidate name that neither a reserved name
nor an earlier newcomer's holds. -/
def RoomForNames (input : PlanInput H) : Prop :=
  ∀ drafts, draftsOf input = .ok drafts →
    RoomForEach input (input.names.map fun reserved => nameKey H reserved.2.text)
      (newcomers input drafts)

/-- No input is laid out in two folders that differ only by `nameKey`. -/
def FoldersApart (input : PlanInput H) : Prop :=
  ∀ drafts, draftsOf input = .ok drafts → ∀ left ∈ drafts, ∀ right ∈ drafts,
    left.input = right.input → pathKey H left.folder = pathKey H right.folder →
      left.folder = right.folder

structure PlacesEveryInput (input : PlanInput H) (p : Plan H) : Prop where
  names_distinct : (p.names.map fun name => nameKey H name.basename).Nodup
  names_unreserved : ∀ name ∈ p.names, ∀ reserved ∈ input.names,
    nameKey H reserved.2.text ≠ nameKey H name.basename
  names_fit : ∀ name ∈ p.names,
    IsPlainName H name.basename ∧ componentLen H name.basename ≤ componentLimit
  paths_distinct : (p.entries.map fun entry => pathKey H entry.path).Nodup
  /-- An included capture with a chosen copy has an entry of that copy. -/
  lights_placed : ∀ group ∈ input.basis.groups, ∀ session ∈ group.sessions,
    ∀ capture ∈ session.captures, capture.included = true → ∀ copy ∈ capture.copies,
      input.chosen capture.captureKey = some copy.assetId →
        ∃ entry ∈ p.entries, entry.source = .light capture.captureKey copy.assetId ∧
          entry.sourceId = copy.assetId
  /-- A pinned file of a lit session has an entry. -/
  pins_placed : ∀ lit ∈ input.lit, ∀ kind target,
    (lit.session.calibration.kind kind).target = some target → ∀ file ∈ target.files,
      ∃ entry ∈ p.entries, Places target file entry.source ∧
        entry.sourceId = entry.source.sourceId
  /-- Every draft has an entry of its input in its own folder. -/
  drafts_placed : ∀ drafts, draftsOf input = .ok drafts → ∀ draft ∈ drafts,
    ∃ entry ∈ p.entries, entry.path.dropLast = draft.folder ∧
      entry.source.input = draft.input ∧ entry.sourceId = draft.sourceId

section Plan

variable {input : PlanInput H} {p : Plan H} {drafts : List (Draft H)}

theorem draft_placed (hplan : plan input = .ok p) (hapart : NamesApart input p.names)
    (hdrafts : draftsOf input = .ok drafts) {draft : Draft H} (hdraft : draft ∈ drafts) :
    ∃ entry ∈ p.entries, entry.path.dropLast = draft.folder ∧
      entry.source.input = draft.input ∧ entry.sourceId = entry.source.sourceId ∧
      ∀ captureKey assetId, draft.source = .light captureKey assetId →
        entry.source = .light captureKey assetId := by
  obtain ⟨found, hfound, hnames, hentries⟩ := plan_eq_ok hplan
  obtain rfl : found = drafts := Except.ok.inj (hfound.symm.trans hdrafts)
  obtain ⟨name, hname⟩ := exists_nameOf hnames hdraft
  obtain ⟨entry, hentry, hpath⟩ := exists_entry hentries hdraft hname
  obtain ⟨first, hfirst, firstName, hfirstName, hfirstPath, hsource, hsourceId⟩ :=
    entry_draft hentries hentry
  -- the first draft at this path has the same folder and the same name, so the same input
  obtain ⟨hfolder, hsame⟩ := List.append_inj' (hfirstPath.symm.trans hpath) rfl
  have hinput : first.input = draft.input :=
    hapart _ _ _ _ hfirstName hname (congrArg (nameKey H) (List.cons.inj hsame).1)
  have hwell := draftsOf_wellDrafted hdrafts first hfirst
  have hwell' := draftsOf_wellDrafted hdrafts draft hdraft
  refine ⟨entry, hentry, by rw [hpath, List.dropLast_concat], ?_, ?_,
    fun captureKey assetId hlight => ?_⟩
  · rw [hsource, ← hwell.input_eq, hinput]
  · rw [hsource, hsourceId, hwell.sourceId_eq]
  · have hcapture : draft.input = .capture captureKey := by rw [hwell'.input_eq, hlight]; rfl
    obtain ⟨assetId', hlight'⟩ := hwell.light_of_capture captureKey (hinput.trans hcapture)
    have hchosen := hwell'.light_chosen _ _ hlight
    have hchosen' := hwell.light_chosen _ _ hlight'
    rw [hsource, hlight', Option.some.inj (hchosen'.symm.trans hchosen)]

theorem sourceId_eq_of_input {left right : EntrySource} (h : left.input = right.input)
    (hlight : ∀ captureKey assetId, right = .light captureKey assetId →
      left = .light captureKey assetId) : left.sourceId = right.sourceId := by
  cases right with
  | light captureKey assetId => rw [hlight captureKey assetId rfl]
  | calibrationFrame kind sessionId assetId =>
    cases left <;> simp_all [EntrySource.input, EntrySource.sourceId]
  | master kind masterId revision =>
    cases left <;> simp_all [EntrySource.input, EntrySource.sourceId]

theorem mem_lit {lit : Lit H} : lit ∈ input.lit ↔
    lit.group ∈ input.basis.groups ∧ lit.session ∈ lit.group.sessions ∧
      (∃ capture ∈ lit.session.captures, capture.included = true) ∧
      lit.settings = Settings.of (input.metadata lit.session.sessionId) := by
  unfold PlanInput.lit
  simp only [List.mem_flatMap, List.mem_map, List.mem_filter, List.any_eq_true]
  constructor
  · rintro ⟨group, hgroup, session, ⟨hsession, hany⟩, rfl⟩
    exact ⟨hgroup, hsession, hany, rfl⟩
  · rintro ⟨hgroup, hsession, hany, hsettings⟩
    exact ⟨lit.group, hgroup, lit.session, ⟨hsession, hany⟩, by rw [← hsettings]⟩

theorem exists_light_draft (hdrafts : draftsOf input = .ok drafts) {group : BasisGroup H}
    (hgroup : group ∈ input.basis.groups) {session : BasisSession H}
    (hsession : session ∈ group.sessions) {capture : BasisCapture}
    (hcapture : capture ∈ session.captures) (hincluded : capture.included = true)
    {copy : CopyBasis} (hcopy : copy ∈ capture.copies)
    (hchosen : input.chosen capture.captureKey = some copy.assetId) :
    ∃ draft ∈ drafts, draft.source = .light capture.captureKey copy.assetId := by
  obtain ⟨names, _, rfl⟩ := draftsOf_eq_ok hdrafts
  let lit : Lit H := ⟨group, session, Settings.of (input.metadata session.sessionId)⟩
  have hlit : lit ∈ input.lit := mem_lit.mpr ⟨hgroup, hsession, ⟨capture, hcapture, hincluded⟩, rfl⟩
  obtain ⟨found, hfound⟩ : ∃ found, (capture.copies.find? fun other =>
      other.assetId = copy.assetId) = some found :=
    Option.isSome_iff_exists.mp (List.find?_isSome.mpr ⟨copy, hcopy, by simp⟩)
  obtain ⟨draft, hdraft⟩ : ∃ draft, placeLight input.chosen (lightsPlace names input.lit lit)
      capture = some draft := by
    unfold placeLight
    simp [hchosen, hfound]
  refine ⟨draft, List.mem_flatMap.mpr ⟨lit, hlit, mem_sessionDrafts.mpr
    (.inl ⟨capture, hcapture, hincluded, hdraft⟩)⟩, ?_⟩
  obtain ⟨assetId, hasset, _, hsource, _⟩ := placeLight_eq_some hdraft
  rw [hsource, Option.some.inj (hasset.symm.trans hchosen)]

theorem exists_pin_draft (hdrafts : draftsOf input = .ok drafts) {lit : Lit H}
    (hlit : lit ∈ input.lit) {kind : InputKind} {target : PinTarget H}
    (hpin : (lit.session.calibration.kind kind).target = some target) {file : PinnedFile}
    (hfile : file ∈ target.files) : ∃ draft ∈ drafts, Places target file draft.source := by
  obtain ⟨names, _, rfl⟩ := draftsOf_eq_ok hdrafts
  have hplaced : ∀ draft ∈ sessionDrafts input names lit,
      draft ∈ input.lit.flatMap (sessionDrafts input names) :=
    fun draft hdraft => List.mem_flatMap.mpr ⟨lit, hlit, hdraft⟩
  cases kind with
  | bias =>
    obtain ⟨draft, hdraft, hplaces⟩ := exists_mem_placePin hpin hfile
    exact ⟨draft, hplaced draft (mem_sessionDrafts.mpr (.inr (.inr (.inr hdraft)))), hplaces⟩
  | dark =>
    obtain ⟨draft, hdraft, hplaces⟩ := exists_mem_placePin hpin hfile
    exact ⟨draft, hplaced draft (mem_sessionDrafts.mpr (.inr (.inr (.inl hdraft)))), hplaces⟩
  | flat =>
    obtain ⟨draft, hdraft, hplaces⟩ := exists_mem_placePin hpin hfile
    exact ⟨draft, hplaced draft (mem_sessionDrafts.mpr (.inr (.inl hdraft))), hplaces⟩

theorem Places.congr {target : PinTarget H} {file : PinnedFile} {left right : EntrySource}
    (h : Places target file left) (hinput : right.input = left.input)
    (hsourceId : right.sourceId = left.sourceId) : Places target file right := by
  unfold Places at *
  cases hkind : target.input with
  | master masterId revision =>
    rw [hkind] at h
    exact ⟨hinput.trans h.1, hsourceId.trans h.2⟩
  | rawSet sessionId revision =>
    rw [hkind] at h
    obtain ⟨assetId, hasset, hframe, hid⟩ := h
    exact ⟨assetId, hasset, hinput.trans hframe, hsourceId.trans hid⟩

theorem paths_distinct_of_foldersApart (hplan : plan input = .ok p)
    (hapart : NamesApart input p.names) (hfolders : FoldersApart input) :
    (p.entries.map fun entry => pathKey H entry.path).Nodup := by
  obtain ⟨drafts, hdrafts, _, hentries⟩ := plan_eq_ok hplan
  have hpaths := nodup_paths hentries
  refine (List.nodup_map_iff_inj_on (List.Nodup.of_map _ hpaths)).mpr
    fun left hleft right hright hkey => ?_
  obtain ⟨draft, hdraft, name, hname, hpath, _⟩ := entry_draft hentries hleft
  obtain ⟨draft', hdraft', name', hname', hpath', _⟩ := entry_draft hentries hright
  simp only [pathKey, hpath, hpath', List.map_append, List.map_cons, List.map_nil] at hkey
  obtain ⟨hfolder, hlast⟩ := List.append_inj' hkey rfl
  have hinput : draft.input = draft'.input :=
    hapart _ _ _ _ hname hname' (List.cons.inj hlast).1
  have hfolder' : draft.folder = draft'.folder :=
    hfolders drafts hdrafts draft hdraft draft' hdraft' hinput hfolder
  have hname'' : name = name' := Option.some.inj (by rw [← hname, ← hname', hinput])
  have hsame : left.path = right.path := by rw [hpath, hpath', hfolder', hname'']
  exact List.inj_on_of_nodup_map hpaths hleft hright hsame

theorem foldersApart_of_paths_distinct (hplan : plan input = .ok p)
    (hpaths : (p.entries.map fun entry => pathKey H entry.path).Nodup) : FoldersApart input := by
  intro drafts hdrafts left hleft right hright hinput hfolder
  obtain ⟨found, hfound, hnames, hentries⟩ := plan_eq_ok hplan
  obtain rfl : found = drafts := Except.ok.inj (hfound.symm.trans hdrafts)
  obtain ⟨name, hname⟩ := exists_nameOf hnames hleft
  obtain ⟨entry, hentry, hpath⟩ := exists_entry hentries hleft hname
  obtain ⟨entry', hentry', hpath'⟩ := exists_entry hentries hright (hinput ▸ hname)
  have hkey : pathKey H entry.path = pathKey H entry'.path := by
    rw [hpath, hpath']
    simp only [pathKey, List.map_append] at hfolder ⊢
    rw [hfolder]
  obtain rfl : entry = entry' := List.inj_on_of_nodup_map hpaths hentry hentry' hkey
  exact (List.append_inj' (hpath.symm.trans hpath') rfl).1

theorem names_fit_of_plan (hplan : plan input = .ok p) : ∀ name ∈ p.names,
    IsPlainName H name.basename ∧ componentLen H name.basename ≤ componentLimit := by
  obtain ⟨drafts, _, hnames, _⟩ := plan_eq_ok hplan
  exact fun name hname => ⟨name.plain, nameNewcomers_fit hnames name hname⟩

end Plan

/-- A plan places every input under distinct names exactly when there is room for the newcomers'
names and no input is laid out in two folders that differ only by key. -/
theorem plan_places_every_input_iff {input : PlanInput H} {p : Plan H}
    (hreserved : (input.names.map fun reserved => nameKey H reserved.2.text).Nodup)
    (hplan : plan input = .ok p) :
    PlacesEveryInput input p ↔ RoomForNames input ∧ FoldersApart input := by
  obtain ⟨drafts, hdrafts, hnames, _⟩ := plan_eq_ok hplan
  have hroom := nameNewcomers_distinct_iff hnames
  constructor
  · intro h
    refine ⟨fun found hfound => ?_, foldersApart_of_paths_distinct hplan h.paths_distinct⟩
    obtain rfl : found = drafts := Except.ok.inj (hfound.symm.trans hdrafts)
    refine hroom.mp ⟨h.names_distinct, fun name hname hmem => ?_⟩
    obtain ⟨reserved, hmem, hkey⟩ := List.mem_map.mp hmem
    exact h.names_unreserved name hname reserved hmem hkey
  · intro ⟨hspace, hfolders⟩
    obtain ⟨hdistinct, hunreserved⟩ := hroom.mpr (hspace drafts hdrafts)
    have hapart := namesApart_of_distinct hreserved hdistinct hunreserved
    refine ⟨hdistinct, fun name hname reserved hmem hkey =>
      hunreserved name hname (List.mem_map.mpr ⟨reserved, hmem, hkey⟩), names_fit_of_plan hplan,
      paths_distinct_of_foldersApart hplan hapart hfolders, ?lights, ?pins, ?drafts⟩
    case lights =>
      intro group hgroup session hsession capture hcapture hincluded copy hcopy hchosen
      obtain ⟨draft, hdraft, hsource⟩ :=
        exists_light_draft hdrafts hgroup hsession hcapture hincluded hcopy hchosen
      obtain ⟨entry, hentry, _, _, hsourceId, hlight⟩ := draft_placed hplan hapart hdrafts hdraft
      have hentrySource := hlight _ _ hsource
      exact ⟨entry, hentry, hentrySource, by rw [hsourceId, hentrySource]; rfl⟩
    case pins =>
      intro lit hlit kind target hpin file hfile
      obtain ⟨draft, hdraft, hplaces⟩ := exists_pin_draft hdrafts hlit hpin hfile
      obtain ⟨entry, hentry, _, hinput, hsourceId, hlight⟩ :=
        draft_placed hplan hapart hdrafts hdraft
      have hsame : entry.source.input = draft.source.input :=
        hinput.trans (draftsOf_wellDrafted hdrafts draft hdraft).input_eq
      exact ⟨entry, hentry, hplaces.congr hsame (sourceId_eq_of_input hsame hlight), hsourceId⟩
    case drafts =>
      intro found hfound draft hdraft
      obtain rfl : found = drafts := Except.ok.inj (hfound.symm.trans hdrafts)
      have hwell := draftsOf_wellDrafted hdrafts draft hdraft
      obtain ⟨entry, hentry, hfolder, hinput, hsourceId, hlight⟩ :=
        draft_placed hplan hapart hdrafts hdraft
      refine ⟨entry, hentry, hfolder, hinput, ?_⟩
      rw [hsourceId, hwell.sourceId_eq]
      exact sourceId_eq_of_input (hinput.trans hwell.input_eq) hlight

/-! ## Three filters of one night -/

/-- Whole numbers for `f64`, a calendar of `YYYYMMDD` numbers, ASCII case, and the SHA-256 of the one
text hashed below. -/
def wholeHost : Host where
  toPlatform := wholePlatform
  nfkd := id
  lower := List.map Char.toLower
  upper := List.map Char.toUpper
  sha256 text :=
    if text = "Ha_".toList then
      "e78b85f43a4002e64124d9a5a98cef4abe50e26cace72b436e2768ca6b29002d".toList
    else "".toList
  lossy := id
  windows := false
  dateOrder := (inferInstance : LinearOrder Nat)
  year date := (Nat.div date 10000 : Nat)
  month date := Nat.mod (Nat.div date 100) 100
  day date := Nat.mod date 100

def frameVolume : VolumeIdentity where
  filesystem := "apfs"
  stableId := some "vol"
  fileIdsStable := true
  case := .insensitive
  normalization := .insensitive

def frameFingerprint (id : Uuid) : ObservationFingerprint where
  identity := { volume := frameVolume, fileId := some (String.ofList (decimal id.val)) }
  sizeBytes := 2880
  modifiedNs := 1
  contentSha256 := none

def filteredLight (filter : Text) : CaptureMetadata wholeHost.toPlatform where
  raw := fun _ => none
  imageType := some "light".toList
  filter := some filter
  camera := some "ASI2600MM".toList
  cameraId := none
  telescope := none
  exposureSeconds := some (300 : Int)
  gain := some (100 : Int)
  offset := some 50
  binningX := some 1
  binningY := some 1
  width := none
  height := none
  readoutMode := none
  setTemperatureC := none
  dateObs := none
  dateLocal := none
  siteLongitudeDeg := none
  raDeg := none
  decDeg := none
  wcsRaDeg := none
  wcsDecDeg := none
  skyRotationDeg := none
  mechanicalRotationDeg := none
  focalLengthMm := none
  pixelSizeUm := none
  framingLabel := none

def sharedFlats : PinTarget wholeHost where
  input := .rawSet 40 1
  captured := some (20260115 : Nat)
  files := [{
    assetId := some 50, sha256 := List.replicate 64 'a', fingerprint := frameFingerprint 50 }]
  valid := by decide

/-- One light with its flats, on the night of 15 January 2026. -/
def oneLight (id : Uuid) (flat : SettledPin wholeHost) : BasisSession wholeHost where
  sessionId := id
  night := some (20260115 : Nat)
  captures := [{
    captureKey := id, included := true
    copies := [{ assetId := id, fingerprint := frameFingerprint id }] }]
  calibration := { dark := .declined, flat, bias := .declined }

def oneGroup (sessions : List (BasisSession wholeHost)) (filters : Uuid → Option Text) :
    PlanInput wholeHost where
  basis := {
    mode := .symlinks
    keywords := { group := "GROUP".toList, panel := "PANEL".toList }
    groups := [{ id := 1000, name := "NGC 7000".toList, panel := false, sessions }] }
  metadata id := (filters id).map filteredLight
  sources id := some { path := .host {
    absolute := true
    parts := [.normal ("frame-".toList ++ decimal id.val ++ ".fits".toList)] } }
  names := []
  chosen := some

def threeFilters : PlanInput wholeHost :=
  oneGroup [oneLight 1 (.pinned sharedFlats), oneLight 2 .declined, oneLight 3 (.pinned sharedFlats)]
    fun id => [((1 : Uuid), "ha-e78b85f4".toList), (2, "Ha:".toList), (3, "Ha_".toList)].lookup id

def oneFilter : PlanInput wholeHost := oneGroup [oneLight 1 (.pinned sharedFlats)] fun id =>
  [((1 : Uuid), "Ha".toList)].lookup id

theorem exists_plan (input : PlanInput H) (h : (plan input).isOk = true) :
    ∃ p, plan input = .ok p := by
  cases hplan : plan input with
  | error blocker => simp [hplan, Except.isOk, Except.toBool] at h
  | ok p => exact ⟨p, rfl⟩

theorem plan_places_every_input_one_filter : ∃ p, plan oneFilter = .ok p ∧
    (PlacesEveryInput oneFilter p ↔ RoomForNames oneFilter ∧ FoldersApart oneFilter) := by
  obtain ⟨p, hplan⟩ := exists_plan oneFilter (by decide)
  exact ⟨p, hplan, plan_places_every_input_iff (by decide) hplan⟩

/-- The suffixed token of `Ha_` differs only in case from the plain token of `ha-e78b85f4`, so the
flats both filters share are placed at two paths that differ only in case. -/
theorem three_filters_clash : ∃ p, plan threeFilters = .ok p ∧
    ¬ PlacesEveryInput threeFilters p := by
  obtain ⟨p, hplan⟩ := exists_plan threeFilters (by decide)
  have hclash : ∀ found, plan threeFilters = .ok found →
      ¬ (found.entries.map fun entry => pathKey wholeHost entry.path).Nodup := by
    have hpaths : ((plan threeFilters).toOption.map fun found =>
        decide (found.entries.map fun entry => pathKey wholeHost entry.path).Nodup) = some false := by
      decide
    intro found hfound
    rw [hfound] at hpaths
    simpa [Except.toOption] using hpaths
  exact ⟨p, hplan, fun h => hclash p hplan h.paths_distinct⟩

end PlateVault.View
