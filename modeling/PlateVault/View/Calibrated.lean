import PlateVault.View.Folders

/-!
# Lights beside their calibration

A folder of the plan tells what lies in it. The flats of a night folder are of one flat set, that of
the lights there; darks and bias of two versions for the same settings meet only in a night folder
whose lights use both.
-/

namespace PlateVault.View

variable {H : Host}

def kindFolder : InputKind → Text
  | .flat => "Flats".toList
  | .dark => "Darks".toList
  | .bias => "Bias".toList

def FromTarget (kind : InputKind) (target : PinTarget H) (source : EntrySource) : Prop :=
  match target.input with
  | .master masterId revision => source = .master kind masterId revision
  | .rawSet sessionId _ => ∃ file ∈ target.files, ∃ assetId, file.assetId = some assetId ∧
      source = .calibrationFrame kind sessionId assetId

theorem placePin_source {pin : SettledPin H} {kind : InputKind} {place : Place H} {draft : Draft H}
    (h : draft ∈ placePin pin kind place) :
    ∃ target, pin.target = some target ∧ FromTarget kind target draft.source := by
  unfold placePin at h
  cases htarget : pin.target with
  | none =>
    rw [htarget] at h
    cases h
  | some target =>
    rw [htarget] at h
    obtain ⟨file, hfile, hdraft⟩ := List.mem_filterMap.mp h
    refine ⟨target, rfl, ?_⟩
    unfold FromTarget
    cases hinput : target.input with
    | master masterId revision =>
      simp only [hinput, Option.some.injEq] at hdraft
      rw [← hdraft]
    | rawSet sessionId revision =>
      cases hasset : file.assetId with
      | none =>
        simp only [hinput, hasset] at hdraft
        cases hdraft
      | some assetId =>
        simp only [hinput, hasset, Option.some.injEq] at hdraft
        rw [← hdraft]
        exact ⟨file, hfile, assetId, hasset, rfl⟩

/-! ## What lies in a folder -/

/-- The folders of a night, and of a group or a Project with one camera. -/
def folderWords : List Text :=
  ["Lights".toList, kindFolder .flat, kindFolder .dark, kindFolder .bias]

def wordOf (folder : List Text) : Option Text := folder.find? fun name => folderWords.contains name

theorem wordOf_append {before rest : List Text} {word : Text}
    (hbefore : ∀ name ∈ before, name ∉ folderWords) (hword : word ∈ folderWords) :
    wordOf (before ++ word :: rest) = some word := by
  unfold wordOf
  rw [List.find?_append, List.find?_eq_none.mpr, Option.none_or, List.find?_cons_of_pos]
  · exact List.contains_iff_mem.mpr hword
  · intro name hname
    rw [List.contains_iff_mem]
    exact hbefore name hname

theorem nightFolder_notMem (night : Option H.Date) (index : Nat) :
    nightFolder night index ∉ folderWords := by
  have hhead : (nightFolder night index).head? = some 'N' := by
    rw [nightFolder_eq]
    cases night <;> rfl
  intro hmem
  have hwords : ∀ word ∈ folderWords, word.head? ≠ some 'N' := by decide
  exact hwords _ hmem hhead

section Places

variable {input : PlanInput H} {names : Names} {lit : Lit H}

theorem groupRoot_notMem (hnames : Names.new input = .ok names) (lits : List (Lit H)) :
    ∀ name ∈ (rooms names lits lit).groupRoot, name ∉ folderWords := by
  intro name hname hmem
  change name ∈ (names.groupFolder lit.group.id).toList at hname
  have hunderscore := underscore_mem_of_groupFolder hnames (Option.mem_toList.mp hname)
  have hwords : ∀ word ∈ folderWords, '_' ∉ word := by decide
  exact hwords name hmem hunderscore

theorem nightDir_notMem (hnames : Names.new input = .ok names) (lits : List (Lit H)) :
    ∀ name ∈ (rooms names lits lit).nightDir, name ∉ folderWords := by
  intro name hname
  cases List.mem_append.mp hname with
  | inl hroot => exact groupRoot_notMem hnames lits name hroot
  | inr hnight =>
    rw [List.mem_singleton.mp hnight]
    exact nightFolder_notMem _ _

theorem wordOf_lights (hnames : Names.new input = .ok names) (lits : List (Lit H)) :
    wordOf (lightsPlace names lits lit).folder = some "Lights".toList :=
  wordOf_append (nightDir_notMem hnames lits) List.mem_cons_self

theorem wordOf_flats (hnames : Names.new input = .ok names) (lits : List (Lit H)) :
    wordOf (flatsPlace names lits lit).folder = some (kindFolder .flat) :=
  wordOf_append (nightDir_notMem hnames lits) (by decide)

theorem wordOf_calibration (hnames : Names.new input = .ok names) (lits : List (Lit H))
    (kind placed : InputKind) :
    wordOf (calibrationPlace names lits kind (kindFolder placed) lit).folder =
      some (kindFolder placed) := by
  have hword : kindFolder placed ∈ folderWords := by
    cases placed <;> decide
  unfold calibrationPlace
  split
  · exact wordOf_append (nightDir_notMem hnames lits) hword
  · split
    · exact wordOf_append (groupRoot_notMem hnames lits) hword
    · exact wordOf_append (fun name hname => absurd hname (List.not_mem_nil (a := name))) hword

theorem draft_cases (hnames : Names.new input = .ok names) {draft : Draft H}
    (h : draft ∈ sessionDrafts input names lit) :
    (wordOf draft.folder = some "Lights".toList) ∨
      (wordOf draft.folder = some (kindFolder .flat) ∧
        draft ∈ placePin lit.session.calibration.flat .flat (flatsPlace names input.lit lit)) ∨
      ∃ kind, kind ≠ .flat ∧ wordOf draft.folder = some (kindFolder kind) ∧
        draft ∈ placePin (lit.session.calibration.kind kind) kind
          (calibrationPlace names input.lit kind (kindFolder kind) lit) := by
  rcases mem_sessionDrafts.mp h with ⟨capture, -, -, hlight⟩ | hflat | hdark | hbias
  · obtain ⟨_, -, hfolder, -⟩ := placeLight_eq_some hlight
    left
    rw [hfolder]
    exact wordOf_lights hnames input.lit
  · right
    left
    refine ⟨?_, hflat⟩
    rw [(mem_placePin hflat).1]
    exact wordOf_flats hnames input.lit
  · right
    right
    refine ⟨.dark, by decide, ?_, hdark⟩
    rw [(mem_placePin hdark).1]
    exact wordOf_calibration hnames input.lit .dark .dark
  · right
    right
    refine ⟨.bias, by decide, ?_, hbias⟩
    rw [(mem_placePin hbias).1]
    exact wordOf_calibration hnames input.lit .bias .bias

theorem kindFolder_injective {kind other : InputKind} (h : kindFolder kind = kindFolder other) :
    kind = other := by
  have hall : ∀ kind other : InputKind, kindFolder kind = kindFolder other → kind = other := by
    intro kind other
    cases kind <;> cases other <;> decide
  exact hall kind other h

theorem nightDir_split {a b : Lit H} (hnames : Names.new input = .ok names) (ha : a ∈ input.lit)
    (hb : b ∈ input.lit) {rest rest' : List Text}
    (h : (rooms names input.lit a).nightDir ++ rest = (rooms names input.lit b).nightDir ++ rest') :
    (rooms names input.lit a).nightDir = (rooms names input.lit b).nightDir ∧ rest = rest' := by
  apply List.append_inj h
  change ((names.groupFolder a.group.id).toList ++ [_]).length =
    ((names.groupFolder b.group.id).toList ++ [_]).length
  rw [List.length_append, List.length_append, length_groupRoot hnames (mem_lit.mp ha).1,
    length_groupRoot hnames (mem_lit.mp hb).1]
  rfl

theorem of_nightDir {a b : Lit H} (hcalendar : H.Calendar) (hnames : Names.new input = .ok names)
    (ha : a ∈ input.lit) (hb : b ∈ input.lit)
    (h : (rooms names input.lit a).nightDir = (rooms names input.lit b).nightDir) :
    a.group.id = b.group.id ∧ a.session.night = b.session.night ∧
      flatNight names input.lit a = flatNight names input.lit b := by
  obtain ⟨hroot, hnight⟩ := List.append_inj' h rfl
  have hgroup := group_of_groupRoot hnames (mem_lit.mp ha).1 (mem_lit.mp hb).1 hroot
  obtain ⟨hdate, hindex⟩ := nightFolder_injective hcalendar (List.cons.inj hnight).1
  exact ⟨hgroup, hdate, hindex⟩

end Places

/-! ## Darks and bias -/

/-- What lights must share to share a version of `kind`. -/
def settingsKey (kind : InputKind) (lit : Lit H) : Text :=
  if kind = .dark then lit.settings.darkKey H else lit.settings.biasKey H

/-- An entry of a dark or bias folder, with a session it is there for and that session's version. -/
structure PlacedFor (input : PlanInput H) (names : Names) (kind : InputKind) (lit : Lit H)
    (target : PinTarget H) (entry : PlanEntry H) : Prop where
  isLit : lit ∈ input.lit
  pinned : (lit.session.calibration.kind kind).target = some target
  folder : entry.path.dropLast =
    (calibrationPlace names input.lit kind (kindFolder kind) lit).folder
  source : FromTarget kind target entry.source

section Calibration

variable {input : PlanInput H} {names : Names} {p : Plan H} {kind : InputKind} {a b : Lit H}

theorem exists_draft_of_entry (hplan : plan input = .ok p) (hnames : Names.new input = .ok names)
    {entry : PlanEntry H} (hentry : entry ∈ p.entries) :
    ∃ lit ∈ input.lit, ∃ draft ∈ sessionDrafts input names lit,
      entry.path.dropLast = draft.folder ∧ entry.source = draft.source := by
  obtain ⟨drafts, hdrafts, -, hentries⟩ := plan_eq_ok hplan
  obtain ⟨draft, hdraft, name, -, hpath, hsource, -⟩ := entry_draft hentries hentry
  obtain ⟨found, hfound, rfl⟩ := draftsOf_eq_ok hdrafts
  cases hfound.symm.trans hnames
  obtain ⟨lit, hlit, hdraft⟩ := List.mem_flatMap.mp hdraft
  refine ⟨lit, hlit, draft, hdraft, ?_, hsource⟩
  rw [hpath, List.dropLast_concat]

theorem exists_placedFor (hplan : plan input = .ok p) (hnames : Names.new input = .ok names)
    (hkind : kind ≠ .flat) {lit : Lit H} {entry : PlanEntry H} (hentry : entry ∈ p.entries)
    (hfolder : entry.path.dropLast =
      (calibrationPlace names input.lit kind (kindFolder kind) lit).folder) :
    ∃ user target, PlacedFor input names kind user target entry := by
  obtain ⟨user, huser, draft, hdraft, hpath, hsource⟩ := exists_draft_of_entry hplan hnames hentry
  have hword : wordOf draft.folder = some (kindFolder kind) := by
    rw [← hpath, hfolder]
    exact wordOf_calibration hnames input.lit kind kind
  rcases draft_cases hnames hdraft with hlights | ⟨hflats, -⟩ | ⟨other, -, hother, hpin⟩
  · rw [hlights] at hword
    have hne : ∀ kind : InputKind, "Lights".toList ≠ kindFolder kind := by
      intro kind
      cases kind <;> decide
    exact absurd (Option.some.inj hword) (hne kind)
  · rw [hflats] at hword
    exact absurd (kindFolder_injective (Option.some.inj hword)).symm hkind
  · rw [hother] at hword
    cases kindFolder_injective (Option.some.inj hword)
    obtain ⟨target, htarget, hfrom⟩ := placePin_source hpin
    refine ⟨user, target, huser, htarget, ?_, ?_⟩
    · rw [hpath, (mem_placePin hpin).1]
    · rw [hsource]
      exact hfrom

theorem one_lt_length_dedup {α : Type*} [DecidableEq α] {l : List α} {x y : α} (hx : x ∈ l)
    (hy : y ∈ l) (hne : x ≠ y) : 1 < l.dedup.length := by
  rw [← List.mem_dedup] at hx hy
  match hdedup : l.dedup with
  | [] =>
    rw [hdedup] at hx
    cases hx
  | [z] =>
    rw [hdedup, List.mem_singleton] at hx hy
    exact absurd (hx.trans hy.symm) hne
  | _ :: _ :: _ =>
    rw [List.length_cons, List.length_cons]
    omega

theorem perNight_of_versions {ta tb : PinTarget H} (ha : a ∈ input.lit) (hb : b ∈ input.lit)
    (hta : (a.session.calibration.kind kind).target = some ta)
    (htb : (b.session.calibration.kind kind).target = some tb)
    (hscope : calibrationScope names kind a = calibrationScope names kind b)
    (hne : targetKey ta ≠ targetKey tb) : perNightCalibration names input.lit kind a = true := by
  unfold perNightCalibration
  rw [hta, Option.isSome_some, Bool.true_and, decide_eq_true_eq]
  apply one_lt_length_dedup (x := targetKey ta) (y := targetKey tb) _ _ hne
  · apply List.mem_filterMap.mpr
    refine ⟨a, List.mem_filter.mpr ⟨ha, by simp⟩, ?_⟩
    rw [hta]
    rfl
  · apply List.mem_filterMap.mpr
    refine ⟨b, List.mem_filter.mpr ⟨hb, by simp [hscope]⟩, ?_⟩
    rw [htb]
    rfl

theorem calibrationPlace_perNight {folder : Text}
    (h : perNightCalibration names input.lit kind a = true) :
    (calibrationPlace names input.lit kind folder a).folder = (rooms names input.lit a).nightDir ++
      folder :: (names.calibrationFolder a.settings).toList := by
  unfold calibrationPlace
  rw [if_pos h]

theorem calibrationPlace_inGroup {folder : Text} (h : names.calibrationInGroups = true) :
    ∃ rest, (calibrationPlace names input.lit kind folder a).folder =
      (rooms names input.lit a).groupRoot ++ rest := by
  unfold calibrationPlace
  by_cases hnight : perNightCalibration names input.lit kind a = true
  · rw [if_pos hnight]
    exact ⟨_, List.append_assoc _ _ _⟩
  · rw [if_neg hnight, if_pos h]
    exact ⟨_, rfl⟩

theorem nightDir_of_versions (hnames : Names.new input = .ok names) {ta tb : PinTarget H}
    (ha : a ∈ input.lit) (hb : b ∈ input.lit)
    (hta : (a.session.calibration.kind kind).target = some ta)
    (htb : (b.session.calibration.kind kind).target = some tb)
    (hkey : settingsKey kind a = settingsKey kind b) (hne : targetKey ta ≠ targetKey tb)
    (hfolder : (calibrationPlace names input.lit kind (kindFolder kind) a).folder =
      (calibrationPlace names input.lit kind (kindFolder kind) b).folder) :
    perNightCalibration names input.lit kind a = true ∧
      perNightCalibration names input.lit kind b = true ∧
      (rooms names input.lit a).nightDir = (rooms names input.lit b).nightDir := by
  have hscope : calibrationScope names kind a = calibrationScope names kind b := by
    have hplace : (if names.calibrationInGroups then some a.group.id else none) =
        (if names.calibrationInGroups then some b.group.id else none) := by
      by_cases hgroups : names.calibrationInGroups = true
      · obtain ⟨rest, hrest⟩ : ∃ rest, (calibrationPlace names input.lit kind (kindFolder kind) a).folder =
            (rooms names input.lit a).groupRoot ++ rest := calibrationPlace_inGroup hgroups
        obtain ⟨rest', hrest'⟩ : ∃ rest, (calibrationPlace names input.lit kind (kindFolder kind) b).folder =
            (rooms names input.lit b).groupRoot ++ rest := calibrationPlace_inGroup hgroups
        rw [hrest, hrest'] at hfolder
        have hroot : (names.groupFolder a.group.id).toList = (names.groupFolder b.group.id).toList := by
          apply (List.append_inj hfolder _).1
          change (names.groupFolder a.group.id).toList.length =
            (names.groupFolder b.group.id).toList.length
          rw [length_groupRoot hnames (mem_lit.mp ha).1, length_groupRoot hnames (mem_lit.mp hb).1]
        rw [group_of_groupRoot hnames (mem_lit.mp ha).1 (mem_lit.mp hb).1 hroot]
      · rw [if_neg hgroups, if_neg hgroups]
    exact Prod.ext hplace hkey
  have hnightA := perNight_of_versions ha hb hta htb hscope hne
  have hnightB := perNight_of_versions hb ha htb hta hscope.symm (Ne.symm hne)
  rw [calibrationPlace_perNight hnightA, calibrationPlace_perNight hnightB] at hfolder
  exact ⟨hnightA, hnightB, (nightDir_split hnames ha hb hfolder).1⟩

/-- Every entry of a dark or bias folder is there for a lit session and of its version; two versions
there for sessions with the same settings are with the lights of both, in one night folder. -/
theorem calibration_apart (hplan : plan input = .ok p) (hnames : Names.new input = .ok names)
    (hkind : kind ≠ .flat) :
    (∀ lit ∈ input.lit, ∀ entry ∈ p.entries, entry.path.dropLast =
        (calibrationPlace names input.lit kind (kindFolder kind) lit).folder →
          ∃ user target, PlacedFor input names kind user target entry) ∧
      ∀ a ta e b tb e', PlacedFor input names kind a ta e → PlacedFor input names kind b tb e' →
        e.path.dropLast = e'.path.dropLast → settingsKey kind a = settingsKey kind b →
          targetKey ta ≠ targetKey tb →
            perNightCalibration names input.lit kind a = true ∧
              perNightCalibration names input.lit kind b = true ∧
              (rooms names input.lit a).nightDir = (rooms names input.lit b).nightDir := by
  constructor
  · intro lit _ entry hentry hfolder
    exact exists_placedFor hplan hnames hkind hentry hfolder
  · intro a ta e b tb e' ha hb hsame hkey hne
    apply nightDir_of_versions hnames ha.isLit hb.isLit ha.pinned hb.pinned hkey hne
    rw [← ha.folder, ← hb.folder, hsame]

end Calibration

/-! ## Flats -/

section Flats

variable {input : PlanInput H} {names : Names} {p : Plan H} {a b : Lit H}

def flatSets (names : Names) (lits : List (Lit H)) (lit : Lit H) :
    List (WithBot H.Date ×ₗ TargetKey) :=
  Ordered.ascending ((lits.filter fun other =>
    flatBucket names other = flatBucket names lit).filterMap fun other =>
      other.session.calibration.flat.target.map flatKey)

theorem flatNight_of_target {lits : List (Lit H)} {target : PinTarget H}
    (h : a.session.calibration.flat.target = some target) :
    flatNight names lits a = ((flatSets names lits a).idxOf? (flatKey target)).getD 0 := by
  unfold flatNight
  rw [h]
  rfl

theorem flatNight_of_none {lits : List (Lit H)} (h : a.session.calibration.flat.target = none) :
    flatNight names lits a = 0 := by
  unfold flatNight
  rw [h]

theorem mem_flatSets {lits : List (Lit H)} (ha : a ∈ lits) {target : PinTarget H}
    (h : a.session.calibration.flat.target = some target) :
    flatKey target ∈ flatSets names lits a := by
  unfold flatSets
  rw [Ordered.mem_ascending]
  apply List.mem_filterMap.mpr
  refine ⟨a, List.mem_filter.mpr ⟨ha, by simp⟩, ?_⟩
  rw [h]
  rfl

theorem flatNight_eq_iff {lits : List (Lit H)} (ha : a ∈ lits) (hb : b ∈ lits)
    (hbucket : flatBucket names a = flatBucket names b) {ta tb : PinTarget H}
    (hta : a.session.calibration.flat.target = some ta)
    (htb : b.session.calibration.flat.target = some tb) :
    flatNight names lits a = flatNight names lits b ↔ flatKey ta = flatKey tb := by
  have hsets : flatSets names lits a = flatSets names lits b := by
    unfold flatSets
    rw [hbucket]
  rw [flatNight_of_target hta, flatNight_of_target htb, hsets]
  have hmemA : flatKey ta ∈ flatSets names lits b := hsets ▸ mem_flatSets ha hta
  have hmemB : flatKey tb ∈ flatSets names lits b := mem_flatSets hb htb
  constructor
  · intro h
    obtain ⟨i, hi⟩ := Option.isSome_iff_exists.mp (List.isSome_idxOf?.mpr hmemA)
    obtain ⟨j, hj⟩ := Option.isSome_iff_exists.mp (List.isSome_idxOf?.mpr hmemB)
    rw [hi, hj] at h
    cases h
    obtain ⟨_, hat, _⟩ := List.idxOf?_eq_some_iff.mp hi
    obtain ⟨_, hat', _⟩ := List.idxOf?_eq_some_iff.mp hj
    rw [← hat, hat']
  · intro h
    rw [h]

theorem nightDir_eq_iff (hcalendar : H.Calendar) (hnames : Names.new input = .ok names)
    (ha : a ∈ input.lit) (hb : b ∈ input.lit) (hgroup : a.group.id = b.group.id)
    (hnight : a.session.night = b.session.night) :
    (rooms names input.lit a).nightDir = (rooms names input.lit b).nightDir ↔
      flatNight names input.lit a = flatNight names input.lit b := by
  constructor
  · intro h
    exact (of_nightDir hcalendar hnames ha hb h).2.2
  · intro h
    unfold rooms
    rw [hgroup, hnight, h]

/-- A session's entry of an input, in a folder below its night. -/
def Lies (input : PlanInput H) (p : Plan H) (dir : List Text) (entryInput : EntryInput) : Prop :=
  ∃ entry ∈ p.entries, dir <+: entry.path ∧ (nameOf input p.names entryInput = entry.path.getLast?) ∧
    (NamesApart input p.names → entry.source.input = entryInput)

theorem lies_of_draft (hplan : plan input = .ok p) (hnames : Names.new input = .ok names)
    (ha : a ∈ input.lit) {draft : Draft H} (hdraft : draft ∈ sessionDrafts input names a)
    {dir : List Text} (hdir : dir <+: draft.folder) : Lies input p dir draft.input := by
  obtain ⟨drafts, hdrafts, hgiven, hentries⟩ := plan_eq_ok hplan
  obtain ⟨found, hfound, hall⟩ := draftsOf_eq_ok hdrafts
  cases hfound.symm.trans hnames
  have hmem : draft ∈ drafts := by
    rw [hall]
    exact List.mem_flatMap.mpr ⟨a, ha, hdraft⟩
  obtain ⟨name, hname⟩ := exists_nameOf hgiven hmem
  obtain ⟨entry, hentry, hpath⟩ := exists_entry hentries hmem hname
  refine ⟨entry, hentry, ?_, ?_, ?_⟩
  · rw [hpath]
    exact hdir.trans (List.prefix_append _ _)
  · rw [hpath, hname, List.getLast?_concat]
  · intro hapart
    obtain ⟨first, hfirst, firstName, hfirstName, hfirstPath, hsource, -⟩ :=
      entry_draft hentries hentry
    obtain ⟨-, hsame⟩ := List.append_inj' (hfirstPath.symm.trans hpath) rfl
    rw [hsource, ← (draftsOf_wellDrafted hdrafts first hfirst).input_eq]
    exact hapart _ _ _ _ hfirstName hname (congrArg (nameKey H) (List.cons.inj hsame).1)

structure FlatsWithLights (input : PlanInput H) (names : Names) (p : Plan H) : Prop where
  /-- What lies directly in a flat folder is of one flat set, which a lit session uses. -/
  one_target : ∀ lit ∈ input.lit, ∃ key, ∀ entry ∈ p.entries,
    entry.path.dropLast = (flatsPlace names input.lit lit).folder → ∃ user ∈ input.lit, ∃ target,
      user.session.calibration.flat.target = some target ∧ flatKey target = key ∧
        FromTarget .flat target entry.source
  /-- A session's included lights lie in its night folder. -/
  lights : ∀ lit ∈ input.lit, ∀ capture ∈ lit.session.captures, capture.included = true →
    ∀ copy ∈ capture.copies, input.chosen capture.captureKey = some copy.assetId →
      Lies input p (rooms names input.lit lit).nightDir (.capture capture.captureKey)
  /-- So do the files of its flat set. -/
  flats : ∀ lit ∈ input.lit, ∀ target, lit.session.calibration.flat.target = some target →
    ∀ file ∈ target.files, ∃ source, FromTarget .flat target source ∧
      Lies input p (rooms names input.lit lit).nightDir source.input
  /-- Pinned sessions of one group, night and flat folder share a night folder exactly when they
  use one flat set. -/
  shared : ∀ a ∈ input.lit, ∀ b ∈ input.lit, flatBucket names a = flatBucket names b →
    ∀ ta tb, a.session.calibration.flat.target = some ta →
      b.session.calibration.flat.target = some tb →
        ((rooms names input.lit a).nightDir = (rooms names input.lit b).nightDir ↔
          flatKey ta = flatKey tb)
  /-- Without flats a session is in the first night folder. -/
  unpinned : ∀ lit ∈ input.lit, lit.session.calibration.flat.target = none →
    (rooms names input.lit lit).nightDir =
      (rooms names input.lit lit).groupRoot ++ [nightFolder lit.session.night 0]

theorem flatKey_of_folder (hcalendar : H.Calendar) (hnames : Names.new input = .ok names)
    (ha : a ∈ input.lit) (hb : b ∈ input.lit)
    (h : (flatsPlace names input.lit a).folder = (flatsPlace names input.lit b).folder)
    {ta tb : PinTarget H} (hta : a.session.calibration.flat.target = some ta)
    (htb : b.session.calibration.flat.target = some tb) : flatKey ta = flatKey tb := by
  obtain ⟨hdir, hrest⟩ := nightDir_split hnames ha hb h
  obtain ⟨hgroup, hnight, hindex⟩ := of_nightDir hcalendar hnames ha hb hdir
  have hfolder : names.flatFolder a.settings = names.flatFolder b.settings := by
    have htail := (List.cons.inj hrest).2
    cases hfa : names.flatFolder a.settings with
    | none =>
      rw [hfa] at htail
      cases hfb : names.flatFolder b.settings with
      | none => rfl
      | some other =>
        rw [hfb] at htail
        cases htail
    | some folder =>
      rw [hfa] at htail
      cases hfb : names.flatFolder b.settings with
      | none =>
        rw [hfb] at htail
        cases htail
      | some other =>
        rw [hfb] at htail
        rw [(List.cons.inj htail).1]
  have hbucket : flatBucket names a = flatBucket names b := by
    unfold flatBucket
    rw [hgroup, hnight, hfolder]
  exact (flatNight_eq_iff ha hb hbucket hta htb).mp hindex

theorem exists_flat_user (hplan : plan input = .ok p) (hnames : Names.new input = .ok names)
    {entry : PlanEntry H} (hentry : entry ∈ p.entries)
    (hfolder : entry.path.dropLast = (flatsPlace names input.lit a).folder) :
    ∃ user ∈ input.lit, ∃ target, user.session.calibration.flat.target = some target ∧
      entry.path.dropLast = (flatsPlace names input.lit user).folder ∧
      FromTarget .flat target entry.source := by
  obtain ⟨user, huser, draft, hdraft, hpath, hsource⟩ := exists_draft_of_entry hplan hnames hentry
  have hword : wordOf draft.folder = some (kindFolder .flat) := by
    rw [← hpath, hfolder]
    exact wordOf_flats hnames input.lit
  rcases draft_cases hnames hdraft with hlights | ⟨-, hpin⟩ | ⟨kind, hkind, hother, -⟩
  · rw [hlights] at hword
    have hne : "Lights".toList ≠ kindFolder .flat := by decide
    exact absurd (Option.some.inj hword) hne
  · obtain ⟨target, htarget, hfrom⟩ := placePin_source hpin
    refine ⟨user, huser, target, htarget, ?_, ?_⟩
    · rw [hpath, (mem_placePin hpin).1]
    · rw [hsource]
      exact hfrom
  · rw [hother] at hword
    exact absurd (kindFolder_injective (Option.some.inj hword)) hkind

theorem exists_flat_draft {target : PinTarget H}
    (htarget : a.session.calibration.flat.target = some target) {file : PinnedFile}
    (hfile : file ∈ target.files) :
    ∃ draft ∈ sessionDrafts input names a, draft.folder = (flatsPlace names input.lit a).folder ∧
      draft.input = draft.source.input ∧ FromTarget .flat target draft.source := by
  obtain ⟨draft, hdraft, -⟩ : ∃ draft ∈ placePin a.session.calibration.flat .flat
      (flatsPlace names input.lit a), Places target file draft.source :=
    exists_mem_placePin htarget hfile
  obtain ⟨hfolder, hinput, -, -⟩ := mem_placePin hdraft
  obtain ⟨found, hfound, hfrom⟩ := placePin_source hdraft
  cases htarget.symm.trans hfound
  exact ⟨draft, mem_sessionDrafts.mpr (.inr (.inl hdraft)), hfolder, hinput, hfrom⟩

theorem flats_with_lights (hcalendar : H.Calendar) (hplan : plan input = .ok p)
    (hnames : Names.new input = .ok names) : FlatsWithLights input names p where
  one_target lit hlit := by
    by_cases hused : ∃ user ∈ input.lit, ∃ target,
        user.session.calibration.flat.target = some target ∧
          (flatsPlace names input.lit user).folder = (flatsPlace names input.lit lit).folder
    · obtain ⟨user, huser, target, htarget, hsame⟩ := hused
      refine ⟨flatKey target, fun entry hentry hfolder => ?_⟩
      obtain ⟨other, hother, found, hfound, hplace, hfrom⟩ :=
        exists_flat_user hplan hnames hentry hfolder
      refine ⟨other, hother, found, hfound, ?_, hfrom⟩
      apply flatKey_of_folder hcalendar hnames hother huser _ hfound htarget
      rw [← hplace, hfolder, hsame]
    · refine ⟨toLex (⊥, toLex (0, toLex (0, 0))), fun entry hentry hfolder => ?_⟩
      obtain ⟨other, hother, found, hfound, hplace, -⟩ :=
        exists_flat_user hplan hnames hentry hfolder
      exact absurd ⟨other, hother, found, hfound, hplace.symm.trans hfolder⟩ hused
  lights lit hlit capture hcapture hincluded copy hcopy hchosen := by
    obtain ⟨found, hfound⟩ : ∃ found, (capture.copies.find? fun other =>
        other.assetId = copy.assetId) = some found :=
      Option.isSome_iff_exists.mp (List.find?_isSome.mpr ⟨copy, hcopy, by simp⟩)
    obtain ⟨draft, hdraft⟩ : ∃ draft, placeLight input.chosen (lightsPlace names input.lit lit)
        capture = some draft := by
      unfold placeLight
      simp [hchosen, hfound]
    obtain ⟨-, -, hfolder, -, -, hinput⟩ := placeLight_eq_some hdraft
    rw [← hinput]
    apply lies_of_draft hplan hnames hlit
      (mem_sessionDrafts.mpr (.inl ⟨capture, hcapture, hincluded, hdraft⟩))
    rw [hfolder]
    exact List.prefix_append _ _
  flats lit hlit target htarget file hfile := by
    obtain ⟨draft, hdraft, hfolder, hinput, hfrom⟩ : ∃ draft ∈ sessionDrafts input names lit,
        draft.folder = (flatsPlace names input.lit lit).folder ∧
          draft.input = draft.source.input ∧ FromTarget .flat target draft.source :=
      exists_flat_draft htarget hfile
    refine ⟨draft.source, hfrom, ?_⟩
    rw [← hinput]
    apply lies_of_draft hplan hnames hlit hdraft
    rw [hfolder]
    exact List.prefix_append _ _
  shared a ha b hb hbucket ta tb hta htb := by
    obtain ⟨hgroup, hrest⟩ := Prod.mk.inj hbucket
    rw [nightDir_eq_iff hcalendar hnames ha hb hgroup (Prod.mk.inj hrest).1]
    exact flatNight_eq_iff ha hb hbucket hta htb
  unpinned lit hlit hnone := by
    unfold rooms
    rw [flatNight_of_none hnone]

end Flats

/-! ## A night with and without flats -/

theorem exists_names (input : PlanInput H) (h : (Names.new input).isOk = true) :
    ∃ names, Names.new input = .ok names := by
  cases hnames : Names.new input with
  | error blocker => simp [hnames, Except.isOk, Except.toBool] at h
  | ok names => exact ⟨names, rfl⟩

theorem wholeHost_calendar : wholeHost.Calendar where
  date_ext a b hyear hmonth hday := by
    change Nat at a b
    have hyear' : a / 10000 = b / 10000 := Int.ofNat.inj hyear
    change a / 100 % 100 = b / 100 % 100 at hmonth
    change a % 100 = b % 100 at hday
    change a = b
    omega
  month_lt date := Nat.mod_lt _ (by decide)
  day_lt date := Nat.mod_lt _ (by decide)

/-- Two sessions of one filter and night, the second without flats. -/
def someFlats : PlanInput wholeHost :=
  oneGroup [oneLight 1 (.pinned sharedFlats), oneLight 2 .declined] fun _ => some "Ha".toList

def someFlatsLit (session : BasisSession wholeHost) : Lit wholeHost where
  group := { id := 1000, name := "NGC 7000".toList, panel := false
             sessions := [oneLight 1 (.pinned sharedFlats), oneLight 2 .declined] }
  session
  settings := Settings.of (someFlats.metadata session.sessionId)

theorem flats_shared_with_none : ¬ ∀ (input : PlanInput wholeHost) (names : Names)
    (p : Plan wholeHost), Names.new input = .ok names → plan input = .ok p →
      ∀ a ∈ input.lit, ∀ b ∈ input.lit, flatBucket names a = flatBucket names b →
        ((rooms names input.lit a).nightDir = (rooms names input.lit b).nightDir ↔
          a.session.calibration.flat.target.map flatKey =
            b.session.calibration.flat.target.map flatKey) := by
  intro hall
  obtain ⟨p, hplan⟩ := exists_plan someFlats (by decide)
  obtain ⟨names, hnames⟩ := exists_names someFlats (by decide)
  let a := someFlatsLit (oneLight 1 (.pinned sharedFlats))
  let b := someFlatsLit (oneLight 2 .declined)
  have hfolders : (Names.new someFlats).toOption.map (fun names =>
      decide ((rooms names someFlats.lit a).nightDir = (rooms names someFlats.lit b).nightDir)) =
        some true := by
    decide
  rw [hnames] at hfolders
  have hdir := of_decide_eq_true (Option.some.inj hfolders)
  have hsame := (hall someFlats names p hnames hplan a List.mem_cons_self b
    (List.mem_cons_of_mem _ List.mem_cons_self) rfl).mp hdir
  cases hsame

theorem flats_with_lights_someFlats : ∃ p names, plan someFlats = .ok p ∧
    Names.new someFlats = .ok names ∧ FlatsWithLights someFlats names p := by
  obtain ⟨p, hplan⟩ := exists_plan someFlats (by decide)
  obtain ⟨names, hnames⟩ := exists_names someFlats (by decide)
  exact ⟨p, names, hplan, hnames, flats_with_lights wholeHost_calendar hplan hnames⟩

/-! ## Two darks of one night -/

def firstDarks : PinTarget wholeHost where
  input := .rawSet 60 1
  captured := some (20260110 : Nat)
  files := [{
    assetId := some 61, sha256 := List.replicate 64 'a', fingerprint := frameFingerprint 61 }]
  valid := by decide

def secondDarks : PinTarget wholeHost where
  input := .rawSet 70 1
  captured := some (20260112 : Nat)
  files := [{
    assetId := some 71, sha256 := List.replicate 64 'b', fingerprint := frameFingerprint 71 }]
  valid := by decide

def darkLight (id : Uuid) (dark : PinTarget wholeHost) : BasisSession wholeHost :=
  { oneLight id .declined with
    calibration := { dark := .pinned dark, flat := .declined, bias := .declined } }

def twoDarks : PlanInput wholeHost :=
  oneGroup [darkLight 1 firstDarks, darkLight 2 secondDarks] fun id =>
    [((1 : Uuid), "Ha".toList), (2, "OIII".toList)].lookup id

def nightDarks : List Text := ["NIGHT_2026-01-15".toList, "Darks".toList]

theorem twoDarks_entries : (plan twoDarks).toOption.map (fun p => p.entries.map fun entry =>
    (entry.path.dropLast, entry.source)) = some [
      (nightDarks, .calibrationFrame .dark 60 61), (nightDarks, .calibrationFrame .dark 70 71),
      (["NIGHT_2026-01-15".toList, "Lights".toList, "Ha_300s".toList], .light 1 1),
      (["NIGHT_2026-01-15".toList, "Lights".toList, "OIII_300s".toList], .light 2 2)] := by
  decide

def darkLit (id : Uuid) (dark : PinTarget wholeHost) : Lit wholeHost where
  group := { id := 1000, name := "NGC 7000".toList, panel := false
             sessions := [darkLight 1 firstDarks, darkLight 2 secondDarks] }
  session := darkLight id dark
  settings := Settings.of (twoDarks.metadata id)

theorem darkLit_mem : darkLit 1 firstDarks ∈ twoDarks.lit ∧ darkLit 2 secondDarks ∈ twoDarks.lit :=
  ⟨List.mem_cons_self, List.mem_cons_of_mem _ List.mem_cons_self⟩

theorem darkLit_folder {names : Names} (hnames : Names.new twoDarks = .ok names) :
    (calibrationPlace names twoDarks.lit .dark (kindFolder .dark) (darkLit 1 firstDarks)).folder =
        nightDarks ∧
      (calibrationPlace names twoDarks.lit .dark (kindFolder .dark) (darkLit 2 secondDarks)).folder =
        nightDarks := by
  have hfolders : (Names.new twoDarks).toOption.map (fun names =>
      ((calibrationPlace names twoDarks.lit .dark (kindFolder .dark) (darkLit 1 firstDarks)).folder,
        (calibrationPlace names twoDarks.lit .dark (kindFolder .dark)
          (darkLit 2 secondDarks)).folder)) = some (nightDarks, nightDarks) := by
    decide
  rw [hnames] at hfolders
  exact Prod.mk.inj (Option.some.inj hfolders)

theorem versions_meet : ¬ ∀ (input : PlanInput wholeHost) (names : Names) (p : Plan wholeHost),
    Names.new input = .ok names → plan input = .ok p → ∀ kind, kind ≠ .flat →
      ∀ a ta b tb, ∀ e ∈ p.entries, ∀ e' ∈ p.entries, PlacedFor input names kind a ta e →
        PlacedFor input names kind b tb e' → e.path.dropLast = e'.path.dropLast →
          settingsKey kind a = settingsKey kind b → targetKey ta = targetKey tb := by
  intro hall
  obtain ⟨p, hplan⟩ := exists_plan twoDarks (by decide)
  obtain ⟨names, hnames⟩ := exists_names twoDarks (by decide)
  have hentries := twoDarks_entries
  rw [hplan] at hentries
  have hlist := Option.some.inj hentries
  beta_reduce at hlist
  obtain ⟨e, he, heq⟩ : ∃ e ∈ p.entries, (e.path.dropLast, e.source) =
      (nightDarks, .calibrationFrame .dark 60 61) := by
    apply List.mem_map.mp
    rw [hlist]
    exact List.mem_cons_self
  obtain ⟨e', he', heq'⟩ : ∃ e ∈ p.entries, (e.path.dropLast, e.source) =
      (nightDarks, .calibrationFrame .dark 70 71) := by
    apply List.mem_map.mp
    rw [hlist]
    exact List.mem_cons_of_mem _ List.mem_cons_self
  obtain ⟨hfolder, hsource⟩ := Prod.mk.inj heq
  obtain ⟨hfolder', hsource'⟩ := Prod.mk.inj heq'
  obtain ⟨hfirst, hsecond⟩ := darkLit_folder hnames
  have hplaced : PlacedFor twoDarks names .dark (darkLit 1 firstDarks) firstDarks e :=
    ⟨darkLit_mem.1, rfl, hfolder.trans hfirst.symm, _, List.mem_cons_self, 61, rfl, hsource⟩
  have hplaced' : PlacedFor twoDarks names .dark (darkLit 2 secondDarks) secondDarks e' :=
    ⟨darkLit_mem.2, rfl, hfolder'.trans hsecond.symm, _, List.mem_cons_self, 71, rfl, hsource'⟩
  have hkey : settingsKey .dark (darkLit 1 firstDarks) = settingsKey .dark (darkLit 2 secondDarks) := by
    decide
  have hsame := hall twoDarks names p hnames hplan .dark (by decide) _ _ _ _ e he e' he' hplaced
    hplaced' (hfolder.trans hfolder'.symm) hkey
  have hdiffer : targetKey firstDarks ≠ targetKey secondDarks := by decide
  exact hdiffer hsame

theorem calibration_apart_twoDarks : ∃ p names, plan twoDarks = .ok p ∧
    Names.new twoDarks = .ok names ∧
    ∀ lit ∈ twoDarks.lit, ∀ entry ∈ p.entries, entry.path.dropLast =
      (calibrationPlace names twoDarks.lit .dark (kindFolder .dark) lit).folder →
        ∃ user target, PlacedFor twoDarks names .dark user target entry := by
  obtain ⟨p, hplan⟩ := exists_plan twoDarks (by decide)
  obtain ⟨names, hnames⟩ := exists_names twoDarks (by decide)
  exact ⟨p, names, hplan, hnames, (calibration_apart hplan hnames (by decide)).1⟩

end PlateVault.View
