import PlateVault.Calibration.Laws

/-!
# What a pin says of its input

An automatic pin names an input every criterion of which is compatible, taken inside the window and
readable. For flats two criteria say more than their text: which rig versions agree, and which
rotations.
-/

namespace PlateVault.Calibration

variable {M : Measures} {kind : InputKind} {light : SessionLight M}
  {inputs : List (SessionInput M)} {settings : WorkflowSettings M} {input : SessionInput M}

/-! ## Cautions -/

theorem ageCautions_eq_nil {days : Option Nat} {window : Nat} :
    ageCautions days window = [] ↔ ∃ d, days = some d ∧ d ≤ window := by
  cases days <;> simp [ageCautions]

theorem rotationCautions_eq_nil {rotation : Option M.F64} {fine : M.F64} :
    rotationCautions M rotation fine = [] ↔
      ∀ degrees, rotation = some degrees → M.gt degrees fine = false := by
  cases rotation <;> simp [rotationCautions]

theorem cautionsOf_eq_nil {unknown : List CriterionId} {days : Option Nat} {window : Nat}
    {rotation : Option M.F64} {fine : M.F64} {available : Bool} :
    cautionsOf unknown days window rotation fine available = [] ↔
      unknown = [] ∧ (∃ d, days = some d ∧ d ≤ window) ∧
        (∀ degrees, rotation = some degrees → M.gt degrees fine = false) ∧ available = true := by
  unfold cautionsOf
  rw [List.append_eq_nil_iff, List.append_eq_nil_iff, List.append_eq_nil_iff, ageCautions_eq_nil,
    rotationCautions_eq_nil, and_assoc, and_assoc]
  refine and_congr ?_ (and_congr_right fun _ => and_congr_right fun _ => ?_)
  · cases unknown <;> simp
  · cases available <;> simp

theorem daysApart_eq_some {night captured : Option Date} {days : Nat}
    (h : daysApart night captured = some days) :
    ∃ n c, night = some n ∧ captured = some c ∧ days = (n - c).natAbs := by
  cases night with
  | none => cases h
  | some n =>
    cases captured with
    | none => cases h
    | some c =>
      refine ⟨n, c, rfl, rfl, ?_⟩
      simp only [daysApart] at h
      split at h
      · exact (Option.some.inj h).symm
      · cases h

/-! ## Flats -/

/-- The version of the lights' rig the flats were taken with. -/
def takenWith (rig : LightRig) (input : SessionInput M) : Option RigVersion :=
  match input.rigVersionId with
  | some id => rig.versions.find? (·.id = id)
  | none => RigVersion.forNight rig.versions input.captured

/-- The flats were taken with the lights' own rig version, or the rig has none on record and the
flats name none. -/
def OnRigVersion (light : SessionLight M) (input : SessionInput M) : Prop :=
  ∃ rig, light.rig = some rig ∧
    ((∃ own flats, rig.version = some own ∧ takenWith rig input = some flats ∧ own.id = flats.id) ∨
      rig.version = none ∧ rig.versions = [] ∧ input.rigVersionId = none)

/-- Every angle is known and the largest difference, to a hundredth of a degree, is fine; or an angle
is missing and the lights' own rig version has no rotator. -/
def RotationFine (light : SessionLight M) (input : SessionInput M) (rules : FlatRules M) : Prop :=
  (∃ lights angles, light.rotatorDeg = some lights ∧ input.rotatorDeg = angles.map some ∧
    angles ≠ [] ∧ M.gt (widestApart M lights angles) rules.fineWithinDeg = false ∧
    (rules.validate = .ok () → M.le (widestApart M lights angles) rules.fineWithinDeg = true)) ∨
  ((light.rotatorDeg = none ∨ knownAngles input.rotatorDeg = none) ∧
    ∃ rig version, light.rig = some rig ∧ rig.version = some version ∧ version.rotator = .absent)

theorem sameVersion_compatible {rig : LightRig} {flats : Option RigVersion}
    (h : (sameVersion M rig flats).verdict = .compatible) :
    (∃ own taken, rig.version = some own ∧ flats = some taken ∧ own.id = taken.id) ∨
      rig.version = none ∧ flats = none ∧ rig.versions = [] := by
  unfold sameVersion at h
  split at h
  · rename_i own taken hown
    split at h
    · rename_i hsame
      exact .inl ⟨own, taken, hown, rfl, hsame⟩
    · cases h
  · rename_i hown
    split at h
    · rename_i hversions
      exact .inr ⟨hown, rfl, List.isEmpty_iff.mp hversions⟩
    · cases h
  · cases h

theorem onRigVersion_of_compatible (h : (rigVersion light input).verdict = .compatible) :
    OnRigVersion light input := by
  unfold rigVersion at h
  split at h
  · cases h
  rename_i rig hrig
  refine ⟨rig, hrig, ?_⟩
  split at h
  · rename_i hid
    rcases sameVersion_compatible h with ⟨own, taken, hown, htaken, hsame⟩ | ⟨hown, -, hversions⟩
    · exact .inl ⟨own, taken, hown, by rw [takenWith, hid, htaken], hsame⟩
    · exact .inr ⟨hown, hversions, hid⟩
  · rename_i id hid
    split at h
    · rename_i flats hfind
      rcases sameVersion_compatible h with ⟨own, taken, hown, htaken, hsame⟩ | ⟨-, hnone, -⟩
      · refine .inl ⟨own, taken, hown, ?_, hsame⟩
        rw [takenWith, hid, ← htaken]
        exact hfind
      · cases hnone
    · cases h

theorem knownAngles_eq_some {frames : List (Option M.F64)} {angles : List M.F64}
    (h : knownAngles frames = some angles) : frames = angles.map some ∧ angles ≠ [] := by
  unfold knownAngles at h
  obtain ⟨found, hfound, hif⟩ := Option.bind_eq_some_iff.mp h
  split at hif
  · cases hif
  rename_i hne
  obtain rfl := Option.some.inj hif
  refine ⟨?_, by simpa using hne⟩
  clear h hif hne
  induction frames generalizing found with
  | nil =>
    cases hfound
    rfl
  | cons frame frames ih =>
    rw [List.mapM_cons] at hfound
    obtain ⟨deg, hdeg, hfound⟩ := Option.bind_eq_some_iff.mp hfound
    obtain ⟨rest, hrest, heq⟩ := Option.bind_eq_some_iff.mp hfound
    obtain rfl := Option.some.inj heq
    rw [List.map_cons, ← ih rest hrest]
    exact congrArg (· :: frames) hdeg

theorem fine_isNumber {rules : FlatRules M} (h : rules.validate = .ok ()) :
    M.isNan rules.fineWithinDeg = false := by
  unfold FlatRules.validate at h
  simp only [Result.bind_eq_ok] at h
  obtain ⟨_, hfine, -⟩ := h
  unfold requireAngle at hfine
  split at hfine
  · rename_i hangle
    simp only [Bool.and_eq_true] at hangle
    exact (M.le_numbers _ _ hangle.1.2).2
  · cases hfine

theorem flatRotation_of_known {rules : FlatRules M} {lights : M.F64} {angles : List M.F64}
    (hlights : light.rotatorDeg = some lights) (hangles : knownAngles input.rotatorDeg = some angles) :
    (flatRotation light input rules).1.verdict =
        rotationVerdict rules (widestApart M lights angles) ∧
      (flatRotation light input rules).2 = some (widestApart M lights angles) := by
  simp only [flatRotation, hlights, hangles, noted_verdict, row_verdict, and_self]

theorem flatRotation_of_missing {rules : FlatRules M}
    (h : light.rotatorDeg = none ∨ knownAngles input.rotatorDeg = none)
    (hverdict : (flatRotation light input rules).1.verdict = .compatible) :
    (rotatorOf light).needsAngle = false := by
  cases hneeds : (rotatorOf light).needsAngle with
  | false => rfl
  | true =>
    unfold flatRotation at hverdict
    rw [hneeds] at hverdict
    cases hlights : light.rotatorDeg with
    | none =>
      rw [hlights] at hverdict
      cases hverdict
    | some lights =>
      rcases h with h | h
      · rw [h] at hlights
        cases hlights
      · rw [hlights, h] at hverdict
        cases hverdict

theorem rotator_absent (h : (rotatorOf light).needsAngle = false) :
    ∃ rig version, light.rig = some rig ∧ rig.version = some version ∧
      version.rotator = .absent := by
  unfold rotatorOf at h
  split at h
  · rename_i version hversion
    obtain ⟨rig, hrig, hown⟩ := Option.bind_eq_some_iff.mp hversion
    exact ⟨rig, version, hrig, hown, by simpa [RotatorPresence.needsAngle] using h⟩
  · cases h

theorem isNumber_of_offered {rules : FlatRules M} {widest : M.F64}
    (h : rotationVerdict rules widest = .compatible) : M.isNan widest = false := by
  unfold rotationVerdict at h
  split at h
  · rename_i hle
    rcases Bool.or_eq_true_iff.mp hle with hle | hle
    · exact (M.le_numbers _ _ hle).1
    · exact (M.le_numbers _ _ hle).1
  · cases h

theorem rotationFine_of_compatible {rules : FlatRules M}
    (h : (flatRotation light input rules).1.verdict = .compatible)
    (hfine : ∀ degrees, (flatRotation light input rules).2 = some degrees →
      M.gt degrees rules.fineWithinDeg = false) :
    RotationFine light input rules := by
  by_cases hmissing : light.rotatorDeg = none ∨ knownAngles input.rotatorDeg = none
  · exact .inr ⟨hmissing, rotator_absent (flatRotation_of_missing hmissing h)⟩
  · obtain ⟨hlights, hangles⟩ := not_or.mp hmissing
    obtain ⟨lights, hlights⟩ := Option.ne_none_iff_exists'.mp hlights
    obtain ⟨angles, hangles⟩ := Option.ne_none_iff_exists'.mp hangles
    obtain ⟨hverdict, hdegrees⟩ := @flatRotation_of_known M light input rules _ _ hlights hangles
    obtain ⟨hframes, hne⟩ := knownAngles_eq_some hangles
    have hgt := hfine _ hdegrees
    refine .inl ⟨lights, angles, hlights, hframes, hne, hgt, fun hvalid => ?_⟩
    rw [hverdict] at h
    rcases M.le_or_gt _ _ (isNumber_of_offered h) (fine_isNumber hvalid) with hle | hgt'
    · exact hle
    · rw [hgt] at hgt'
      cases hgt'

/-! ## The input of a pin -/

structure Sound (kind : InputKind) (light : SessionLight M) (settings : WorkflowSettings M)
    (input : SessionInput M) : Prop where
  available : input.available = true
  known : ∀ row ∈ criteria kind light settings input, row.verdict = .compatible
  window : ∃ night captured, light.night = some night ∧ input.captured = some captured ∧
    (night - captured).natAbs ≤ windowOf kind settings
  rotation : kind = .flat → RotationFine light input settings.flats
  version : kind = .flat → OnRigVersion light input

theorem mem_criteria_flat {row : CriterionResult}
    (h : row = rigVersion light input ∨ row = (flatRotation light input settings.flats).1) :
    row ∈ criteria .flat light settings input := by
  rcases h with rfl | rfl <;> simp [criteria, hardChecks]

theorem sound_of_cautions (h : sessionCautions kind light settings input = []) :
    Sound kind light settings input := by
  obtain ⟨hunknown, ⟨days, hdays, hwindow⟩, hrotation, havailable⟩ := cautionsOf_eq_nil.mp h
  have hknown : ∀ row ∈ criteria kind light settings input, row.verdict = .compatible :=
    Evaluation.blocking_eq_nil.mp hunknown
  refine ⟨havailable, hknown, ?_, ?_, ?_⟩
  · obtain ⟨night, captured, hnight, hcaptured, rfl⟩ := daysApart_eq_some hdays
    exact ⟨night, captured, hnight, hcaptured, hwindow⟩
  · rintro rfl
    exact rotationFine_of_compatible (hknown _ (mem_criteria_flat (.inr rfl))) hrotation
  · rintro rfl
    exact onRigVersion_of_compatible (hknown _ (mem_criteria_flat (.inl rfl)))

/-- A session is offered exactly the inputs of the kind that no criterion rules out, in a strict total
order whatever the order of the inputs. It pins automatically exactly where one offer with no
caution ranks before every other one, and that input is readable, settled on every criterion, inside
the window and for flats within the fine rotation and on the lights' rig version, or without a
rotator or any recorded version. -/
theorem match_session_laws (kind : InputKind) (light : SessionLight M)
    (inputs : List (SessionInput M)) (settings : WorkflowSettings M) (h : Distinct inputs) :
    ((matchSession kind light inputs settings).offers.map (·.target)).Perm
        ((inputs.filter (passes kind light settings)).map fun input =>
          (ranked kind light settings input).offer.target) ∧
      (IsStrictTotalOrder {offer // offer ∈ offered kind light inputs settings}
          fun left right => sessionOrder left.val right.val = .lt) ∧
      (∃ sorted : List (Ranked M), sorted.Perm (offered kind light inputs settings) ∧
        sorted.Pairwise (fun left right => sessionOrder left right = .lt) ∧
        (matchSession kind light inputs settings).offers.map (·.target) =
          sorted.map (·.offer.target)) ∧
      (∀ inputs', inputs.Perm inputs' →
        matchSession kind light inputs' settings = matchSession kind light inputs settings) ∧
      (∀ target, (matchSession kind light inputs settings).state = .pinned target .automatic ↔
        ∃ best ∈ offered kind light inputs settings, best.offer.target = target ∧
          best.offer.cautions = [] ∧ ∀ other ∈ offered kind light inputs settings,
            other = best ∨ sessionRank best other = .lt) ∧
      ∀ target, (matchSession kind light inputs settings).state = .pinned target .automatic →
        ∃ input ∈ inputs, input.kind = kind ∧
          target = (ranked kind light settings input).offer.target ∧
          Sound kind light settings input := by
  refine ⟨offers_perm, strictTotalOrder_offered h, ⟨_, Ordered.perm_sortBy sessionKey _,
    pairwise_sorted h, offers_target⟩, fun inputs' hperm => matchSession_perm h hperm,
    fun target => state_eq_pinned h, fun target hpinned => ?_⟩
  obtain ⟨best, hbest, rfl, hcautions, -⟩ := (state_eq_pinned h).mp hpinned
  obtain ⟨input, hinput, rfl⟩ := List.mem_map.mp hbest
  obtain ⟨hmem, hpasses⟩ := List.mem_filter.mp hinput
  have hkind : input.kind = kind := by
    simp only [passes, decide_eq_true_eq] at hpasses
    exact hpasses.1
  exact ⟨input, hmem, hkind, rfl, sound_of_cautions hcautions⟩

/-! ## Two setups -/

/-- Angles in thousandths of a degree, which hold every step of a rotation check exactly. -/
abbrev thousandths : Measures where
  toFloats := Floats.thousandths
  debug text := text
  displayDate day := (Int.repr day).toList

/-- The defaults: fine within 2°, offered within 5°, one night. -/
def defaultSettings : WorkflowSettings thousandths :=
  ⟨⟨(2000 : Int), (5000 : Int), 1⟩, ⟨365⟩⟩

def sameHeaders : CaptureEvidence := ⟨fun _ => some ⟨"1".toList, "HEADER".toList⟩, none⟩

def lightOn (rig : LightRig) : SessionLight thousandths where
  sessionId := 7
  capture := sameHeaders
  night := some 100
  camera := .unlinked
  rig := some rig
  rotatorDeg := some (10000 : Int)

def flatAt (id : Uuid) (angle : Option Int) (captured : Date) : SessionInput thousandths where
  input := .rawSet id 1
  kind := .flat
  capture := sameHeaders
  captured := some captured
  camera := .unlinked
  rigVersionId := none
  rotatorDeg := [angle]
  files := []
  available := true

def unversioned : LightRig := ⟨3, none, []⟩

def fixedRig : LightRig := ⟨3, some ⟨5, 0, .absent⟩, [⟨5, 0, .absent⟩]⟩

theorem match_session_laws_of_two :
    ∃ target, (matchSession .flat (lightOn fixedRig) [flatAt 2 (some 11000) 100, flatAt 1 none 101]
        defaultSettings).state = .pinned target .automatic ∧
      ∃ input ∈ [flatAt 2 (some 11000) 100, flatAt 1 none 101], input.kind = .flat ∧
        target = (ranked .flat (lightOn fixedRig) defaultSettings input).offer.target ∧
        Sound .flat (lightOn fixedRig) defaultSettings input := by
  have hdistinct : Distinct [flatAt 2 (some 11000) 100, flatAt 1 none 101] := by
    unfold Distinct
    decide
  obtain ⟨-, -, -, -, -, hpin⟩ := match_session_laws .flat (lightOn fixedRig)
    [flatAt 2 (some 11000) 100, flatAt 1 none 101] defaultSettings hdistinct
  have hstate : (matchSession .flat (lightOn fixedRig)
      [flatAt 2 (some 11000) 100, flatAt 1 none 101] defaultSettings).state =
        .pinned (ranked .flat (lightOn fixedRig) defaultSettings
          (flatAt 2 (some 11000) 100)).offer.target .automatic := by
    decide
  exact ⟨_, hstate, hpin _ hstate⟩

/-- A flat is pinned where the lights have no rig version of their own, where its rotation is
unknown, and where it is over the fine angle by less than a rounding; a raw set listed twice is
offered in the order listed. -/
theorem pins_without_version_or_rotation :
    (matchSession .flat (lightOn unversioned) [flatAt 1 (some 10000) 100] defaultSettings).state =
        .pinned (ranked .flat (lightOn unversioned) defaultSettings
          (flatAt 1 (some 10000) 100)).offer.target .automatic ∧
      (matchSession .flat (lightOn fixedRig) [flatAt 1 none 100] defaultSettings).state =
        .pinned (ranked .flat (lightOn fixedRig) defaultSettings
          (flatAt 1 none 100)).offer.target .automatic ∧
      ((matchSession .flat (lightOn fixedRig) [flatAt 1 (some 12004) 100] defaultSettings).state =
        .pinned (ranked .flat (lightOn fixedRig) defaultSettings
          (flatAt 1 (some 12004) 100)).offer.target .automatic ∧
        (2000 : Int) < angleBetween thousandths (10000 : Int) (12004 : Int)) ∧
      matchSession .flat (lightOn fixedRig) [flatAt 1 none 99, flatAt 1 none 101]
          defaultSettings ≠
        matchSession .flat (lightOn fixedRig) [flatAt 1 none 101, flatAt 1 none 99]
          defaultSettings := by
  decide

end PlateVault.Calibration
