import PlateVault.Planning.Goals
import PlateVault.Planning.Windows

/-!
# What a night grades

The windows computed once for a Target and a Moon limit are those of every goal of the Target, so
each goal's grade follows from the longest window its curve leaves and the longest the Moon-free
criteria leave, whatever the other goals.
-/

namespace PlateVault.Planning

variable {A : Astronomy}

/-! ## The longest window -/

/-- The minutes of the longest window at `place` under a Moon limit. -/
def longestUnder (context : NightContext A) (place : A.Equatorial)
    (moon : MoonCriterion A.F64) : Option Nat :=
  (durations ⟨place, context.location, { context.criteria with moon }⟩ context).max?

section Longest

variable {context : NightContext A} {target : TargetRecord A} {place : A.Equatorial}

theorem nightWindows_withMoon (h : context.Sound) (hplace : position target = .ok place)
    (site : ObservingSite A) (moon : MoonCriterion A.F64) :
    ∃ windows, nightWindows (context.withMoon moon) target site = .ok (.ok windows) ∧
      longest windows = longestUnder context place moon := by
  obtain ⟨windows, hwindows, hdurations⟩ := nightWindows_eq_ok (h.withMoon moon) hplace site
  refine ⟨windows, hwindows, ?_⟩
  rw [longest, hdurations]
  rfl

theorem better_duration (first second : ObservingWindow A) :
    (better first second).durationMinutes = max first.durationMinutes second.durationMinutes := by
  unfold better
  simp only
  rcases lt_trichotomy first.durationMinutes second.durationMinutes with hlt | heq | hgt
  · rw [compare_lt_iff_lt.mpr hlt]
    exact (max_eq_right hlt.le).symm
  · split <;> simp [heq]
  · rw [compare_gt_iff_gt.mpr hgt]
    exact (max_eq_left hgt.le).symm

theorem foldl_better (window : ObservingWindow A) (windows : List (ObservingWindow A)) :
    (windows.foldl better window).durationMinutes =
      (windows.map (·.durationMinutes)).foldl max window.durationMinutes := by
  induction windows generalizing window with
  | nil => rfl
  | cons next windows ih => rw [List.foldl_cons, ih, better_duration, List.map_cons, List.foldl_cons]

theorem bestWindow_eq_ok (h : context.Sound) (hplace : position target = .ok place)
    (site : ObservingSite A) (moon : MoonCriterion A.F64) :
    ∃ found, bestWindow (context.withMoon moon) target site = .ok found ∧
      found.map (·.durationMinutes) = longestUnder context place moon := by
  obtain ⟨windows, hwindows, hlongest⟩ := nightWindows_withMoon h hplace site moon
  unfold bestWindow
  rw [hwindows, ← hlongest]
  cases windows with
  | nil => exact ⟨none, rfl, rfl⟩
  | cons window windows =>
    refine ⟨some (windows.foldl better window), rfl, ?_⟩
    rw [Option.map_some, foldl_better]
    rfl

theorem longestUnder_eq_none (h : context.Sound) (hfree : longestUnder context place .none = none)
    (moon : MoonCriterion A.F64) : longestUnder context place moon = none := by
  rw [longestUnder, List.max?_eq_none_iff] at hfree ⊢
  refine List.eq_nil_iff_forall_not_mem.mpr fun minutes hminutes => ?_
  obtain ⟨free, hmem, -⟩ := exists_duration_moonFree h hminutes
  rw [show durations (Sky.moonFree ⟨place, context.location, { context.criteria with moon }⟩)
    context = [] from hfree] at hmem
  cases hmem

theorem longestUnder_of_darkSeconds (h : context.Sound) (hdark : context.darkSeconds = 0)
    (moon : MoonCriterion A.F64) : longestUnder context place moon = none := by
  rw [longestUnder, durations_of_darkSeconds h hdark]
  rfl

end Longest

/-! ## Goals of one night -/

def Consistent (goals : List (UnfinishedGoal A)) : Prop :=
  ∀ goal ∈ goals, ∀ other ∈ goals, goal.target.id = other.target.id → goal.target = other.target

theorem MoonKey.of_inj {F64 : Type} {moon moon' : MoonCriterion F64} (h : of moon = of moon') :
    moon = moon' := by
  cases moon <;> cases moon' <;> simp_all [of]

section Goals

variable {context : NightContext A} {avoidance : MoonAvoidance A} {site : ObservingSite A}

theorem position_of_available {target : TargetRecord A} (h : positionUnavailable target = none) :
    ∃ place, position target = .ok place := by
  unfold positionUnavailable at h
  cases hplace : position target with
  | ok place => exact ⟨place, rfl⟩
  | error reason => simp [hplace] at h

theorem position_of_ungraded {goal : UnfinishedGoal A} (h : goal.ungraded = none) :
    goal.bands ≠ [] ∧ ∃ place, position goal.target = .ok place := by
  unfold UnfinishedGoal.ungraded at h
  split at h
  · cases h
  rename_i hbands
  exact ⟨by simpa using hbands, position_of_available (Option.map_eq_none_iff.mp h)⟩

theorem strictestBand_of_ungraded {goal : UnfinishedGoal A} (h : goal.ungraded = none)
    (avoidance : MoonAvoidance A) (age : A.F64) :
    ∃ band, strictestBand goal avoidance age = some band := by
  refine Option.ne_none_iff_exists'.mp fun hnone => (position_of_ungraded h).1 ?_
  exact Ordered.maxBy_eq_none.mp hnone

def moonOf (context : NightContext A) (avoidance : MoonAvoidance A) (band : Band) :
    MoonCriterion A.F64 :=
  curveCriterion (avoidance.curve band) context.moonAgeDays

structure GradedAs (context : NightContext A) (avoidance : MoonAvoidance A)
    (goal : UnfinishedGoal A) (entry : NightGrade A) : Prop where
  goalId : entry.grade.goalId = goal.goalId
  targetId : entry.grade.targetId = goal.target.id
  ungraded : entry.grade.ungraded = goal.ungraded
  of_ungraded : goal.ungraded ≠ none → entry.grade.grade = none
  of_gradable : ∀ band place, goal.ungraded = none →
    strictestBand goal avoidance context.moonAgeDays = some band → position goal.target = .ok place →
      entry.grade.band = some band ∧
        entry.grade.grade = some (bandGrade (longestUnder context place (moonOf context avoidance band))
          (longestUnder context place .none))

/-- The windows kept so far are those of every goal they are looked up for. -/
def Kept (context : NightContext A) (site : ObservingSite A) (goals : List (UnfinishedGoal A))
    (best : BestWindows A) : Prop :=
  ∀ goal ∈ goals, ∀ moon found, best.lookup (goal.target.id, MoonKey.of moon) = some found →
    bestWindow (context.withMoon moon) goal.target site = .ok found

theorem windowUnder_eq_ok (h : context.Sound) {goals : List (UnfinishedGoal A)}
    (hgoals : Consistent goals) {best : BestWindows A} (hkept : Kept context site goals best)
    {goal : UnfinishedGoal A} (hgoal : goal ∈ goals) {place : A.Equatorial}
    (hplace : position goal.target = .ok place) (moon : MoonCriterion A.F64) :
    ∃ found best', windowUnder site context goal.target best moon = .ok (found, best') ∧
      found.map (·.durationMinutes) = longestUnder context place moon ∧
        Kept context site goals best' := by
  obtain ⟨found, hfound, hduration⟩ := bestWindow_eq_ok h hplace site moon
  unfold windowUnder
  simp only
  cases hlookup : best.lookup (goal.target.id, MoonKey.of moon) with
  | some kept =>
    have := hkept goal hgoal moon kept hlookup
    rw [hfound] at this
    cases this
    exact ⟨found, best, rfl, hduration, hkept⟩
  | none =>
    refine ⟨found, ((goal.target.id, MoonKey.of moon), found) :: best, ?_, hduration, ?_⟩
    · rw [hfound]
      rfl
    · intro other hother moon' found' hlookup'
      rw [List.lookup_cons] at hlookup'
      split at hlookup'
      · rename_i hkey
        cases hlookup'
        simp only [beq_iff_eq, Prod.mk.injEq] at hkey
        rw [hgoals other hother goal hgoal hkey.1, MoonKey.of_inj hkey.2]
        exact hfound
      · exact hkept other hother moon' found' hlookup'

theorem gradeGoal_eq_ok (h : context.Sound) {goals : List (UnfinishedGoal A)}
    (hgoals : Consistent goals) {best : BestWindows A} (hkept : Kept context site goals best)
    {goal : UnfinishedGoal A} (hgoal : goal ∈ goals) :
    ∃ entry best', gradeGoal site context avoidance best goal = .ok (entry, best') ∧
      GradedAs context avoidance goal entry ∧ Kept context site goals best' := by
  unfold gradeGoal
  cases hungraded : goal.ungraded with
  | some ungraded =>
    refine ⟨⟨goal.graded none (.error ungraded) none, false⟩, best, ?_, ?_, hkept⟩
    · cases hband : strictestBand goal avoidance context.moonAgeDays with
      | none => simp only [hband, Option.getD_some]
      | some band => simp only [hband, Option.getD_some]
    · exact ⟨rfl, rfl, hungraded.symm, fun _ => rfl, fun _ _ hnone => by simp [hungraded] at hnone⟩
  | none =>
    obtain ⟨-, place, hplace⟩ := position_of_ungraded hungraded
    obtain ⟨band, hband⟩ := strictestBand_of_ungraded hungraded avoidance context.moonAgeDays
    obtain ⟨curved, best₁, hcurved, hcurvedMinutes, hkept₁⟩ :=
      windowUnder_eq_ok h hgoals hkept hgoal hplace (moonOf context avoidance band)
    obtain ⟨free, best₂, hfree, hfreeMinutes, hkept₂⟩ :=
      windowUnder_eq_ok h hgoals hkept₁ hgoal hplace .none
    refine ⟨⟨goal.graded (some band) (.ok (bandGrade (curved.map (·.durationMinutes))
      (free.map (·.durationMinutes)))) curved, curved.isNone && free.isSome⟩, best₂, ?_, ?_, hkept₂⟩
    · rw [moonOf] at hcurved
      simp only [hband, hcurved, hfree, bind, Except.bind, pure, Except.pure]
    · refine ⟨rfl, rfl, hungraded.symm, fun hne => absurd hungraded hne, ?_⟩
      intro band' place' _ hband' hplace'
      cases hband.symm.trans hband'
      cases hplace.symm.trans hplace'
      exact ⟨rfl, by rw [← hcurvedMinutes, ← hfreeMinutes]; rfl⟩

theorem gradeGoals_eq_ok (h : context.Sound) {all goals : List (UnfinishedGoal A)}
    (hall : Consistent all) (hsub : ∀ goal ∈ goals, goal ∈ all) {best : BestWindows A}
    (hkept : Kept context site all best) :
    ∃ entries, gradeGoals site context avoidance best goals = .ok entries ∧
      List.Forall₂ (GradedAs context avoidance) goals entries := by
  induction goals generalizing best with
  | nil => exact ⟨[], rfl, .nil⟩
  | cons goal goals ih =>
    obtain ⟨entry, best', hentry, hgraded, hkept'⟩ :=
      @gradeGoal_eq_ok A context avoidance site h all hall best hkept goal
        (hsub goal List.mem_cons_self)
    obtain ⟨entries, hentries, hrest⟩ := ih (fun other hother =>
      hsub other (List.mem_cons_of_mem _ hother)) hkept'
    refine ⟨entry :: entries, ?_, .cons hgraded hrest⟩
    simp only [gradeGoals, hentry, hentries, bind, Except.bind, pure, Except.pure]

theorem gradeNight_eq_ok (h : context.Sound) {goals : List (UnfinishedGoal A)}
    (hgoals : Consistent goals) :
    ∃ graded entries, gradeNight goals site context avoidance = .ok graded ∧ entries.Perm graded ∧
      List.Forall₂ (GradedAs context avoidance) goals entries := by
  obtain ⟨entries, hentries, hgraded⟩ := @gradeGoals_eq_ok A context avoidance site h goals goals
    hgoals (fun _ hgoal => hgoal) [] (fun _ _ _ _ hlookup => by cases hlookup)
  refine ⟨entries.insertionSort fun first second => gradeOrder first.grade second.grade ≠ .gt,
    entries, ?_, (List.perm_insertionSort _ entries).symm, hgraded⟩
  simp only [gradeNight, hentries, bind, Except.bind, pure, Except.pure]

/-! ## A night that suits -/

theorem bandGrade_suits {curved free : Option Nat} :
    (bandGrade curved free = .good ∨ bandGrade curved free = .marginal) ↔ curved ≠ none := by
  cases curved with
  | none => simp [bandGrade]
  | some curved =>
    cases free with
    | none => simp [bandGrade]
    | some free =>
      simp only [bandGrade]
      split <;> simp

def HasWindow (context : NightContext A) (avoidance : MoonAvoidance A)
    (goal : UnfinishedGoal A) : Prop :=
  ∃ band place, goal.ungraded = none ∧
    strictestBand goal avoidance context.moonAgeDays = some band ∧
      position goal.target = .ok place ∧
        longestUnder context place (moonOf context avoidance band) ≠ none

theorem GradedAs.suits_iff {goal : UnfinishedGoal A} {entry : NightGrade A}
    (h : GradedAs context avoidance goal entry) :
    entry.grade.suits = true ↔ HasWindow context avoidance goal := by
  unfold GoalGrade.suits HasWindow
  simp only [decide_eq_true_eq]
  constructor
  · intro hsuits
    cases hungraded : goal.ungraded with
    | some ungraded =>
      rw [h.of_ungraded (by simp [hungraded])] at hsuits
      simp at hsuits
    | none =>
      obtain ⟨-, place, hplace⟩ := position_of_ungraded hungraded
      obtain ⟨band, hband⟩ := strictestBand_of_ungraded hungraded avoidance context.moonAgeDays
      obtain ⟨-, hgrade⟩ := h.of_gradable band place hungraded hband hplace
      rw [hgrade, Option.some.injEq, Option.some.injEq, bandGrade_suits] at hsuits
      exact ⟨band, place, rfl, hband, hplace, hsuits⟩
  · rintro ⟨band, place, hungraded, hband, hplace, hwindow⟩
    obtain ⟨-, hgrade⟩ := h.of_gradable band place hungraded hband hplace
    rw [hgrade, Option.some.injEq, Option.some.injEq, bandGrade_suits]
    exact hwindow

theorem any_suits {goals : List (UnfinishedGoal A)} {entries : List (NightGrade A)}
    (h : List.Forall₂ (GradedAs context avoidance) goals entries) :
    entries.any (·.grade.suits) = true ↔ ∃ goal ∈ goals, HasWindow context avoidance goal := by
  induction h with
  | nil => simp
  | cons hentry _ ih =>
    simp only [List.any_cons, Bool.or_eq_true, ih, hentry.suits_iff, List.exists_mem_cons_iff]

/-- No goal of a tried Target and Moon limit has a window under it. -/
def Tried (context : NightContext A) (goals : List (UnfinishedGoal A))
    (tried : List (Uuid × MoonKey A.F64)) : Prop :=
  ∀ goal ∈ goals, ∀ moon, (goal.target.id, MoonKey.of moon) ∈ tried → ∀ place,
    position goal.target = .ok place → longestUnder context place moon = none

theorem tryGoals_eq_ok (h : context.Sound) {all goals : List (UnfinishedGoal A)}
    (hall : Consistent all) (hsub : ∀ goal ∈ goals, goal ∈ all ∧ goal.ungraded = none)
    {tried : List (Uuid × MoonKey A.F64)} (htried : Tried context all tried) :
    ∃ found, tryGoals site context avoidance tried goals = .ok found ∧
      (found = true ↔ ∃ goal ∈ goals, HasWindow context avoidance goal) := by
  induction goals generalizing tried with
  | nil => exact ⟨false, rfl, by simp⟩
  | cons goal goals ih =>
    obtain ⟨hmem, hungraded⟩ := hsub goal List.mem_cons_self
    have hrest : ∀ other ∈ goals, other ∈ all ∧ other.ungraded = none :=
      fun other hother => hsub other (List.mem_cons_of_mem _ hother)
    obtain ⟨-, place, hplace⟩ := position_of_ungraded hungraded
    obtain ⟨band, hband⟩ := strictestBand_of_ungraded hungraded avoidance context.moonAgeDays
    have hown : HasWindow context avoidance goal ↔
        longestUnder context place (moonOf context avoidance band) ≠ none := by
      constructor
      · rintro ⟨band', place', -, hband', hplace', hwindow⟩
        cases hband.symm.trans hband'
        cases hplace.symm.trans hplace'
        exact hwindow
      · exact fun hwindow => ⟨band, place, hungraded, hband, hplace, hwindow⟩
    obtain ⟨found, hfound, hminutes⟩ :=
      bestWindow_eq_ok h hplace site (moonOf context avoidance band)
    rw [tryGoals]
    simp only [hband]
    split
    · rename_i hkey
      have hnone := htried goal hmem _ hkey place hplace
      obtain ⟨result, hresult, hiff⟩ := ih hrest htried
      refine ⟨result, hresult, hiff.trans ?_⟩
      rw [List.exists_mem_cons_iff, hown, moonOf, hnone]
      simp
    · rw [moonOf] at hfound hminutes hown
      rw [hfound]
      cases found with
      | some window =>
        refine ⟨true, rfl, iff_of_true rfl ⟨goal, List.mem_cons_self, hown.mpr ?_⟩⟩
        rw [← hminutes]
        simp
      | none =>
        have htried' : Tried context all (tried ++ [(goal.target.id,
            MoonKey.of (curveCriterion (avoidance.curve band) context.moonAgeDays))]) := by
          intro other hother moon hkey place' hplace'
          rcases List.mem_append.mp hkey with hkey | hkey
          · exact htried other hother moon hkey place' hplace'
          · simp only [List.mem_singleton, Prod.mk.injEq] at hkey
            rw [hall other hother goal hmem hkey.1] at hplace'
            cases hplace.symm.trans hplace'
            rw [MoonKey.of_inj hkey.2, ← hminutes]
            rfl
        obtain ⟨result, hresult, hiff⟩ := ih hrest htried'
        refine ⟨result, hresult, hiff.trans ?_⟩
        rw [List.exists_mem_cons_iff, hown, ← hminutes]
        simp

end Goals

/-! ## Bands of one Target -/

section Bands

variable {context : NightContext A} {record : TargetRecord A} {place : A.Equatorial}
  {site : ObservingSite A}

theorem bandWindows_eq_ok (h : context.Sound) (hplace : position record = .ok place)
    (site : ObservingSite A) (moon : MoonCriterion A.F64) :
    ∃ windows, bandWindows context record site moon = .ok windows ∧
      longest windows = longestUnder context place moon := by
  obtain ⟨windows, hwindows, hlongest⟩ := nightWindows_withMoon h hplace site moon
  refine ⟨windows, ?_, hlongest⟩
  simp only [bandWindows, hwindows, bind, Except.bind, pure, Except.pure]

/-- The values kept so far are those of their Moon limits. -/
def Known (context : NightContext A) (place : A.Equatorial) (computed : Computed A) : Prop :=
  ∀ moon found, computed.lookup (MoonKey.of moon) = some found →
    found.1 = longestUnder context place moon

theorem underMoon_eq_ok (h : context.Sound) (hplace : position record = .ok place)
    {computed : Computed A} (hknown : Known context place computed) (moon : MoonCriterion A.F64) :
    ∃ found computed', underMoon context record site (longestUnder context place .none) computed
        moon = .ok (found, computed') ∧ found.1 = longestUnder context place moon ∧
          Known context place computed' := by
  unfold underMoon
  cases hlookup : computed.lookup (MoonKey.of moon) with
  | some found => exact ⟨found, computed, rfl, hknown moon found hlookup, hknown⟩
  | none =>
    simp only
    split
    · rename_i hfree
      have hnone := longestUnder_eq_none h (Option.isNone_iff_eq_none.mp hfree) moon
      exact ⟨(none, 0), computed, rfl, hnone.symm, hknown⟩
    · obtain ⟨windows, hwindows, hlongest⟩ := bandWindows_eq_ok h hplace site moon
      refine ⟨(longest windows, (windows.map (·.durationMinutes)).sum), computed ++
        [(MoonKey.of moon, longest windows, (windows.map (·.durationMinutes)).sum)], ?_, hlongest, ?_⟩
      · simp only [hwindows, bind, Except.bind, pure, Except.pure]
      intro moon' found hlookup'
      rw [List.lookup_append] at hlookup'
      rcases Option.or_eq_some_iff.mp hlookup' with hold | ⟨-, hnew⟩
      · exact hknown moon' found hold
      · rw [List.lookup_cons] at hnew
        split at hnew
        · rename_i hkey
          cases hnew
          rw [MoonKey.of_inj (eq_of_beq hkey)]
          exact hlongest
        · cases hnew

/-- The grade of a band by the longest window its curve leaves. -/
def bandGradeOf (context : NightContext A) (place : A.Equatorial)
    (curve : Band × MoonAvoidanceCurve A) : Band × BandGrade :=
  (curve.1, bandGrade (longestUnder context place (curveCriterion curve.2 context.moonAgeDays))
    (longestUnder context place .none))

theorem gradeBands_eq_ok (h : context.Sound) (hplace : position record = .ok place)
    {computed : Computed A} (hknown : Known context place computed)
    (curves : List (Band × MoonAvoidanceCurve A)) :
    ∃ states, gradeBands context record site (longestUnder context place .none) computed curves =
        .ok states ∧
      states.map (fun state => (state.band, state.grade)) =
        curves.map (bandGradeOf context place) := by
  induction curves generalizing computed with
  | nil => exact ⟨[], rfl, rfl⟩
  | cons curve curves ih =>
    obtain ⟨band, curve⟩ := curve
    obtain ⟨found, computed', hfound, hlongest, hknown'⟩ := @underMoon_eq_ok A context record place
      site h hplace computed hknown (curveCriterion curve context.moonAgeDays)
    obtain ⟨states, hstates, hrest⟩ := ih hknown'
    refine ⟨⟨band, bandGrade found.1 (longestUnder context place .none), found.2⟩ :: states, ?_,
      ?_⟩
    · simp only [gradeBands, hfound, hstates, bind, Except.bind, pure, Except.pure]
    · rw [List.map_cons, List.map_cons, hrest, hlongest]
      rfl

theorem gradedBands_eq_ok (h : context.Sound) (hplace : position record = .ok place)
    (site : ObservingSite A) (curves : List (Band × MoonAvoidanceCurve A)) :
    ∃ states, gradedBands context record site curves = .ok states ∧
      states.map (fun state => (state.band, state.grade)) =
        curves.map (bandGradeOf context place) := by
  obtain ⟨windows, hwindows, hlongest⟩ := bandWindows_eq_ok h hplace site .none
  obtain ⟨states, hstates, hgraded⟩ := @gradeBands_eq_ok A context record place site h hplace []
    (fun _ _ hlookup => by cases hlookup) curves
  refine ⟨states, ?_, hgraded⟩
  simp only [gradedBands, hwindows, hlongest, hstates, bind, Except.bind]

end Bands

end PlateVault.Planning
