import PlateVault.Lib.Search
import PlateVault.Planning.Graded

/-!
# The next good night and the Targets list agree with the night's grades

The search for the next good night answers the first night `gradeNight` gives a goal that suits, and
a band of the Targets list is graded as a goal of the Target under that band.
-/

namespace PlateVault.Planning

variable {A : Astronomy} {goals : List (UnfinishedGoal A)} {site : ObservingSite A}
  {criteria : PlanCriteria A} {avoidance : MoonAvoidance A}

/-- Whether `gradeNight` over the night's context has a goal that suits. -/
def suitsOn (goals : List (UnfinishedGoal A)) (site : ObservingSite A) (criteria : PlanCriteria A)
    (avoidance : MoonAvoidance A) (night : A.Date) : Result Bool := do
  let context ← NightContext.new site night criteria
  let graded ← gradeNight goals site context avoidance
  pure (graded.any (·.grade.suits))

/-! ## One night -/

theorem suitsOn_eq_ok (hgoals : Consistent goals) {night : A.Date} {context : NightContext A}
    (hcontext : NightContext.new site night criteria = .ok context) :
    ∃ suits, suitsOn goals site criteria avoidance night = .ok suits ∧
      (suits = true ↔ ∃ goal ∈ goals, HasWindow context avoidance goal) := by
  obtain ⟨graded, entries, hgraded, hperm, hentries⟩ :=
    @gradeNight_eq_ok A context avoidance site (NightContext.sound_of_new hcontext) goals hgoals
  refine ⟨graded.any (·.grade.suits), ?_, ?_⟩
  · simp only [suitsOn, hcontext, hgraded, bind, Except.bind, pure, Except.pure]
  · rw [← any_suits hentries, List.any_eq_true, List.any_eq_true]
    simp only [hperm.mem_iff]

theorem exists_gradable {context : NightContext A} :
    (∃ goal ∈ goals.filter (·.ungraded.isNone), HasWindow context avoidance goal) ↔
      ∃ goal ∈ goals, HasWindow context avoidance goal := by
  constructor
  · rintro ⟨goal, hgoal, hwindow⟩
    exact ⟨goal, (List.mem_filter.mp hgoal).1, hwindow⟩
  · rintro ⟨goal, hgoal, hwindow⟩
    obtain ⟨band, place, hungraded, -⟩ := id hwindow
    exact ⟨goal, List.mem_filter.mpr ⟨hgoal, by simp [hungraded]⟩, hwindow⟩

theorem searchNights_succ (hgoals : Consistent goals) (nights : Nat) (candidate : A.Date) :
    searchNights (goals.filter (·.ungraded.isNone)) site criteria avoidance (nights + 1) candidate =
      (do
        let next ← Result.orElse (A.nextDay candidate) (.invalidInput
          ("night after " ++ A.displayDate candidate ++ " is outside the supported calendar"))
        if ← suitsOn goals site criteria avoidance next then pure (.night next)
        else
          searchNights (goals.filter (·.ungraded.isNone)) site criteria avoidance nights next) := by
  rw [searchNights]
  cases hnext : A.nextDay candidate with
  | none => rfl
  | some next =>
    cases hcontext : NightContext.new site next criteria with
    | error error =>
      simp only [Result.orElse, hcontext, suitsOn, bind, Except.bind]
    | ok context =>
      have hsound := NightContext.sound_of_new hcontext
      obtain ⟨suits, hsuits, hiff⟩ :=
        @suitsOn_eq_ok A goals site criteria avoidance hgoals next context hcontext
      obtain ⟨found, hfound, hiff'⟩ := @tryGoals_eq_ok A context avoidance site hsound goals
        (goals.filter (·.ungraded.isNone)) hgoals
        (fun goal hgoal => by
          obtain ⟨hmem, hnone⟩ := List.mem_filter.mp hgoal
          exact ⟨hmem, by simpa using hnone⟩)
        [] (fun _ _ _ hkey => by cases hkey)
      have heq : suits = found := by
        rw [Bool.eq_iff_iff, hiff, hiff', exists_gradable]
      subst heq
      simp only [Result.orElse, hcontext, hsuits, hfound, bind, Except.bind]
      split
      · rename_i hdark
        have hfalse : suits = false := by
          rw [Bool.eq_false_iff, ne_eq, hiff]
          rintro ⟨goal, -, band, place, -, -, -, hwindow⟩
          exact hwindow (longestUnder_of_darkSeconds hsound hdark _)
        rw [hfalse]
        rfl
      · rfl

/-! ## The search -/

def outsideCalendar (A : Astronomy) (candidate : A.Date) : LibraryError :=
  .invalidInput
    ("night after " ++ A.displayDate candidate ++ " is outside the supported calendar")

def answerOf : Option A.Date → NextGoodNight A
  | some night => .night night
  | none => .noneWithin nextGoodNightSearch

theorem searchNights_eq_first (hgoals : Consistent goals) (nights : Nat) (candidate : A.Date) :
    searchNights (goals.filter (·.ungraded.isNone)) site criteria avoidance nights candidate =
      (Search.first A.nextDay (outsideCalendar A) (suitsOn goals site criteria avoidance) nights
        candidate).map answerOf := by
  induction nights generalizing candidate with
  | zero => rfl
  | succ nights ih =>
    rw [searchNights_succ hgoals, Search.first_succ]
    cases hnext : A.nextDay candidate with
    | none => rfl
    | some next =>
      simp only [Result.orElse, bind, Except.bind]
      cases hsuits : suitsOn goals site criteria avoidance next with
      | error error => rfl
      | ok suits =>
        cases suits with
        | true => rfl
        | false => exact ih next

theorem nextGoodNight_eq (hgoals : Consistent goals) (night : A.Date)
    (h : ∃ goal ∈ goals, goal.ungraded = none) :
    nextGoodNight goals site night criteria avoidance =
      (Search.first A.nextDay (outsideCalendar A) (suitsOn goals site criteria avoidance)
        nextGoodNightSearch night).map answerOf := by
  obtain ⟨goal, hgoal, hungraded⟩ := h
  unfold nextGoodNight
  rw [if_neg, searchNights_eq_first hgoals]
  rw [List.isEmpty_iff, List.filter_eq_nil_iff]
  exact fun hall => hall goal hgoal (by simp [hungraded])

theorem nextGoodNight_of_ungraded (night : A.Date) (h : ∀ goal ∈ goals, goal.ungraded ≠ none) :
    nextGoodNight goals site night criteria avoidance = .ok .noGradableGoal := by
  unfold nextGoodNight
  rw [if_pos]
  rw [List.isEmpty_iff, List.filter_eq_nil_iff]
  exact fun goal hgoal hnone => h goal hgoal (by simpa using hnone)

theorem exists_gradable_of_suits (hgoals : Consistent goals) {night : A.Date}
    (h : suitsOn goals site criteria avoidance night = .ok true) :
    ∃ goal ∈ goals, goal.ungraded = none := by
  cases hcontext : NightContext.new site night criteria with
  | error error =>
    simp only [suitsOn, hcontext, bind, Except.bind] at h
    cases h
  | ok context =>
    obtain ⟨suits, hsuits, hiff⟩ :=
      @suitsOn_eq_ok A goals site criteria avoidance hgoals night context hcontext
    cases hsuits.symm.trans h
    obtain ⟨goal, hgoal, _, _, hungraded, -⟩ := hiff.mp rfl
    exact ⟨goal, hgoal, hungraded⟩

section Answers

variable (hgoals : Consistent goals) {night : A.Date}

include hgoals

theorem nextGoodNight_eq_night {found : A.Date} :
    nextGoodNight goals site night criteria avoidance = .ok (.night found) ↔
      ∃ k < nextGoodNightSearch, Search.PassesAt A.nextDay (suitsOn goals site criteria avoidance)
        night k found := by
  rw [← @Search.first_eq_some _ _ _ _ (outsideCalendar A)]
  by_cases h : ∃ goal ∈ goals, goal.ungraded = none
  · rw [nextGoodNight_eq hgoals night h]
    cases Search.first A.nextDay (outsideCalendar A) (suitsOn goals site criteria avoidance)
        nextGoodNightSearch night with
    | error error => simp [Except.map]
    | ok answer => cases answer <;> simp [Except.map, answerOf]
  · rw [nextGoodNight_of_ungraded night fun goal hgoal hnone => h ⟨goal, hgoal, hnone⟩]
    refine iff_of_false (by simp) fun hfirst => ?_
    obtain ⟨k, -, -, hsuits, -⟩ := Search.first_eq_some.mp hfirst
    exact h (exists_gradable_of_suits hgoals hsuits)

theorem nextGoodNight_eq_noneWithin {nights : Nat} :
    nextGoodNight goals site night criteria avoidance = .ok (.noneWithin nights) ↔
      nights = nextGoodNightSearch ∧ (∃ goal ∈ goals, goal.ungraded = none) ∧
        Search.FailsUpTo A.nextDay (suitsOn goals site criteria avoidance) night
          nextGoodNightSearch := by
  by_cases h : ∃ goal ∈ goals, goal.ungraded = none
  · rw [nextGoodNight_eq hgoals night h, ← @Search.first_eq_none _ _ _ _ (outsideCalendar A)]
    cases Search.first A.nextDay (outsideCalendar A) (suitsOn goals site criteria avoidance)
        nextGoodNightSearch night with
    | error error => simp [Except.map]
    | ok answer =>
      cases answer with
      | none => simp [Except.map, answerOf, eq_comm (a := nights), h]
      | some found => simp [Except.map, answerOf]
  · rw [nextGoodNight_of_ungraded night fun goal hgoal hnone => h ⟨goal, hgoal, hnone⟩]
    simp [h]

theorem nextGoodNight_eq_noGradableGoal :
    nextGoodNight goals site night criteria avoidance = .ok .noGradableGoal ↔
      ∀ goal ∈ goals, goal.ungraded ≠ none := by
  constructor
  · intro h goal hgoal hungraded
    rw [nextGoodNight_eq hgoals night ⟨goal, hgoal, hungraded⟩] at h
    cases hfirst : Search.first A.nextDay (outsideCalendar A)
        (suitsOn goals site criteria avoidance) nextGoodNightSearch night with
    | error error => simp [hfirst, Except.map] at h
    | ok answer => cases answer <;> simp [hfirst, Except.map, answerOf] at h
  · exact nextGoodNight_of_ungraded night

theorem nextGoodNight_eq_error {error : LibraryError}
    (h : nextGoodNight goals site night criteria avoidance = .error error) :
    ∃ k < nextGoodNightSearch,
      Search.FailsUpTo A.nextDay (suitsOn goals site criteria avoidance) night k ∧
        (Search.after A.nextDay night (k + 1) = none ∨
          ∃ other, Search.after A.nextDay night (k + 1) = some other ∧
            NightContext.new site other criteria = .error error) := by
  by_cases hgradable : ∃ goal ∈ goals, goal.ungraded = none
  · rw [nextGoodNight_eq hgoals night hgradable] at h
    cases hfirst : Search.first A.nextDay (outsideCalendar A)
        (suitsOn goals site criteria avoidance) nextGoodNightSearch night with
    | ok answer => simp [hfirst, Except.map] at h
    | error error' =>
      simp only [hfirst, Except.map, Except.error.injEq] at h
      subst h
      obtain ⟨k, hk, hfails, hend⟩ := Search.first_eq_error hfirst
      refine ⟨k, hk, hfails, hend.imp_right ?_⟩
      rintro ⟨other, hother, htest⟩
      refine ⟨other, hother, ?_⟩
      cases hcontext : NightContext.new site other criteria with
      | error error'' =>
        simp only [suitsOn, hcontext, bind, Except.bind, Except.error.injEq] at htest
        rw [htest]
      | ok context =>
        obtain ⟨suits, hsuits, -⟩ :=
          @suitsOn_eq_ok A goals site criteria avoidance hgoals other context hcontext
        cases hsuits.symm.trans htest
  · rw [nextGoodNight_of_ungraded night fun goal hgoal hnone => hgradable ⟨goal, hgoal, hnone⟩] at h
    cases h

end Answers

/-! ## Bands -/

theorem band_grade_eq {context : NightContext A} (h : context.Sound) {goal : UnfinishedGoal A}
    {entry : NightGrade A} (hentry : GradedAs context avoidance goal entry)
    (hungraded : goal.ungraded = none) {band : Band}
    (hband : strictestBand goal avoidance context.moonAgeDays = some band) {strip : List Band}
    {states : List BandState}
    (hstates : gradedBands context goal.target site
      (strip.map fun band => (band, avoidance.curve band)) = .ok states) :
    ∀ state ∈ states, state.band = band → entry.grade.grade = some state.grade := by
  obtain ⟨-, place, hplace⟩ := position_of_ungraded hungraded
  obtain ⟨states', hstates', hgraded⟩ :=
    gradedBands_eq_ok h hplace site (strip.map fun band => (band, avoidance.curve band))
  cases hstates.symm.trans hstates'
  intro state hstate heq
  have hmem : (state.band, state.grade) ∈ states.map fun state => (state.band, state.grade) :=
    List.mem_map.mpr ⟨state, hstate, rfl⟩
  rw [hgraded] at hmem
  obtain ⟨curve, hcurve, hpair⟩ := List.mem_map.mp hmem
  obtain ⟨listed, -, rfl⟩ := List.mem_map.mp hcurve
  simp only [bandGradeOf, Prod.mk.injEq] at hpair
  obtain ⟨hname, hgrade⟩ := hpair
  rw [(hentry.of_gradable band place hungraded hband hplace).2, ← hgrade, ← heq, ← hname]
  rfl

/-- The next good night is the first of the nights searched that `gradeNight` gives a goal that
suits, none where none of them does, and none gradable where no goal is. Over any night's context
every band of a goal's Target is graded, and the one that grades the goal as the goal is. -/
theorem planning_agrees (goals : List (UnfinishedGoal A)) (site : ObservingSite A)
    (criteria : PlanCriteria A) (avoidance : MoonAvoidance A) (hgoals : Consistent goals) :
    (∀ night found, nextGoodNight goals site night criteria avoidance = .ok (.night found) ↔
      ∃ k < nextGoodNightSearch,
        Search.PassesAt A.nextDay (suitsOn goals site criteria avoidance) night k found) ∧
    (∀ night nights,
      nextGoodNight goals site night criteria avoidance = .ok (.noneWithin nights) ↔
        nights = nextGoodNightSearch ∧ (∃ goal ∈ goals, goal.ungraded = none) ∧
          Search.FailsUpTo A.nextDay (suitsOn goals site criteria avoidance) night
            nextGoodNightSearch) ∧
    (∀ night, nextGoodNight goals site night criteria avoidance = .ok .noGradableGoal ↔
      ∀ goal ∈ goals, goal.ungraded ≠ none) ∧
    (∀ night error, nextGoodNight goals site night criteria avoidance = .error error →
      ∃ k < nextGoodNightSearch,
        Search.FailsUpTo A.nextDay (suitsOn goals site criteria avoidance) night k ∧
          (Search.after A.nextDay night (k + 1) = none ∨
            ∃ other, Search.after A.nextDay night (k + 1) = some other ∧
              NightContext.new site other criteria = .error error)) ∧
    ∀ night context, NightContext.new site night criteria = .ok context →
      (∀ (record : TargetRecord A) (strip : List Band), positionUnavailable record = none →
        ∃ states, gradedBands context record site
          (strip.map fun band => (band, avoidance.curve band)) = .ok states ∧
            states.map (·.band) = strip) ∧
      ∃ graded entries, gradeNight goals site context avoidance = .ok graded ∧
        entries.Perm graded ∧ List.Forall₂ (fun goal entry =>
          entry.grade.goalId = goal.goalId ∧ ∀ (strip : List Band) band states,
            goal.ungraded = none →
            strictestBand goal avoidance context.moonAgeDays = some band →
            gradedBands context goal.target site
              (strip.map fun band => (band, avoidance.curve band)) = .ok states →
            ∀ state ∈ states, state.band = band → entry.grade.grade = some state.grade)
          goals entries := by
  refine ⟨fun _ _ => nextGoodNight_eq_night hgoals, fun _ _ => nextGoodNight_eq_noneWithin hgoals,
    fun _ => nextGoodNight_eq_noGradableGoal hgoals, fun _ _ => nextGoodNight_eq_error hgoals,
    fun night context hcontext => ⟨fun record strip hrecord => ?_, ?_⟩⟩
  · obtain ⟨place, hplace⟩ := position_of_available hrecord
    obtain ⟨states, hstates, hgraded⟩ := gradedBands_eq_ok (NightContext.sound_of_new hcontext)
      hplace site (strip.map fun band => (band, avoidance.curve band))
    refine ⟨states, hstates, ?_⟩
    have hbands := congrArg (List.map Prod.fst) hgraded
    simpa only [List.map_map, Function.comp_def, bandGradeOf, List.map_id'] using hbands
  · obtain ⟨graded, entries, hgraded, hperm, hentries⟩ :=
      @gradeNight_eq_ok A context avoidance site (NightContext.sound_of_new hcontext) goals hgoals
    refine ⟨graded, entries, hgraded, hperm, hentries.imp fun goal entry hentry => ?_⟩
    exact ⟨hentry.goalId, fun strip band states hungraded hband hstates =>
      band_grade_eq (NightContext.sound_of_new hcontext) hentry hungraded hband hstates⟩

/-! ## A sky that darkens -/

def day : Int := 86400

/-- A sky over one place: the Moon never rises, and from the fifth night on it is dark from 20:00 to
04:00. -/
abbrev steadySky : Astronomy where
  toFloats := Floats.thousandths
  Location := Unit
  Equatorial := Int
  Zone := Unit
  Date := Int
  synodicDays := (29531 : Int)
  newLocation _ _ _ := .ok ()
  j2000 _ dec := some dec
  altAz place _ _ := place
  sunPosition _ := (-30000 : Int)
  moonPositionTopocentric _ _ := (-30000 : Int)
  lunarSeparation _ _ _ := (90000 : Int)
  altitudeCrossings _ _ _ _ := .alwaysAbove
  moonCrossings _ _ _ := .neverAbove
  twilight _ near _ :=
    let noon := ((near / second - day / 2) / day * day + day / 2) * second
    if near / second / day < 6 then .neverDark
    else .night (noon + 480 * minute) (noon + 960 * minute)
  transit _ near _ := near
  moonPhaseAngle _ := (0 : Int)
  getZone _ := some ()
  ianaName _ := some "UTC".toList
  isUnknown _ := false
  zoneOffset _ _ := 0
  zonedNoon _ date :=
    if minTimestamp ≤ date * day + day / 2 ∧ date * day + day / 2 ≤ maxTimestamp then
      some (date * day + day / 2)
    else none
  nextDay date := some (date + 1)
  displayDate date := toString date
  displayInstant instant := toString instant
  debug text := String.ofList text
  zoneOffset_range _ _ := by decide
  zonedNoon_range _ _ _ h := by
    split at h
    · rename_i hrange
      cases h
      exact hrange
    · cases h

def home : ObservingSite steadySky :=
  ⟨1, "Home".toList, (52000 : Int), (4000 : Int), none, "UTC".toList⟩

def anHour : PlanCriteria steadySky := ⟨(30000 : Int), .astronomical, .none, 60⟩

def everyBand : MoonAvoidance steadySky :=
  let curve : MoonAvoidanceCurve steadySky := ⟨(120000 : Int), (14000 : Int)⟩
  ⟨curve, curve, curve, curve, curve, curve, curve⟩

def highGoal : UnfinishedGoal steadySky where
  projectId := 1
  projectName := "Nebula".toList
  goalId := 2
  subjectId := 3
  groupId := none
  target := ⟨4, "M 81".toList, some ⟨(149000 : Int), (69000 : Int), "ICRS".toList⟩⟩
  channel := some "Ha".toList
  bands := [.ha, .oiii]

theorem planning_agrees_of_a_goal :
    ∃ k < nextGoodNightSearch, Search.PassesAt steadySky.nextDay
      (suitsOn [highGoal] home anHour everyBand) (3 : Int) k (5 : Int) := by
  have hconsistent : Consistent [highGoal] := by
    intro goal hgoal other hother _
    rw [List.mem_singleton.mp hgoal, List.mem_singleton.mp hother]
  have hnight : nextGoodNight [highGoal] home (3 : Int) anHour everyBand =
      .ok (.night (5 : Int)) := by
    with_unfolding_all rfl
  exact ((planning_agrees [highGoal] home anHour everyBand hconsistent).1 (3 : Int) (5 : Int)).mp
    hnight

end PlateVault.Planning
