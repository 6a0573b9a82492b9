import Mathlib.Algebra.Order.BigOperators.Group.List
import Mathlib.Algebra.Order.Group.Int
import Mathlib.Data.List.ReduceOption
import PlateVault.Planning.Sky

/-!
# The windows of a night

A window lies within one dark interval, at least a minute long. The Moon only takes time away: every
window some limit leaves lies within one the Moon-free criteria leave, before and after rounding.
-/

namespace PlateVault.Planning

variable {A : Astronomy}

/-! ## Contexts -/

/-- What every context built of a site and a night keeps to. -/
structure NightContext.Sound (context : NightContext A) : Prop where
  dark_apart : Span.Apart context.dark
  dark_within : ∀ span ∈ context.dark, span.Within context.bounds
  dark_lt : context.bounds.start < context.bounds.finish →
    ∀ span ∈ context.dark, span.start < span.finish
  start_range : minTimestamp * second ≤ context.bounds.start
  finish_range : context.bounds.finish ≤ maxTimestamp * second

theorem localNoon_range {zone : A.Zone} {date : A.Date} {instant : Int}
    (h : localNoon A zone date = .ok instant) :
    minTimestamp * second ≤ instant ∧ instant ≤ maxTimestamp * second := by
  unfold localNoon at h
  split at h
  · rename_i stamp hstamp
    cases h
    obtain ⟨hmin, hmax⟩ := A.zonedNoon_range _ _ _ hstamp
    simp only [second]
    omega
  · cases h

theorem nightBounds_range {zone : A.Zone} {night : A.Date} {bounds : Span Int}
    (h : nightBounds A zone night = .ok bounds) :
    minTimestamp * second ≤ bounds.start ∧ bounds.finish ≤ maxTimestamp * second := by
  simp only [nightBounds, Result.bind_eq_ok, Result.pure_eq_ok] at h
  obtain ⟨start, hstart, next, -, finish, hfinish, rfl⟩ := h
  exact ⟨(localNoon_range hstart).1, (localNoon_range hfinish).2⟩

theorem twilightSpan_within {outcome : TwilightOutcome} {bounds span : Span Int}
    (h : twilightSpan outcome bounds = some span) : span.Within bounds := by
  cases outcome with
  | night dusk dawn => exact (Span.clip_within h).2
  | alwaysDark =>
    cases h
    exact Span.Within.refl bounds
  | neverDark => cases h

theorem darkSpans_within {level : Darkness} {probes : List Int} {bounds : Span Int}
    {location : A.Location} :
    ∀ span ∈ darkSpans A level probes bounds location, span.Within bounds := by
  refine Span.merge_within fun span hspan => ?_
  obtain ⟨near, -, houtcome⟩ := List.mem_filterMap.mp hspan
  exact twilightSpan_within houtcome

theorem twilightSpan_lt {outcome : TwilightOutcome} {bounds span : Span Int}
    (hlt : bounds.start < bounds.finish) (h : twilightSpan outcome bounds = some span) :
    span.start < span.finish := by
  cases outcome with
  | night dusk dawn => exact Span.clip_lt h
  | alwaysDark =>
    cases h
    exact hlt
  | neverDark => cases h

theorem darkSpans_lt {level : Darkness} {probes : List Int} {bounds : Span Int}
    {location : A.Location} (hlt : bounds.start < bounds.finish) :
    ∀ span ∈ darkSpans A level probes bounds location, span.start < span.finish := by
  refine Span.merge_lt fun span hspan => ?_
  obtain ⟨near, -, houtcome⟩ := List.mem_filterMap.mp hspan
  exact twilightSpan_lt hlt houtcome

theorem NightContext.sound_of_new {site : ObservingSite A} {night : A.Date}
    {criteria : PlanCriteria A} {context : NightContext A}
    (h : NightContext.new site night criteria = .ok context) : context.Sound := by
  simp only [NightContext.new, NightContext.of, Result.bind_eq_ok, Result.pure_eq_ok] at h
  obtain ⟨_, -, zone, -, location, -, bounds, hbounds, rfl⟩ := h
  obtain ⟨hstart, hfinish⟩ := nightBounds_range hbounds
  exact ⟨Span.apart_merge _, darkSpans_within, darkSpans_lt, hstart, hfinish⟩

theorem NightContext.Sound.withMoon {context : NightContext A} (h : context.Sound)
    (moon : MoonCriterion A.F64) : (context.withMoon moon).Sound :=
  ⟨h.dark_apart, h.dark_within, h.dark_lt, h.start_range, h.finish_range⟩

/-! ## Unrounded windows -/

def Sky.moonFree (sky : Sky A) : Sky A :=
  { sky with criteria := { sky.criteria with moon := .none } }

section Spans

variable {context : NightContext A} {sky : Sky A} {span : Span Int}

theorem exists_above (h : context.Sound) (hspan : span ∈ (sky.spans context).windows) :
    span.start < span.finish ∧ ∃ visible ∈ Span.intersect context.dark (sky.spans context).above,
      span.Within visible ∧ ∃ dark ∈ context.dark, visible.Within dark := by
  obtain ⟨visible, hvisible, hin⟩ := Span.within_intersect (Span.apart_intersect _ _) span hspan
  obtain ⟨dark, hdark, hin'⟩ := Span.within_intersect h.dark_apart visible hvisible
  exact ⟨Span.intersect_lt _ _ span hspan, visible, hvisible, hin, dark, hdark, hin'⟩

theorem windows_within_bounds (h : context.Sound) (hspan : span ∈ (sky.spans context).windows) :
    span.Within context.bounds := by
  obtain ⟨-, visible, -, hin, dark, hdark, hin'⟩ := exists_above h hspan
  exact (hin.trans hin').trans (h.dark_within dark hdark)

theorem exists_moonFree (h : context.Sound) (hspan : span ∈ (sky.spans context).windows) :
    ∃ free ∈ (sky.moonFree.spans context).windows, span.Within free := by
  obtain ⟨-, visible, hvisible, hin, dark, hdark, hin'⟩ := exists_above h hspan
  obtain ⟨free, hfree, hfreein⟩ := Span.exists_intersect_bounds hvisible
    (hin'.trans (h.dark_within dark hdark)) (Span.intersect_lt _ _ visible hvisible)
  exact ⟨free, hfree, hin.trans hfreein⟩

theorem meets_moonFree {instant : Int} (h : sky.meets instant = true) :
    sky.moonFree.meets instant = true := by
  simp only [Sky.meets, Bool.and_eq_true] at h ⊢
  exact ⟨h.1, rfl⟩

end Spans

/-! ## Rounding -/

section Rounding

variable {meets : Int → Bool} {finish : Int}

theorem le_advance (steps : Nat) (start : Int) : start ≤ advance meets finish steps start := by
  induction steps generalizing start with
  | zero => exact le_rfl
  | succ steps ih =>
    rw [advance]
    split
    · have := ih (start + minute)
      simp only [minute, second] at this ⊢
      omega
    · exact le_rfl

theorem advance_mod (steps : Nat) (start : Int) :
    advance meets finish steps start % minute = start % minute := by
  induction steps generalizing start with
  | zero => rfl
  | succ steps ih =>
    rw [advance]
    split
    · rw [ih, Int.add_emod_right]
    · rfl

theorem advance_le {steps : Nat} {start instant : Int} (hle : start ≤ instant)
    (hmod : start % minute = instant % minute) (hmeets : meets instant = true) :
    advance meets finish steps start ≤ instant := by
  induction steps generalizing start with
  | zero => exact hle
  | succ steps ih =>
    rw [advance]
    split
    · rename_i hcond
      have hne : start ≠ instant := by
        rintro rfl
        simp [hmeets] at hcond
      refine ih ?_ (by rw [Int.add_emod_right, hmod])
      simp only [minute, second] at hmod ⊢
      omega
    · exact hle

theorem advance_meets {steps : Nat} {start : Int} (h : stepsBetween start finish ≤ steps) :
    finish < advance meets finish steps start ∨ meets (advance meets finish steps start) = true := by
  induction steps generalizing start with
  | zero =>
    left
    simp only [stepsBetween, minute, second] at h
    rw [advance]
    omega
  | succ steps ih =>
    rw [advance]
    split
    · apply ih
      simp only [stepsBetween, minute, second] at h ⊢
      omega
    · rename_i hcond
      simp only [Bool.and_eq_true, decide_eq_true_eq, Bool.not_eq_true', not_and,
        Bool.not_eq_false] at hcond
      by_cases hle : start ≤ finish
      · exact .inr (hcond hle)
      · exact .inl (not_le.mp hle)

variable {start : Int}

theorem retreat_le (steps : Nat) (finish : Int) : retreat meets start steps finish ≤ finish := by
  induction steps generalizing finish with
  | zero => exact le_rfl
  | succ steps ih =>
    rw [retreat]
    split
    · have := ih (finish - minute)
      simp only [minute, second] at this ⊢
      omega
    · exact le_rfl

theorem retreat_mod (steps : Nat) (finish : Int) :
    retreat meets start steps finish % minute = finish % minute := by
  induction steps generalizing finish with
  | zero => rfl
  | succ steps ih =>
    rw [retreat]
    split
    · rw [ih, Int.sub_emod_right]
    · rfl

theorem le_retreat {steps : Nat} {finish instant : Int} (hle : instant ≤ finish)
    (hmod : finish % minute = instant % minute) (hmeets : meets instant = true) :
    instant ≤ retreat meets start steps finish := by
  induction steps generalizing finish with
  | zero => exact hle
  | succ steps ih =>
    rw [retreat]
    split
    · rename_i hcond
      have hne : finish ≠ instant := by
        rintro rfl
        simp [hmeets] at hcond
      refine ih ?_ (by rw [Int.sub_emod_right, hmod])
      simp only [minute, second] at hmod ⊢
      omega
    · exact hle

theorem retreat_meets {steps : Nat} {finish : Int} (h : stepsBetween start finish ≤ steps) :
    retreat meets start steps finish < start ∨ meets (retreat meets start steps finish) = true := by
  induction steps generalizing finish with
  | zero =>
    left
    simp only [stepsBetween, minute, second] at h
    rw [retreat]
    omega
  | succ steps ih =>
    rw [retreat]
    split
    · apply ih
      simp only [stepsBetween, minute, second] at h ⊢
      omega
    · rename_i hcond
      simp only [Bool.and_eq_true, decide_eq_true_eq, Bool.not_eq_true', not_and,
        Bool.not_eq_false] at hcond
      by_cases hle : start ≤ finish
      · exact .inr (hcond hle)
      · exact .inl (not_le.mp hle)

end Rounding

section RoundInward

variable {sky : Sky A} {span rounded : Span Int}

theorem ceil_le {start instant : Int} (hle : start ≤ instant) (hmod : instant % minute = 0) :
    (if floorMinute start < start then floorMinute start + minute else floorMinute start) ≤
      instant := by
  split
  · simp only [floorMinute, minute, second] at *
    omega
  · simp only [floorMinute, minute, second] at *
    omega

theorem le_ceil (start : Int) :
    start ≤ if floorMinute start < start then floorMinute start + minute else floorMinute start := by
  split
  · simp only [floorMinute, minute, second] at *
    omega
  · simp only [floorMinute, minute, second] at *
    omega

theorem ceil_mod (start : Int) :
    (if floorMinute start < start then floorMinute start + minute else floorMinute start) %
      minute = 0 := by
  split
  · simp only [floorMinute, minute, second] at *
    omega
  · simp only [floorMinute, minute, second] at *
    omega

theorem floorMinute_mod (instant : Int) : floorMinute instant % minute = 0 := by
  simp only [floorMinute, minute, second]
  omega

theorem floorMinute_le (instant : Int) : floorMinute instant ≤ instant := by
  simp only [floorMinute, minute, second]
  omega

theorem le_floorMinute {instant other : Int} (hle : instant ≤ other) (hmod : instant % minute = 0) :
    instant ≤ floorMinute other := by
  simp only [floorMinute, minute, second] at *
  omega

theorem roundInward_eq_some (h : roundInward sky span = some rounded) :
    rounded.Within span ∧ rounded.start < rounded.finish ∧ rounded.start % minute = 0 ∧
      rounded.finish % minute = 0 ∧ sky.meets rounded.start = true ∧
        sky.meets rounded.finish = true := by
  unfold roundInward at h
  simp only at h
  generalize hceil : (if floorMinute span.start < span.start then floorMinute span.start + minute
    else floorMinute span.start) = first at h
  have hfirst : span.start ≤ first ∧ first % minute = 0 := by
    rw [← hceil]
    exact ⟨le_ceil _, ceil_mod _⟩
  generalize hlast : floorMinute span.finish = last at h
  have hlast' : last ≤ span.finish ∧ last % minute = 0 := by
    rw [← hlast]
    exact ⟨floorMinute_le _, floorMinute_mod _⟩
  generalize hstart : advance sky.meets last (stepsBetween first last) first = start at h
  generalize hfinish : retreat sky.meets start (stepsBetween start last) last = finish at h
  split at h
  swap
  · cases h
  rename_i hlt
  cases h
  have hle : first ≤ start := hstart ▸ le_advance _ _
  have hle' : finish ≤ last := hfinish ▸ retreat_le _ _
  have hmeets : last < start ∨ sky.meets start = true := hstart ▸ advance_meets le_rfl
  have hmeets' : finish < start ∨ sky.meets finish = true := hfinish ▸ retreat_meets le_rfl
  refine ⟨⟨hfirst.1.trans hle, hle'.trans hlast'.1⟩, hlt, ?_, ?_, ?_, ?_⟩
  · rw [← hstart, advance_mod]
    exact hfirst.2
  · rw [← hfinish, retreat_mod]
    exact hlast'.2
  · rcases hmeets with hpast | hmeets
    · exact absurd (hlt.trans_le hle') hpast.not_gt
    · exact hmeets
  · rcases hmeets' with hpast | hmeets'
    · exact absurd hlt hpast.not_gt
    · exact hmeets'

theorem roundInward_of_meets {minutes : Span Int} (hin : minutes.Within span)
    (hlt : minutes.start < minutes.finish) (hmod : minutes.start % minute = 0)
    (hmod' : minutes.finish % minute = 0) (hmeets : sky.meets minutes.start = true)
    (hmeets' : sky.meets minutes.finish = true) :
    ∃ rounded, roundInward sky span = some rounded ∧ minutes.Within rounded := by
  unfold roundInward
  simp only
  generalize hceil : (if floorMinute span.start < span.start then floorMinute span.start + minute
    else floorMinute span.start) = first
  have hfirst : first ≤ minutes.start ∧ first % minute = 0 := by
    rw [← hceil]
    exact ⟨ceil_le hin.1 hmod, ceil_mod _⟩
  have hlast := le_floorMinute hin.2 hmod'
  have hlastmod := floorMinute_mod span.finish
  generalize floorMinute span.finish = last at hlast hlastmod ⊢
  have hstart : advance sky.meets last (stepsBetween first last) first ≤ minutes.start :=
    advance_le hfirst.1 (hfirst.2.trans hmod.symm) hmeets
  generalize advance sky.meets last (stepsBetween first last) first = start at hstart ⊢
  have hfinish : minutes.finish ≤ retreat sky.meets start (stepsBetween start last) last :=
    le_retreat hlast (hlastmod.trans hmod'.symm) hmeets'
  generalize retreat sky.meets start (stepsBetween start last) last = finish at hfinish ⊢
  rw [if_pos (hstart.trans_lt (hlt.trans_le hfinish))]
  exact ⟨_, rfl, hstart, hfinish⟩

theorem saturate32_mono {m n : Int} (hm : 0 ≤ m) (h : m ≤ n) : saturate32 m ≤ saturate32 n := by
  unfold saturate32
  split <;> split <;> omega

theorem minutesOf_mono {a b : Span Int} (h : a.Within b) (hlt : a.start < a.finish) :
    minutesOf a ≤ minutesOf b := by
  obtain ⟨hstart, hfinish⟩ := h
  refine saturate32_mono (Int.tdiv_nonneg (by omega) (by simp [minute, second])) ?_
  rw [Int.tdiv_eq_ediv_of_nonneg (by omega), Int.tdiv_eq_ediv_of_nonneg (by omega)]
  exact Int.ediv_le_ediv (by simp [minute, second]) (by omega)

end RoundInward

/-! ## Listed windows -/

section Listed

variable {context : NightContext A} {sky : Sky A} {span : Span Int}

def listedMinutes (sky : Sky A) (span : Span Int) : Option Nat :=
  (roundInward sky span).bind fun rounded =>
    if minutesOf rounded < sky.criteria.minDurationMinutes then none else some (minutesOf rounded)

def durations (sky : Sky A) (context : NightContext A) : List Nat :=
  (sky.spans context).windows.filterMap (listedMinutes sky)

theorem mem_durations {minutes : Nat} :
    minutes ∈ durations sky context ↔ ∃ span ∈ (sky.spans context).windows, ∃ rounded,
      roundInward sky span = some rounded ∧
        sky.criteria.minDurationMinutes ≤ minutesOf rounded ∧ minutesOf rounded = minutes := by
  simp only [durations, listedMinutes, List.mem_filterMap, Option.bind_eq_some_iff,
    Option.ite_none_left_eq_some, not_lt, Option.some.injEq]

theorem exists_duration_moonFree (h : context.Sound) {minutes : Nat}
    (hminutes : minutes ∈ durations sky context) :
    ∃ free ∈ durations sky.moonFree context, minutes ≤ free := by
  obtain ⟨span, hspan, rounded, hround, hleast, rfl⟩ := mem_durations.mp hminutes
  obtain ⟨free, hfree, hin⟩ := exists_moonFree h hspan
  obtain ⟨hwithin, hlt, hmod, hmod', hmeets, hmeets'⟩ := roundInward_eq_some hround
  obtain ⟨rounded', hround', hlonger⟩ := roundInward_of_meets (hwithin.trans hin) hlt hmod hmod'
    (meets_moonFree hmeets) (meets_moonFree hmeets')
  have hle := minutesOf_mono hlonger hlt
  exact ⟨minutesOf rounded', mem_durations.mpr ⟨free, hfree, rounded', hround',
    hleast.trans hle, rfl⟩, hle⟩

theorem wholeSecond_le (instant : Int) : wholeSecond instant ≤ instant + second / 2 := by
  unfold wholeSecond
  simp only
  split
  · simp only [second] at *
    omega
  · simp only [second] at *
    omega

theorem le_wholeSecond (instant : Int) : instant ≤ wholeSecond instant + second / 2 := by
  unfold wholeSecond
  simp only
  split
  · simp only [second] at *
    omega
  · simp only [second] at *
    omega

theorem wholeSecond_mono {a b : Int} (h : a ≤ b) : wholeSecond a ≤ wholeSecond b := by
  unfold wholeSecond
  simp only
  split
  · split
    · simp only [second] at *
      omega
    · simp only [second] at *
      omega
  · split
    · simp only [second] at *
      omega
    · simp only [second] at *
      omega

theorem durations_of_darkSeconds (h : context.Sound) (hdark : context.darkSeconds = 0) :
    durations sky context = [] := by
  refine List.eq_nil_iff_forall_not_mem.mpr fun minutes hminutes => ?_
  obtain ⟨span, hspan, rounded, hround, -, -⟩ := mem_durations.mp hminutes
  obtain ⟨hwithin, hlt, hmod, hmod', -, -⟩ := roundInward_eq_some hround
  obtain ⟨-, visible, -, hin, dark, hmem, hin'⟩ := exists_above h hspan
  obtain ⟨hstart, hfinish⟩ := (hwithin.trans hin).trans hin'
  obtain ⟨hlow, hhigh⟩ := h.dark_within dark hmem
  have hterm : ∀ a b : Int, a < b → 0 ≤ (wholeSecond b - wholeSecond a).tdiv second :=
    fun a b hab => Int.tdiv_nonneg (Int.sub_nonneg_of_le (wholeSecond_mono hab.le)) (by decide)
  have hpos : 0 < (wholeSecond dark.finish - wholeSecond dark.start).tdiv second := by
    have hle := le_wholeSecond dark.finish
    have hle' := wholeSecond_le dark.start
    rw [Int.tdiv_eq_ediv_of_nonneg (Int.sub_nonneg_of_le (wholeSecond_mono (by omega)))]
    simp only [minute, second] at *
    omega
  have hsum : 0 < (context.dark.map fun span =>
      (wholeSecond span.finish - wholeSecond span.start).tdiv second).sum := by
    have hall := h.dark_lt (by omega)
    refine hpos.trans_le (List.single_le_sum (fun term hterm' => ?_) _
      (List.mem_map.mpr ⟨dark, hmem, rfl⟩))
    obtain ⟨other, hother, rfl⟩ := List.mem_map.mp hterm'
    exact hterm _ _ (hall other hother)
  unfold NightContext.darkSeconds saturate32 at hdark
  split at hdark
  · omega
  · omega

theorem localTime_of_range {zone : A.Zone} {instant : Int}
    (hmin : minTimestamp * second ≤ instant) (hmax : instant ≤ maxTimestamp * second) :
    ∃ localTime', localTime A zone instant = .ok localTime' := by
  have hstamp : ¬(instant / second < minTimestamp ∨ maxTimestamp < instant / second) := by
    simp only [minTimestamp, maxTimestamp, second] at *
    omega
  obtain ⟨hlow, hhigh⟩ := A.zoneOffset_range zone (instant / second)
  refine ⟨⟨instant, A.zoneOffset zone (instant / second)⟩, ?_⟩
  unfold localTime offsetAt
  simp only
  rw [if_neg (by simpa using hstamp), if_neg (by simp only [Bool.or_eq_true, decide_eq_true_eq]; omega)]
  rfl

theorem planWindow_eq_ok (h : context.Sound) (hspan : span.Within context.bounds) (zone : A.Zone)
    (target : TargetRecord A) (site : ObservingSite A) (night : A.Date) :
    ∃ window, planWindow sky zone target site night span = .ok window ∧
      window.map (·.durationMinutes) = listedMinutes sky span := by
  unfold planWindow listedMinutes
  cases hround : roundInward sky span with
  | none => exact ⟨none, rfl, rfl⟩
  | some rounded =>
    simp only [Option.bind_some]
    split
    · exact ⟨none, rfl, rfl⟩
    · obtain ⟨hin, hlt, hmod, -, -, -⟩ := roundInward_eq_some hround
      obtain ⟨hstart, hfinish⟩ := hin.trans hspan
      have hstart' := h.start_range.trans hstart
      have hfinish' := hfinish.trans h.finish_range
      obtain ⟨startLocal, hstartLocal⟩ :=
        @localTime_of_range A zone _ hstart' (hlt.le.trans hfinish')
      obtain ⟨endLocal, hendLocal⟩ :=
        @localTime_of_range A zone _ (hstart'.trans hlt.le) hfinish'
      refine ⟨some ⟨⟨target.id, site.id, rounded.start⟩, rounded.start, rounded.finish, startLocal,
        endLocal, site.timeZone, minutesOf rounded, night, site.name,
        sky.peakAltitude rounded.start rounded.finish⟩, ?_, rfl⟩
      rw [WindowKey.new, if_neg (by simp [hmod]), hstartLocal, hendLocal]
      rfl

theorem mapM_eq_ok {α β γ : Type} {f : α → Result (Option β)} {duration : β → γ}
    {listed : α → Option γ} {as : List α}
    (h : ∀ a ∈ as, ∃ b, f a = .ok b ∧ b.map duration = listed a) :
    ∃ bs, as.mapM f = .ok bs ∧ bs.reduceOption.map duration = as.filterMap listed := by
  induction as with
  | nil => exact ⟨[], rfl, rfl⟩
  | cons a as ih =>
    obtain ⟨b, hb, hlisted⟩ := h a List.mem_cons_self
    obtain ⟨bs, hbs, hrest⟩ := ih fun a' ha' => h a' (List.mem_cons_of_mem _ ha')
    refine ⟨b :: bs, ?_, ?_⟩
    · rw [List.mapM_cons, hb, hbs]
      rfl
    · cases b with
      | none =>
        rw [List.reduceOption_cons_of_none, hrest, List.filterMap_cons, ← hlisted]
        rfl
      | some b =>
        rw [List.reduceOption_cons_of_some, List.map_cons, hrest, List.filterMap_cons, ← hlisted]
        rfl

theorem nightWindows_eq_ok (h : context.Sound) {target : TargetRecord A} {place : A.Equatorial}
    (hplace : position target = .ok place) (site : ObservingSite A) :
    ∃ windows, nightWindows context target site = .ok (.ok windows) ∧
      windows.map (·.durationMinutes) =
        durations ⟨place, context.location, context.criteria⟩ context := by
  obtain ⟨windows, hwindows, hdurations⟩ := mapM_eq_ok
    (f := planWindow ⟨place, context.location, context.criteria⟩ context.zone target site
      context.night) fun span hspan =>
        planWindow_eq_ok h (windows_within_bounds h hspan) context.zone target site context.night
  refine ⟨windows.reduceOption, ?_, hdurations⟩
  have hspans : (Sky.spans ⟨place, context.location, context.criteria⟩ context).night =
      context.night := rfl
  simp only [nightWindows, planNight, hplace, hspans, hwindows]
  rfl

end Listed

end PlateVault.Planning
