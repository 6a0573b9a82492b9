import PlateVault.Lib.SpanSets
import PlateVault.Planning.Agree

/-!
# The windows a night lists

Where a condition changes between two samples the search ends within a second of the change, at a
point that meets it. The windows of a night come from the intervals so found: each lies within one
dark interval, one above the altitude and one the Moon allows, and keeps to its ends, to whole
minutes and to the least duration when it is rounded.
-/

namespace PlateVault.Planning

variable {A : Astronomy}

/-! ## Bisection -/

section Bisect

variable {predicate : Int → Bool}

/-- `edge` meets the predicate, and a point within a second of it, on the side of `before`, does
not. -/
structure Located (predicate : Int → Bool) (before : Bool) (low high edge : Int) : Prop where
  low_le : low ≤ edge
  le_high : edge ≤ high
  meets : predicate edge = true
  beyond : ∃ other, low ≤ other ∧ other ≤ high ∧ predicate other = false ∧
    if before then edge ≤ other ∧ other - edge ≤ second else other ≤ edge ∧ edge - other ≤ second

theorem Located.mono {before : Bool} {low high low' high' edge : Int}
    (h : Located predicate before low high edge) (hlow : low' ≤ low) (hhigh : high ≤ high') :
    Located predicate before low' high' edge := by
  obtain ⟨other, hother, hother', hpredicate, hnear⟩ := h.beyond
  exact ⟨hlow.trans h.low_le, h.le_high.trans hhigh, h.meets,
    other, hlow.trans hother, hother'.trans hhigh, hpredicate, hnear⟩

theorem bisect_located (before : Bool) {low high : Int} (hle : low ≤ high)
    (hlow : predicate low = before) (hhigh : predicate high = !before) :
    Located predicate before low high (bisect predicate before low high) := by
  fun_induction bisect predicate before low high with
  | case1 low high hfar middle hsame ih =>
    have hmiddle : low ≤ middle ∧ middle ≤ high := by
      simp only [middle, second] at *
      omega
    exact (ih hmiddle.2 hsame hhigh).mono hmiddle.1 le_rfl
  | case2 low high hfar middle hother ih =>
    have hmiddle : low ≤ middle ∧ middle ≤ high := by
      simp only [middle, second] at *
      omega
    exact (ih hmiddle.1 hlow (Bool.eq_not_of_ne hother)).mono le_rfl hmiddle.2
  | case3 low high hnear hbefore =>
    obtain rfl : before = true := hbefore
    exact ⟨le_rfl, hle, hlow, high, hle, le_rfl, hhigh, hle, not_lt.mp hnear⟩
  | case4 low high hnear hbefore =>
    obtain rfl : before = false := Bool.eq_false_iff.mpr hbefore
    exact ⟨hle, le_rfl, hhigh, low, le_rfl, hle, hlow, hle, not_lt.mp hnear⟩

end Bisect

/-! ## Sampling -/

section Sampling

variable {apart : Int → Bool}

/-- A span that meets the condition at both ends, which are ends of the bounds or within a second of
where it does not. -/
structure Sampled (apart : Int → Bool) (bounds span : Span Int) : Prop where
  within_bounds : span.Within bounds
  le : span.start ≤ span.finish
  start_meets : apart span.start = true
  finish_meets : apart span.finish = true
  start_edge : span.start = bounds.start ∨
    ∃ other, other ≤ span.start ∧ span.start - other ≤ second ∧ apart other = false
  finish_edge : span.finish = bounds.finish ∨
    ∃ other, span.finish ≤ other ∧ other - span.finish ≤ second ∧ apart other = false

/-- What the loop has found up to `previous`. -/
structure Swept (apart : Int → Bool) (bounds : Span Int) (previous : Int) (openFrom : Option Int)
    (spans : List (Span Int)) : Prop where
  start_le : bounds.start ≤ previous
  le_finish : previous ≤ bounds.finish
  isSome : openFrom.isSome = apart previous
  sorted : spans.Pairwise fun a b => a.finish ≤ b.start
  past : ∀ span ∈ spans, span.finish ≤ openFrom.getD previous
  sampled : ∀ span ∈ spans, Sampled apart bounds span
  opened : ∀ start, openFrom = some start → bounds.start ≤ start ∧ start ≤ previous ∧
    apart start = true ∧ (start = bounds.start ∨
      ∃ other, other ≤ start ∧ start - other ≤ second ∧ apart other = false)

theorem Swept.close {bounds : Span Int} {previous next start edge : Int}
    {spans : List (Span Int)} (h : Swept apart bounds previous (some start) spans)
    (hedge : Located apart true previous next edge) (hnext : next ≤ bounds.finish)
    (hinside : apart next = false) : Swept apart bounds next none (spans ++ [⟨start, edge⟩]) := by
  obtain ⟨hlow, hprevious, hmeets, hstart⟩ := h.opened start rfl
  obtain ⟨other, -, -, hother, hnear⟩ := hedge.beyond
  have hle := hedge.low_le
  have hle' := hedge.le_high
  have hpast : ∀ span ∈ spans, span.finish ≤ start := h.past
  have hnew : Sampled apart bounds ⟨start, edge⟩ :=
    ⟨⟨hlow, hle'.trans hnext⟩, hprevious.trans hle, hmeets, hedge.meets, hstart,
      .inr ⟨other, hnear.1, hnear.2, hother⟩⟩
  refine ⟨(h.start_le.trans hle).trans hle', hnext, hinside.symm, ?_, ?_, ?_, nofun⟩
  · rw [List.pairwise_append]
    refine ⟨h.sorted, List.pairwise_singleton _ _, ?_⟩
    intro a ha b hb
    obtain rfl := List.mem_singleton.mp hb
    exact hpast a ha
  · intro span hspan
    rcases List.mem_append.mp hspan with hspan | hspan
    · exact ((hpast span hspan).trans (hprevious.trans hle)).trans hle'
    · obtain rfl := List.mem_singleton.mp hspan
      exact hle'
  · intro span hspan
    rcases List.mem_append.mp hspan with hspan | hspan
    · exact h.sampled span hspan
    · obtain rfl := List.mem_singleton.mp hspan
      exact hnew

theorem Swept.open {bounds : Span Int} {previous next edge : Int} {spans : List (Span Int)}
    (h : Swept apart bounds previous none spans) (hedge : Located apart false previous next edge)
    (hnext : next ≤ bounds.finish) (hinside : apart next = true) :
    Swept apart bounds next (some edge) spans := by
  obtain ⟨other, -, -, hother, hnear⟩ := hedge.beyond
  have hle := hedge.low_le
  have hle' := hedge.le_high
  refine ⟨(h.start_le.trans hle).trans hle', hnext, hinside.symm, h.sorted, ?_, h.sampled, ?_⟩
  · exact fun span hspan => (h.past span hspan).trans hle
  · intro start hstart
    obtain rfl := Option.some.inj hstart
    exact ⟨h.start_le.trans hle, hle', hedge.meets, .inr ⟨other, hnear.1, hnear.2, hother⟩⟩

theorem Swept.keep {bounds : Span Int} {previous next : Int} {openFrom : Option Int}
    {spans : List (Span Int)} (h : Swept apart bounds previous openFrom spans)
    (hle : previous ≤ next) (hnext : next ≤ bounds.finish)
    (hsame : apart next = openFrom.isSome) : Swept apart bounds next openFrom spans := by
  refine ⟨h.start_le.trans hle, hnext, hsame.symm, h.sorted, ?_, h.sampled, ?_⟩
  · intro span hspan
    cases openFrom with
    | none => exact (h.past span hspan).trans hle
    | some start => exact h.past span hspan
  · intro start hstart
    obtain ⟨hlow, hprevious, hrest⟩ := h.opened start hstart
    exact ⟨hlow, hprevious.trans hle, hrest⟩

theorem separatedFrom_swept {bounds : Span Int} {previous : Int} {openFrom : Option Int}
    {spans : List (Span Int)} (h : Swept apart bounds previous openFrom spans) :
    Swept apart bounds bounds.finish
      (separatedFrom apart bounds.finish previous openFrom spans).2
      (separatedFrom apart bounds.finish previous openFrom spans).1 := by
  fun_induction separatedFrom apart bounds.finish previous openFrom spans with
  | case1 previous spans hmore next inside edge start hchange ih =>
    have hnext : previous ≤ next ∧ next ≤ bounds.finish := by
      simp only [next, minute, second]
      omega
    have hinside : apart next = false := by simpa [inside] using hchange
    apply ih
    refine h.close ?_ hnext.2 hinside
    simp only [edge, inside, hinside]
    exact bisect_located true hnext.1 h.isSome.symm hinside
  | case2 previous spans hmore next inside edge hchange ih =>
    have hnext : previous ≤ next ∧ next ≤ bounds.finish := by
      simp only [next, minute, second]
      omega
    have hinside : apart next = true := by simpa [inside] using hchange
    apply ih
    refine h.open ?_ hnext.2 hinside
    simp only [edge, inside, hinside]
    exact bisect_located false hnext.1 h.isSome.symm hinside
  | case3 previous openFrom spans hmore next inside hsame ih =>
    have hnext : previous ≤ next ∧ next ≤ bounds.finish := by
      simp only [next, minute, second]
      omega
    exact ih (h.keep hnext.1 hnext.2 (not_not.mp hsame))
  | case4 previous openFrom spans hdone =>
    obtain rfl : previous = bounds.finish := le_antisymm h.le_finish (not_lt.mp hdone)
    exact h

theorem Swept.finished {bounds : Span Int} {openFrom : Option Int} {spans all : List (Span Int)}
    (hall : all = match openFrom with
      | some start => spans ++ [⟨start, bounds.finish⟩]
      | none => spans)
    (h : Swept apart bounds bounds.finish openFrom spans) :
    all.Pairwise (fun a b => a.finish ≤ b.start) ∧ ∀ span ∈ all, Sampled apart bounds span := by
  cases openFrom with
  | none =>
    subst hall
    exact ⟨h.sorted, h.sampled⟩
  | some start =>
    subst hall
    obtain ⟨hlow, hle, hmeets, hedge⟩ := h.opened start rfl
    have hpast : ∀ span ∈ spans, span.finish ≤ start := h.past
    constructor
    · rw [List.pairwise_append]
      refine ⟨h.sorted, List.pairwise_singleton _ _, ?_⟩
      intro a ha b hb
      obtain rfl := List.mem_singleton.mp hb
      exact hpast a ha
    · intro span hspan
      rcases List.mem_append.mp hspan with hspan | hspan
      · exact h.sampled span hspan
      · obtain rfl := List.mem_singleton.mp hspan
        exact ⟨⟨hlow, le_rfl⟩, hle, hmeets, h.isSome.symm, hedge, .inl rfl⟩

end Sampling

/-- Where the separation is at least `limit` degrees. -/
def Sky.isApart (sky : Sky A) (limit : A.F64) (instant : Int) : Bool :=
  A.ge (A.lunarSeparation sky.position instant sky.location) limit

theorem separated_of_gt (sky : Sky A) {bounds : Span Int} (limit : A.F64)
    (h : bounds.finish < bounds.start) : sky.separated bounds limit = [] := by
  unfold Sky.separated
  simp only
  rw [separatedFrom, dif_neg h.le.not_gt]
  split
  · rename_i start hopen
    split at hopen
    · cases hopen
      simp [h.le]
    · cases hopen
  · rfl

theorem separated_sampled (sky : Sky A) (bounds : Span Int) (limit : A.F64) :
    Span.Tidy (sky.separated bounds limit) ∧
      ∀ span ∈ sky.separated bounds limit, Sampled (sky.isApart limit) bounds span := by
  by_cases hbounds : bounds.start ≤ bounds.finish
  swap
  · rw [separated_of_gt sky limit (not_le.mp hbounds)]
    exact ⟨⟨List.Pairwise.nil, by simp⟩, by simp⟩
  have hfirst : Swept (sky.isApart limit) bounds bounds.start
      (if sky.isApart limit bounds.start then some bounds.start else none) [] := by
    refine ⟨le_rfl, hbounds, ?_, List.Pairwise.nil, by simp, by simp, ?_⟩
    · cases sky.isApart limit bounds.start <;> rfl
    · intro start hstart
      split at hstart
      · cases hstart
        exact ⟨le_rfl, le_rfl, by assumption, .inl rfl⟩
      · cases hstart
  obtain ⟨hsorted, hsampled⟩ := Swept.finished rfl (separatedFrom_swept hfirst)
  constructor
  · refine ⟨hsorted.filter _, fun span hspan => ?_⟩
    simpa using (List.mem_filter.mp hspan).2
  · exact fun span hspan => hsampled span (List.mem_filter.mp hspan).1

/-! ## The intervals of a night -/

theorem crossingSpan_within {outcome : CrossingOutcome} {bounds span : Span Int}
    (h : crossingSpan outcome bounds = some span) : span.Within bounds := by
  cases outcome with
  | alwaysAbove =>
    cases h
    exact Span.Within.refl bounds
  | neverAbove => cases h
  | crosses rise set => exact (Span.clip_within h).2

theorem crossingSpan_lt {outcome : CrossingOutcome} {bounds span : Span Int}
    (hlt : bounds.start < bounds.finish) (h : crossingSpan outcome bounds = some span) :
    span.start < span.finish := by
  cases outcome with
  | alwaysAbove =>
    cases h
    exact hlt
  | neverAbove => cases h
  | crosses rise set => exact Span.clip_lt h

section Context

variable {zone : A.Zone} {location : A.Location} {criteria : PlanCriteria A} {night : A.Date}
  {context : NightContext A}

theorem NightContext.sound_of (h : NightContext.of zone location criteria night = .ok context) :
    context.Sound := by
  simp only [NightContext.of, Result.bind_eq_ok, Result.pure_eq_ok] at h
  obtain ⟨bounds, hbounds, rfl⟩ := h
  obtain ⟨hstart, hfinish⟩ := nightBounds_range hbounds
  exact ⟨Span.apart_merge _, darkSpans_within, darkSpans_lt, hstart, hfinish⟩

theorem NightContext.moon_of (h : NightContext.of zone location criteria night = .ok context)
    (hlt : context.bounds.start < context.bounds.finish) :
    Span.Tidy context.moonUp ∧ (∀ span ∈ context.moonUp, span.Within context.bounds) ∧
      context.moonDown = Span.complement context.moonUp context.bounds := by
  simp only [NightContext.of, Result.bind_eq_ok, Result.pure_eq_ok] at h
  obtain ⟨bounds, -, rfl⟩ := h
  refine ⟨Span.tidy_merge fun span hspan => ?_, Span.merge_within fun span hspan => ?_, rfl⟩
  · obtain ⟨near, -, hcrossing⟩ := List.mem_filterMap.mp hspan
    exact crossingSpan_lt hlt hcrossing
  · obtain ⟨near, -, hcrossing⟩ := List.mem_filterMap.mp hspan
    exact crossingSpan_within hcrossing

theorem moonAllowed_apart (h : NightContext.of zone location criteria night = .ok context)
    (hlt : context.bounds.start < context.bounds.finish) (sky : Sky A) :
    Span.Apart (sky.spans context).moonAllowed := by
  obtain ⟨hup, -, hdown⟩ := NightContext.moon_of h hlt
  simp only [Sky.spans]
  split
  · exact List.pairwise_singleton _ _
  · rw [hdown]
    exact Span.apart_complement hup.lt _
  · exact Span.apart_merge _

variable {sky : Sky A} {span : Span Int}

/-- What an interval of the windows lies in: the night, and one interval of each list that was
intersected. -/
structure LiesIn (spans : NightSpans A) (span : Span Int) : Prop where
  night : spans.start ≤ span.start ∧ span.finish ≤ spans.finish
  dark : ∃ dark ∈ spans.dark, span.Within dark
  above : ∃ above ∈ spans.above, span.Within above
  allowed : ∃ allowed ∈ spans.moonAllowed, span.Within allowed

theorem LiesIn.mono {spans : NightSpans A} {inner : Span Int} (h : LiesIn spans span)
    (hin : inner.Within span) : LiesIn spans inner := by
  obtain ⟨dark, hdark, hindark⟩ := h.dark
  obtain ⟨above, habove, hinabove⟩ := h.above
  obtain ⟨allowed, hallowed, hinallowed⟩ := h.allowed
  exact ⟨⟨h.night.1.trans hin.1, hin.2.trans h.night.2⟩, ⟨dark, hdark, hin.trans hindark⟩,
    ⟨above, habove, hin.trans hinabove⟩, allowed, hallowed, hin.trans hinallowed⟩

theorem windows_liesIn (h : NightContext.of zone location criteria night = .ok context)
    (hspan : span ∈ (sky.spans context).windows) : LiesIn (sky.spans context) span := by
  have hsound := NightContext.sound_of h
  have hbounds := windows_within_bounds hsound hspan
  obtain ⟨hlt, visible, hvisible, hin, dark, hdark, hindark⟩ := exists_above hsound hspan
  have hnight : context.bounds.start < context.bounds.finish :=
    (hbounds.1.trans_lt hlt).trans_le hbounds.2
  obtain ⟨above, habove, hinabove⟩ :=
    Span.within_intersect_right (Span.apart_merge _) visible hvisible
  obtain ⟨allowed, hallowed, hinallowed⟩ :=
    Span.within_intersect_right (moonAllowed_apart h hnight sky) span hspan
  exact ⟨hbounds, ⟨dark, hdark, hin.trans hindark⟩, ⟨above, habove, hin.trans hinabove⟩,
    allowed, hallowed, hinallowed⟩

end Context

/-! ## The windows -/

section Plan

variable {sky : Sky A} {zone : A.Zone} {target : TargetRecord A} {site : ObservingSite A}
  {night : A.Date} {span : Span Int} {window : ObservingWindow A}

/-- What a listed window keeps to within the span it was rounded from. -/
structure Keeps (sky : Sky A) (target : TargetRecord A) (site : ObservingSite A)
    (span : Span Int) (window : ObservingWindow A) : Prop where
  inside : Span.Within ⟨window.startUtc, window.endUtc⟩ span
  lt : window.startUtc < window.endUtc
  start_minute : window.startUtc % minute = 0
  end_minute : window.endUtc % minute = 0
  duration : sky.criteria.minDurationMinutes * minute ≤ window.endUtc - window.startUtc
  start_meets : sky.meets window.startUtc = true
  end_meets : sky.meets window.endUtc = true
  key : window.key = ⟨target.id, site.id, window.startUtc⟩

theorem saturate32_le {n : Int} (h : 0 ≤ n) : (saturate32 n : Int) ≤ n := by
  unfold saturate32
  split
  · omega
  · omega

theorem minutesOf_le (h : span.start ≤ span.finish) :
    (minutesOf span : Int) * minute ≤ span.finish - span.start := by
  have hnonneg : 0 ≤ (span.finish - span.start).tdiv minute :=
    Int.tdiv_nonneg (by omega) (by simp [minute, second])
  have hle := saturate32_le hnonneg
  rw [Int.tdiv_eq_ediv_of_nonneg (by omega)] at hle
  unfold minutesOf
  rw [Int.tdiv_eq_ediv_of_nonneg (by omega)]
  simp only [minute, second] at *
  omega

theorem planWindow_keeps (h : planWindow sky zone target site night span = .ok (some window)) :
    Keeps sky target site span window := by
  unfold planWindow at h
  split at h
  · cases h
  rename_i rounded hrounded
  split at h
  · cases h
  rename_i hleast
  simp only [Result.bind_eq_ok, Result.pure_eq_ok, Option.some.injEq] at h
  obtain ⟨key, hkey, startLocal, -, endLocal, -, rfl⟩ := h
  obtain ⟨hin, hlt, hstart, hfinish, hmeets, hmeets'⟩ := roundInward_eq_some hrounded
  rw [WindowKey.new, if_neg (not_not.mpr hstart)] at hkey
  have hminutes := minutesOf_le hlt.le
  refine ⟨hin, hlt, hstart, hfinish, ?_, hmeets, hmeets', (Except.ok.inj hkey).symm⟩
  simp only [minute, second] at hminutes ⊢
  omega

theorem exists_of_planned {spans : List (Span Int)} {planned : List (Option (ObservingWindow A))}
    (h : spans.mapM (planWindow sky zone target site night) = .ok planned)
    (hwindow : window ∈ planned.reduceOption) :
    ∃ span ∈ spans, Keeps sky target site span window := by
  induction spans generalizing planned with
  | nil =>
    cases h
    cases hwindow
  | cons span spans ih =>
    simp only [List.mapM_cons, Result.bind_eq_ok, Result.pure_eq_ok] at h
    obtain ⟨first, hfirst, rest, hrest, rfl⟩ := h
    have hlater : window ∈ rest.reduceOption →
        ∃ other ∈ span :: spans, Keeps sky target site other window := by
      intro hmem
      obtain ⟨other, hother, hkeeps⟩ := ih hrest hmem
      exact ⟨other, List.mem_cons_of_mem _ hother, hkeeps⟩
    cases first with
    | none =>
      rw [List.reduceOption_cons_of_none] at hwindow
      exact hlater hwindow
    | some found =>
      rw [List.reduceOption_cons_of_some] at hwindow
      rcases List.mem_cons.mp hwindow with rfl | hmem
      · exact ⟨span, List.mem_cons_self, planWindow_keeps hfirst⟩
      · exact hlater hmem

theorem planned_sorted {spans : List (Span Int)} {planned : List (Option (ObservingWindow A))}
    (hspans : Span.Apart spans)
    (h : spans.mapM (planWindow sky zone target site night) = .ok planned) :
    planned.reduceOption.Pairwise fun a b => a.endUtc < b.startUtc := by
  induction spans generalizing planned with
  | nil =>
    cases h
    exact List.Pairwise.nil
  | cons span spans ih =>
    obtain ⟨hspan, hrest'⟩ := List.pairwise_cons.mp hspans
    simp only [List.mapM_cons, Result.bind_eq_ok, Result.pure_eq_ok] at h
    obtain ⟨first, hfirst, rest, hrest, rfl⟩ := h
    have hsorted := ih hrest' hrest
    cases first with
    | none => simpa only [List.reduceOption_cons_of_none] using hsorted
    | some found =>
      rw [List.reduceOption_cons_of_some]
      refine List.pairwise_cons.mpr ⟨fun window hwindow => ?_, hsorted⟩
      obtain ⟨other, hother, hkeeps⟩ := exists_of_planned hrest hwindow
      exact ((planWindow_keeps hfirst).inside.2.trans_lt (hspan other hother)).trans_le
        hkeeps.inside.1

end Plan

/-! ## The rounding loops -/

section Loops

variable {meets : Int → Bool}

theorem advance_add {steps : Nat} {start finish : Int} (more : Nat)
    (h : finish < advance meets finish steps start ∨
      meets (advance meets finish steps start) = true) :
    advance meets finish (steps + more) start = advance meets finish steps start := by
  induction steps generalizing start with
  | zero =>
    cases more with
    | zero => rfl
    | succ more =>
      have hstop : (decide (start ≤ finish) && !meets start) = false := by
        rcases h with h | h
        · simp [not_le.mpr (show finish < start from h)]
        · simp [show meets start = true from h]
      rw [Nat.zero_add, advance, advance, hstop]
      rfl
  | succ steps ih =>
    rw [advance] at h
    rw [Nat.succ_add, advance, advance]
    split
    · rename_i hgoing
      rw [if_pos hgoing] at h
      exact ih h
    · rfl

theorem retreat_add {steps : Nat} {start finish : Int} (more : Nat)
    (h : retreat meets start steps finish < start ∨
      meets (retreat meets start steps finish) = true) :
    retreat meets start (steps + more) finish = retreat meets start steps finish := by
  induction steps generalizing finish with
  | zero =>
    cases more with
    | zero => rfl
    | succ more =>
      have hstop : (decide (start ≤ finish) && !meets finish) = false := by
        rcases h with h | h
        · simp [not_le.mpr (show finish < start from h)]
        · simp [show meets finish = true from h]
      rw [Nat.zero_add, retreat, retreat, hstop]
      rfl
  | succ steps ih =>
    rw [retreat] at h
    rw [Nat.succ_add, retreat, retreat]
    split
    · rename_i hgoing
      rw [if_pos hgoing] at h
      exact ih h
    · rfl

theorem advance_ends (start finish : Int) :
    (finish < advance meets finish (stepsBetween start finish) start ∨
      meets (advance meets finish (stepsBetween start finish) start) = true) ∧
    ∀ more, advance meets finish (stepsBetween start finish + more) start =
      advance meets finish (stepsBetween start finish) start :=
  ⟨advance_meets le_rfl, fun more => advance_add more (advance_meets le_rfl)⟩

theorem retreat_ends (start finish : Int) :
    (retreat meets start (stepsBetween start finish) finish < start ∨
      meets (retreat meets start (stepsBetween start finish) finish) = true) ∧
    ∀ more, retreat meets start (stepsBetween start finish + more) finish =
      retreat meets start (stepsBetween start finish) finish :=
  ⟨retreat_meets le_rfl, fun more => retreat_add more (retreat_meets le_rfl)⟩

end Loops

/-- Every window of a night lies in the night and in one interval of each list, between whole minutes
that meet the criteria and at least the least duration apart, and the windows lie apart in their
order under keys of their own. The lists are joined, intersected and complemented as the sets they
cover, a change between two samples is located to a second at a point that meets the condition, and
both rounding loops end. -/
theorem planNight_lists {zone : A.Zone} {location : A.Location} {criteria : PlanCriteria A}
    {night : A.Date} {context : NightContext A} {sky : Sky A} {target : TargetRecord A}
    {site : ObservingSite A} {plan : NightPlan A}
    (hcontext : NightContext.of zone location criteria night = .ok context)
    (hplan : planNight sky zone target site (sky.spans context) = .ok plan) :
    ((∀ window ∈ plan.windows,
        LiesIn (sky.spans context) ⟨window.startUtc, window.endUtc⟩ ∧
        window.startUtc % minute = 0 ∧ window.endUtc % minute = 0 ∧
        window.startUtc < window.endUtc ∧
        sky.criteria.minDurationMinutes * minute ≤ window.endUtc - window.startUtc ∧
        sky.meets window.startUtc = true ∧ sky.meets window.endUtc = true) ∧
      plan.windows.Pairwise (fun a b => a.endUtc < b.startUtc) ∧
      (plan.windows.map (·.key)).Nodup) ∧
    (∀ first second : List (Span Int), Span.Tidy first → Span.Tidy second →
      (Span.Tidy (Span.merge first) ∧ Span.points (Span.merge first) = Span.points first) ∧
      (Span.Tidy (Span.union first second) ∧
        Span.points (Span.union first second) = Span.points first ∪ Span.points second) ∧
      (Span.Tidy (Span.intersect first second) ∧
        Span.points (Span.intersect first second) = Span.points first ∩ Span.points second) ∧
      ∀ bounds : Span Int, Span.Tidy (Span.complement first bounds) ∧
        Span.points (Span.complement first bounds) ∩ Set.Ico bounds.start bounds.finish =
          Set.Ico bounds.start bounds.finish \ Span.points first ∧
        ((∀ span ∈ first, span.start ≤ bounds.finish) →
          Span.points (Span.complement first bounds) =
            Set.Ico bounds.start bounds.finish \ Span.points first)) ∧
    (∀ (predicate : Int → Bool) (before : Bool) (low high : Int), low ≤ high →
      predicate low = before → predicate high = (!before) →
      Located predicate before low high (bisect predicate before low high)) ∧
    (∀ (bounds : Span Int) (limit : A.F64), Span.Tidy (sky.separated bounds limit) ∧
      ∀ span ∈ sky.separated bounds limit, Sampled (sky.isApart limit) bounds span) ∧
    ∀ (meets : Int → Bool) (start finish : Int),
      ((finish < advance meets finish (stepsBetween start finish) start ∨
          meets (advance meets finish (stepsBetween start finish) start) = true) ∧
        ∀ more, advance meets finish (stepsBetween start finish + more) start =
          advance meets finish (stepsBetween start finish) start) ∧
      (retreat meets start (stepsBetween start finish) finish < start ∨
          meets (retreat meets start (stepsBetween start finish) finish) = true) ∧
        ∀ more, retreat meets start (stepsBetween start finish + more) finish =
          retreat meets start (stepsBetween start finish) finish := by
  refine ⟨?_, ?_, fun predicate before low high => bisect_located before,
    separated_sampled sky, fun meets start finish => ⟨advance_ends start finish,
      retreat_ends start finish⟩⟩
  · simp only [planNight, Result.bind_eq_ok, Result.pure_eq_ok] at hplan
    obtain ⟨planned, hplanned, rfl⟩ := hplan
    have hsorted := planned_sorted (Span.apart_intersect _ _) hplanned
    have hkeeps : ∀ window ∈ planned.reduceOption, ∃ span ∈ (sky.spans context).windows,
        Keeps sky target site span window := fun window => exists_of_planned hplanned
    refine ⟨fun window hwindow => ?_, hsorted, ?_⟩
    · obtain ⟨span, hspan, hkept⟩ := hkeeps window hwindow
      exact ⟨(windows_liesIn hcontext hspan).mono hkept.inside, hkept.start_minute,
        hkept.end_minute, hkept.lt, hkept.duration, hkept.start_meets, hkept.end_meets⟩
    · -- the windows start at different times
      refine List.pairwise_map.mpr (hsorted.imp_of_mem fun {a b} ha hb hlt heq => ?_)
      obtain ⟨_, -, hkept⟩ := hkeeps a ha
      obtain ⟨_, -, hkept'⟩ := hkeeps b hb
      rw [hkept.key, hkept'.key] at heq
      have hsame : a.startUtc = b.startUtc := congrArg WindowKey.startUtc heq
      have := hkept.lt
      omega
  · intro first second hfirst hsecond
    refine ⟨⟨Span.tidy_merge hfirst.lt, Span.points_merge first⟩,
      ⟨Span.tidy_union hfirst hsecond, Span.points_union first second⟩,
      ⟨Span.tidy_intersect first second, Span.points_intersect first second⟩,
      fun bounds => ⟨Span.tidy_complement hfirst bounds, ?_, Span.points_complement hfirst⟩⟩
    ext x
    constructor
    · rintro ⟨hx, hin⟩
      exact ⟨hin, (Span.mem_complement hfirst hin).mp hx⟩
    · rintro ⟨hin, hx⟩
      exact ⟨(Span.mem_complement hfirst hin).mpr hx, hin⟩

theorem planNight_lists_of_a_night : ∃ plan : NightPlan steadySky, plan.windows.length = 1 ∧
    (plan.windows.map (·.key)).Nodup := by
  obtain ⟨context, hcontext⟩ : ∃ context : NightContext steadySky,
      NightContext.of () () anHour (6 : Int) = .ok context := ⟨_, rfl⟩
  obtain ⟨plan, hplan, hlength⟩ : ∃ plan : NightPlan steadySky,
      planNight (Sky.mk (69000 : Int) () anHour) () highGoal.target home
        (Sky.spans (Sky.mk (69000 : Int) () anHour) context) = .ok plan ∧
      plan.windows.length = 1 := by
    cases hcontext
    refine ⟨_, rfl, ?_⟩
    with_unfolding_all rfl
  exact ⟨plan, hlength, (planNight_lists hcontext hplan).1.2.2⟩

end PlateVault.Planning
