import PlateVault.Calibration.Matching

/-!
# What a match offers and pins

The offers of a kind are the inputs no criterion rules out, in an order their ranks and ids settle.
The top one is pinned when nothing keeps it back and nothing ranks with it; what a pin says of the
two sides follows from its criteria and cautions.
-/

namespace PlateVault.Calibration

variable {M : Measures} {kind : InputKind} {light : SessionLight M}
  {inputs : List (SessionInput M)} {settings : WorkflowSettings M}

/-! ## The order -/

def rankKey (offer : Ranked M) : Bool ×ₗ Bool ×ₗ WithTop Nat ×ₗ WithTop M.F64 :=
  toLex (offer.blocked, toLex (offer.raw, toLex (Ordered.orTop offer.days,
    Ordered.orTop offer.rotation)))

def sessionKey (offer : Ranked M) : (Bool ×ₗ Bool ×ₗ WithTop Nat ×ₗ WithTop M.F64) ×ₗ Uuid :=
  toLex (rankKey offer, offer.offer.target.input.id)

theorem sessionRank_eq_compare (left right : Ranked M) :
    sessionRank left right = compare (rankKey left) (rankKey right) := by
  unfold sessionRank rankKey distanceOrder
  rw [Ordered.knownFirst_eq_compare, Ordered.knownFirst_eq_compare, Ordered.compare_toLex,
    Ordered.compare_toLex, Ordered.compare_toLex, Ordering.then_assoc, Ordering.then_assoc]

theorem sessionOrder_eq_compare (left right : Ranked M) :
    sessionOrder left right = compare (sessionKey left) (sessionKey right) := by
  unfold sessionOrder sessionKey
  rw [sessionRank_eq_compare, Ordered.compare_toLex]

theorem sessionRank_eq_lt {left right : Ranked M} :
    sessionRank left right = .lt ↔ rankKey left < rankKey right := by
  rw [sessionRank_eq_compare, compare_lt_iff_lt]

theorem sessionRank_eq_eq {left right : Ranked M} :
    sessionRank left right = .eq ↔ rankKey left = rankKey right := by
  rw [sessionRank_eq_compare, compare_eq_iff_eq]

theorem sessionOrder_eq_lt {left right : Ranked M} :
    sessionOrder left right = .lt ↔ sessionKey left < sessionKey right := by
  rw [sessionOrder_eq_compare, compare_lt_iff_lt]

/-! ## The offers -/

def criteria (kind : InputKind) (light : SessionLight M) (settings : WorkflowSettings M)
    (input : SessionInput M) : List CriterionResult :=
  (hardChecks kind light input settings).1

/-- Whether an input is of the kind and no criterion rules it out. -/
def passes (kind : InputKind) (light : SessionLight M) (settings : WorkflowSettings M)
    (input : SessionInput M) : Bool :=
  input.kind = kind ∧ ∀ row ∈ criteria kind light settings input, row.verdict ≠ .incompatible

/-- What the passing inputs rank by, in the order of the inputs. -/
def offered (kind : InputKind) (light : SessionLight M) (inputs : List (SessionInput M))
    (settings : WorkflowSettings M) : List (Ranked M) :=
  (inputs.filter (passes kind light settings)).map (ranked kind light settings)

theorem filterMap_sessionOffer :
    (inputs.filter (·.kind = kind)).filterMap (sessionOffer kind light settings) =
      offered kind light inputs settings := by
  unfold offered
  induction inputs with
  | nil => rfl
  | cons input inputs ih =>
    by_cases hkind : input.kind = kind
    · rw [List.filter_cons_of_pos (by simpa using hkind), List.filterMap_cons, ih]
      by_cases hany : (hardChecks kind light input settings).1.any (·.verdict = .incompatible)
      · rw [List.filter_cons_of_neg (by simpa [passes, criteria, hkind] using hany)]
        simp [sessionOffer, hany]
      · rw [List.filter_cons_of_pos (by simpa [passes, criteria, hkind] using hany)]
        simp [sessionOffer, hany]
    · rw [List.filter_cons_of_neg (by simpa using hkind),
        List.filter_cons_of_neg (by simp [passes, hkind]), ih]

theorem matchSession_eq (kind : InputKind) (light : SessionLight M)
    (inputs : List (SessionInput M)) (settings : WorkflowSettings M) :
    matchSession kind light inputs settings =
      ⟨kind, (warnTie (Ordered.sortBy sessionKey (offered kind light inputs settings))).map
        (·.offer)⟩ := by
  unfold matchSession Ordered.sortBy
  simp only [filterMap_sessionOffer, sessionOrder_eq_compare, ne_eq, compare_le_iff_le]

@[simp] theorem warnTie_target (offers : List (Ranked M)) :
    (warnTie offers).map (·.offer.target) = offers.map (·.offer.target) := by
  unfold warnTie
  split
  · split <;> rfl
  · rfl

theorem offers_target :
    (matchSession kind light inputs settings).offers.map (·.target) =
      (Ordered.sortBy sessionKey (offered kind light inputs settings)).map (·.offer.target) := by
  rw [matchSession_eq, List.map_map, ← warnTie_target]
  rfl

theorem offers_perm :
    ((matchSession kind light inputs settings).offers.map (·.target)).Perm
      ((inputs.filter (passes kind light settings)).map fun input =>
        (ranked kind light settings input).offer.target) := by
  have hsort := (Ordered.perm_sortBy sessionKey (offered kind light inputs settings)).map
    (·.offer.target)
  rw [← offers_target, offered, List.map_map] at hsort
  exact hsort

/-! ## Distinct inputs -/

def Distinct (inputs : List (SessionInput M)) : Prop :=
  inputs.Pairwise fun left right =>
    left.input.form ≠ right.input.form ∨ left.input.id ≠ right.input.id

theorem InputRef.form_ne_of_raw {left right : InputRef}
    (h : decide (left.form ≠ .master) = decide (right.form ≠ .master)) : left.form = right.form := by
  cases left <;> cases right <;> simp_all [InputRef.form]

theorem sessionKey_ne {left right : SessionInput M}
    (h : left.input.form ≠ right.input.form ∨ left.input.id ≠ right.input.id) :
    sessionKey (ranked kind light settings left) ≠ sessionKey (ranked kind light settings right) := by
  intro heq
  simp only [sessionKey, rankKey, EmbeddingLike.apply_eq_iff_eq, Prod.mk.injEq] at heq
  obtain ⟨⟨-, hraw, -⟩, hid⟩ := heq
  rcases h with hform | hne
  · exact hform (InputRef.form_ne_of_raw hraw)
  · exact hne hid

theorem sessionKey_offered (h : Distinct inputs) :
    (offered kind light inputs settings).Pairwise fun left right =>
      sessionKey left ≠ sessionKey right :=
  List.pairwise_map.mpr ((List.Pairwise.filter _ h).imp sessionKey_ne)

theorem matchSession_perm {inputs' : List (SessionInput M)} (h : Distinct inputs)
    (hperm : inputs.Perm inputs') :
    matchSession kind light inputs' settings = matchSession kind light inputs settings := by
  have hoffered : (offered kind light inputs settings).Perm (offered kind light inputs' settings) :=
    (hperm.filter _).map _
  rw [matchSession_eq, matchSession_eq, Ordered.sortBy_congr (sessionKey_offered h) hoffered]

theorem pairwise_sorted (h : Distinct inputs) :
    (Ordered.sortBy sessionKey (offered kind light inputs settings)).Pairwise fun left right =>
      sessionOrder left right = .lt :=
  (Ordered.pairwise_sortBy_lt (sessionKey_offered h)).imp sessionOrder_eq_lt.mpr

theorem sessionOrder_trichotomy (h : Distinct inputs) {left right : Ranked M}
    (hleft : left ∈ offered kind light inputs settings)
    (hright : right ∈ offered kind light inputs settings) :
    left = right ∨ sessionOrder left right = .lt ∨ sessionOrder right left = .lt := by
  simp only [sessionOrder_eq_lt]
  rcases lt_trichotomy (sessionKey left) (sessionKey right) with hlt | heq | hgt
  · exact .inr (.inl hlt)
  · refine .inl (List.inj_on_of_nodup_map (List.pairwise_map.mpr (sessionKey_offered h)) hleft
      hright heq)
  · exact .inr (.inr hgt)

theorem strictTotalOrder_offered (h : Distinct inputs) :
    IsStrictTotalOrder {offer // offer ∈ offered kind light inputs settings}
      fun left right => sessionOrder left.val right.val = .lt where
  trichotomous left right hleft hright := by
    rcases sessionOrder_trichotomy h left.property right.property with heq | hlt | hgt
    · exact Subtype.ext heq
    · exact absurd hlt hleft
    · exact absurd hgt hright
  irrefl offer := by
    rw [sessionOrder_eq_lt]
    exact lt_irrefl _
  trans first second third := by
    simp only [sessionOrder_eq_lt]
    exact lt_trans

/-! ## The pin -/

@[simp] theorem ranked_blocked (input : SessionInput M) :
    (ranked kind light settings input).blocked =
      !(ranked kind light settings input).offer.cautions.isEmpty :=
  rfl

theorem blocked_of_mem {offer : Ranked M} (h : offer ∈ offered kind light inputs settings) :
    offer.blocked = !offer.offer.cautions.isEmpty := by
  obtain ⟨input, -, rfl⟩ := List.mem_map.mp h
  rfl

theorem rank_lt_of_sorted {first second : Ranked M} {rest : List (Ranked M)}
    (h : (first :: second :: rest).Pairwise fun left right => sessionOrder left right = .lt)
    (hne : sessionRank first second ≠ .eq) :
    ∀ other ∈ second :: rest, sessionRank first other = .lt := by
  have hle : ∀ left right : Ranked M, sessionOrder left right = .lt →
      rankKey left ≤ rankKey right := by
    intro left right hlt
    rw [sessionOrder_eq_lt, sessionKey, sessionKey, Prod.Lex.toLex_lt_toLex] at hlt
    rcases hlt with hlt | ⟨heq, -⟩
    · exact hlt.le
    · exact heq.le
  obtain ⟨hfirst, htail⟩ := List.pairwise_cons.mp h
  have hsecond : rankKey first < rankKey second :=
    lt_of_le_of_ne (hle _ _ (hfirst _ List.mem_cons_self)) (mt sessionRank_eq_eq.mpr hne)
  intro other hother
  rw [sessionRank_eq_lt]
  rcases List.mem_cons.mp hother with rfl | hrest
  · exact hsecond
  · exact hsecond.trans_le (hle _ _ ((List.pairwise_cons.mp htail).1 other hrest))

theorem state_of_first {first : Ranked M} {rest : List (Ranked M)} {target : PinTarget} :
    KindMatch.state ⟨kind, (first :: rest).map (·.offer)⟩ = .pinned target .automatic ↔
      first.offer.cautions = [] ∧ first.offer.target = target := by
  unfold KindMatch.state
  simp only [List.map_cons, List.head?_cons, MatchOffer.pinnable, List.isEmpty_iff]
  by_cases hcautions : first.offer.cautions = []
  · simp [hcautions]
  · simp [hcautions]

theorem state_of_sorted {offers : List (Ranked M)} {target : PinTarget}
    (hsorted : offers.Pairwise fun left right => sessionOrder left right = .lt)
    (hblocked : ∀ offer ∈ offers, offer.blocked = !offer.offer.cautions.isEmpty) :
    KindMatch.state ⟨kind, (warnTie offers).map (·.offer)⟩ = .pinned target .automatic ↔
      ∃ best ∈ offers, best.offer.target = target ∧ best.offer.cautions = [] ∧
        ∀ other ∈ offers, other = best ∨ sessionRank best other = .lt := by
  have hfirst : ∀ first rest, offers = first :: rest → ∀ best ∈ offers,
      (∀ other ∈ offers, other = best ∨ sessionRank best other = .lt) → best = first := by
    rintro first rest rfl best hbest hleast
    rcases List.mem_cons.mp hbest with rfl | hrest
    · rfl
    rcases hleast first List.mem_cons_self with heq | hlt
    · exact heq.symm
    · have hkey := sessionOrder_eq_lt.mp ((List.pairwise_cons.mp hsorted).1 best hrest)
      rw [sessionKey, sessionKey, Prod.Lex.toLex_lt_toLex] at hkey
      have hrank := sessionRank_eq_lt.mp hlt
      rcases hkey with hkey | ⟨heq, -⟩
      · exact absurd hkey hrank.not_gt
      · exact absurd heq hrank.ne'
  cases offers with
  | nil => simp [warnTie, KindMatch.state]
  | cons first rest =>
    have hown := hblocked first List.mem_cons_self
    have hiff : (∃ best ∈ first :: rest, best.offer.target = target ∧ best.offer.cautions = [] ∧
        ∀ other ∈ first :: rest, other = best ∨ sessionRank best other = .lt) ↔
        first.offer.target = target ∧ first.offer.cautions = [] ∧
          ∀ other ∈ rest, other = first ∨ sessionRank first other = .lt := by
      constructor
      · rintro ⟨best, hbest, htarget, hcautions, hleast⟩
        obtain rfl := hfirst first rest rfl best hbest hleast
        exact ⟨htarget, hcautions, fun other hother =>
          hleast other (List.mem_cons_of_mem _ hother)⟩
      · rintro ⟨htarget, hcautions, hleast⟩
        refine ⟨first, List.mem_cons_self, htarget, hcautions, fun other hother => ?_⟩
        rcases List.mem_cons.mp hother with rfl | hrest
        · exact .inl rfl
        · exact hleast other hrest
    rw [hiff]
    cases rest with
    | nil =>
      rw [warnTie, state_of_first]
      · simp [and_comm]
      · simp
    | cons second rest =>
      rw [warnTie]
      by_cases htie : sessionRank first second = .eq
      · by_cases hcautions : first.offer.cautions = []
        · rw [if_pos (by simp [hown, hcautions, htie]), state_of_first]
          constructor
          · rintro ⟨hnone, -⟩
            simp at hnone
          · rintro ⟨-, -, hleast⟩
            rcases hleast second List.mem_cons_self with heq | hlt
            · have hself := (List.pairwise_cons.mp hsorted).1 second List.mem_cons_self
              rw [heq, sessionOrder_eq_lt] at hself
              exact absurd hself (lt_irrefl _)
            · simp [htie] at hlt
        · rw [if_neg (by simp [hown, hcautions]), state_of_first]
          simp [hcautions]
      · rw [if_neg (by simp [htie]), state_of_first]
        constructor
        · rintro ⟨hcautions, htarget⟩
          exact ⟨htarget, hcautions, fun other hother =>
            .inr (rank_lt_of_sorted hsorted htie other hother)⟩
        · rintro ⟨htarget, hcautions, -⟩
          exact ⟨hcautions, htarget⟩

theorem state_eq_pinned (h : Distinct inputs) {target : PinTarget} :
    (matchSession kind light inputs settings).state = .pinned target .automatic ↔
      ∃ best ∈ offered kind light inputs settings, best.offer.target = target ∧
        best.offer.cautions = [] ∧ ∀ other ∈ offered kind light inputs settings,
          other = best ∨ sessionRank best other = .lt := by
  rw [matchSession_eq, state_of_sorted (pairwise_sorted h)]
  · simp only [Ordered.mem_sortBy]
  · intro offer hoffer
    exact blocked_of_mem (Ordered.mem_sortBy.mp hoffer)

end PlateVault.Calibration
