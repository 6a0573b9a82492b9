import Mathlib.Data.List.Forall2
import Mathlib.Data.List.Nodup
import PlateVault.Grouping.Laws
import PlateVault.Import.Looks
import PlateVault.Lib.Runs

/-!
# Two looks an interval apart

A file passed on as settled was looked at twice an interval apart in every run of calls that are on
time: whose batches leave every file first looked at in them the interval until its last look, and
whose system clock does not run ahead of the looks of a file held since an earlier call.
-/

namespace PlateVault.Import

variable {P : Platform} {α β : Type}

/-! ## The files of a source -/

/-- A pass over some items: each item's part of the trace, in order. -/
inductive Each {α β : Type} (R : α → Trace P → β → Prop) : List α → Trace P → List β → Prop
  | nil : Each R [] [] []
  | cons {x : α} {y : β} {l : List α} {l' : List β} {own rest : Trace P} (head : R x own y)
      (tail : Each R l rest l') : Each R (x :: l) (own ++ rest) (y :: l')

theorem Each.of_mem {R : α → Trace P → β → Prop} {l : List α} {l' : List β} {trace : Trace P}
    (h : Each R l trace l') {y : β} (hy : y ∈ l') : ∃ x ∈ l, ∃ own, R x own y := by
  induction h with
  | nil => cases hy
  | cons head _ ih =>
    rcases List.mem_cons.mp hy with rfl | hy
    · exact ⟨_, List.mem_cons_self, _, head⟩
    · obtain ⟨x, hx, own, hown⟩ := ih hy
      exact ⟨x, List.mem_cons_of_mem _ hx, own, hown⟩

theorem Each.map_eq {R : α → Trace P → β → Prop} {γ : Type} {f : α → γ} {g : β → γ} {l : List α}
    {l' : List β} {trace : Trace P} (h : Each R l trace l')
    (hR : ∀ x own y, R x own y → g y = f x) : l'.map g = l.map f := by
  induction h with
  | nil => rfl
  | cons head _ ih => rw [List.map_cons, List.map_cons, hR _ _ _ head, ih]

theorem Each.part {R : α → Trace P → β → Prop} {path : α → NativePath} {l : List α} {l' : List β}
    {trace : Trace P} (h : Each R l trace l') (hR : ∀ x own y, R x own y → LooksAt (path x) own)
    (hnodup : (l.map path).Nodup) {y : β} (hy : y ∈ l') :
    ∃ x ∈ l, ∃ front own back, trace = front ++ own ++ back ∧ R x own y ∧
      ∀ entry ∈ front ++ back, ∀ found, lookOf entry.2 = some found → found.1 ≠ path x := by
  have hlooks : ∀ {l : List α} {l' : List β} {trace : Trace P}, Each R l trace l' →
      ∀ entry ∈ trace, ∀ found, lookOf entry.2 = some found → found.1 ∈ l.map path := by
    intro l l' trace h
    induction h with
    | nil => exact fun _ h => absurd h List.not_mem_nil
    | cons head _ ih =>
      intro entry hentry found hfound
      rcases List.mem_append.mp hentry with hown | hrest
      · exact List.mem_map.mpr ⟨_, List.mem_cons_self, (hR _ _ _ head entry hown found hfound).symm⟩
      · exact List.mem_cons_of_mem _ (ih entry hrest found hfound)
  induction h with
  | nil => cases hy
  | @cons x y' l l' own rest head tail ih =>
    obtain ⟨hx, hl⟩ := List.nodup_cons.mp hnodup
    rcases List.mem_cons.mp hy with rfl | hy
    · refine ⟨x, List.mem_cons_self, [], own, rest, rfl, head, fun entry hentry found hfound heq => ?_⟩
      exact hx (heq ▸ hlooks tail entry hentry found hfound)
    · obtain ⟨z, hz, front, own', back, rfl, hpart, hothers⟩ := ih hl hy
      refine ⟨z, List.mem_cons_of_mem _ hz, own ++ front, own', back, by simp, hpart, ?_⟩
      intro entry hentry found hfound heq
      rw [List.append_assoc] at hentry
      rcases List.mem_append.mp hentry with hown | hmore
      · have hxz : path x = path z := (hR _ _ _ head entry hown found hfound).symm.trans heq
        exact hx (hxz ▸ List.mem_map_of_mem hz)
      · exact hothers entry hmore found hfound heq

section Source

variable {classify : CaptureMetadata P → NativePath → Option Naming.NamingFrameType}
  {trace : Trace P}

theorem firstChecks_each {intervalMs : Nat} {listed : NativePath → Bool}
    {items : List (ImportItemRecord P)} {checked : List (Bool × ImportItemRecord P)}
    (h : Ran (firstChecks classify intervalMs listed items) trace checked) :
    Each (fun record own result => FirstChecked intervalMs record own result.1 result.2) items trace
      checked := by
  induction items generalizing trace checked with
  | nil =>
    obtain ⟨rfl, rfl⟩ := ran_pure.mp h
    exact .nil
  | cons record records ih =>
    rw [firstChecks] at h
    obtain ⟨own, back, ⟨second, result⟩, rfl, hone, hmore⟩ := ran_bind.mp h
    obtain ⟨rest, last, more, rfl, hrest, hlast⟩ := ran_bind.mp hmore
    obtain ⟨rfl, rfl⟩ := ran_pure.mp hlast
    rw [List.append_nil]
    refine .cons ?_ (ih hrest)
    unfold checkListed at hone
    split at hone
    · exact firstCheck_checked hone
    · obtain ⟨rfl, hpair⟩ := ran_pure.mp hone
      cases hpair
      refine .failed ⟨rfl, looksAt_nil, fun _ h => .inl h, fun h => ?_⟩ rfl
      cases h

def SecondChecked (checked : Bool × ImportItemRecord P) (own : Trace P)
    (result : ImportItemRecord P) : Prop :=
  (checked.1 = false ∧ own = [] ∧ result = checked.2) ∨
    (checked.1 = true ∧ Checks checked.2 own result)

theorem secondChecks_each {checked : List (Bool × ImportItemRecord P)}
    {results : List (ImportItemRecord P)}
    (h : Ran (secondChecks classify checked) trace results)
    (hunsettled : ∀ item ∈ checked, item.1 = true → item.2.evidence = none) :
    Each SecondChecked checked trace results := by
  induction checked generalizing trace results with
  | nil =>
    obtain ⟨rfl, rfl⟩ := ran_pure.mp h
    exact .nil
  | cons item items ih =>
    obtain ⟨second, record⟩ := item
    rw [secondChecks] at h
    obtain ⟨own, back, result, rfl, hone, hmore⟩ := ran_bind.mp h
    obtain ⟨rest, last, more, rfl, hrest, hlast⟩ := ran_bind.mp hmore
    obtain ⟨rfl, rfl⟩ := ran_pure.mp hlast
    rw [List.append_nil]
    refine .cons ?_ (ih hrest fun item hitem => hunsettled item (List.mem_cons_of_mem _ hitem))
    cases second with
    | false =>
      obtain ⟨rfl, rfl⟩ := ran_pure.mp hone
      exact .inl ⟨rfl, rfl, rfl⟩
    | true =>
      exact .inr ⟨rfl, secondCheck_checks hone (hunsettled (true, record) List.mem_cons_self rfl)⟩

theorem FirstChecked.unsettled {intervalMs : Nat} {record result : ImportItemRecord P}
    (h : FirstChecked intervalMs record trace true result) : result.evidence = none := by
  cases h <;> assumption

theorem FirstChecked.path_eq {intervalMs : Nat} {second : Bool} {record result : ImportItemRecord P}
    (h : FirstChecked intervalMs record trace second result) : result.path = record.path := by
  cases h with
  | failed checks _ => exact checks.path
  | elapsed _ _ _ _ _ checks => exact checks.path
  | proven path => exact path
  | held _ _ _ path => exact path
  | fresh _ _ _ path => exact path

theorem withListed_spec {root : PathBuf} {known : List NativePath} {listed : List PathBuf}
    {items result : List (ImportItemRecord P)} (h : withListed root known listed items = .ok result) :
    ∃ added, result = items ++ added ∧
      (added.map ImportItemRecord.path).Sublist (listed.map fun relative => .host (root.join relative)) ∧
      ∀ record ∈ added, record.path ∉ known ∧ record.observation = none ∧ record.settled = false := by
  induction listed generalizing items with
  | nil =>
    cases h
    exact ⟨[], by simp, .slnil, fun _ h => absurd h List.not_mem_nil⟩
  | cons relative listed ih =>
    unfold withListed at h
    dsimp only at h
    split at h
    · obtain ⟨added, rfl, hsub, hnew⟩ := ih h
      exact ⟨added, rfl, .cons _ hsub, hnew⟩
    · rename_i hknown
      split at h
      · cases h
      · obtain ⟨added, rfl, hsub, hnew⟩ := ih h
        refine ⟨newRecord items.length (.host (root.join relative)) (.host relative) :: added,
          by simp [NativePath.fromPath], hsub.cons_cons _, fun record hrecord => ?_⟩
        rcases List.mem_cons.mp hrecord with rfl | hrecord
        · exact ⟨hknown, rfl, rfl⟩
        · exact hnew record hrecord

theorem settleSource_parts {interval : Nat} {root : PathBuf} {items results : List (ImportItemRecord P)}
    (h : Ran (settleSource classify interval root items) trace results) :
    ∃ (t₀ : Nat) (listed : List PathBuf) (t₁ started : Nat) (all : List (ImportItemRecord P))
      (first rest : Trace P) (checked : List (Bool × ImportItemRecord P)),
      trace = (t₀, ⟨.listFrames root, .ok listed⟩) :: (t₁, ⟨.instant, .ok started⟩) :: (first ++ rest) ∧
      withListed root (items.map (·.path)) listed items = .ok all ∧
      Each (fun record own result => FirstChecked (interval / 10 ^ 6) record own result.1 result.2) all
        first checked ∧
      ((rest = [] ∧ (∀ item ∈ checked, item.1 = false) ∧ results = checked.map (·.2)) ∨
        ∃ (t₂ now t₃ : Nat) (second : Trace P), rest = (t₂, ⟨.instant, .ok now⟩) ::
            (t₃, ⟨.sleep (interval - (now - started)), .ok ()⟩) :: second ∧
          Each SecondChecked checked second results) := by
  obtain ⟨t₀, listed, rest₀, rfl, h₀⟩ := ran_ask_bind.mp h
  obtain ⟨all, hall, h₁⟩ := ran_lift_bind.mp h₀
  obtain ⟨t₁, started, rest₁, rfl, h₂⟩ := ran_ask_bind.mp h₁
  obtain ⟨first, rest, checked, rfl, hfirst, h₃⟩ := ran_bind.mp h₂
  have heach := firstChecks_each hfirst
  refine ⟨t₀, listed, t₁, started, all, first, rest, checked, rfl, hall, heach, ?_⟩
  split at h₃
  · obtain ⟨t₂, now, rest₂, rfl, h₄⟩ := ran_ask_bind.mp h₃
    obtain ⟨t₃, done, second, rfl, h₅⟩ := ran_ask_bind.mp h₄
    refine .inr ⟨t₂, now, t₃, second, rfl, secondChecks_each h₅ fun item hitem hsecond => ?_⟩
    obtain ⟨second, result⟩ := item
    obtain ⟨record, -, own, hchecked⟩ := heach.of_mem hitem
    cases hsecond
    exact hchecked.unsettled
  · rename_i hnone
    obtain ⟨rfl, rfl⟩ := ran_pure.mp h₃
    refine .inl ⟨rfl, fun item hitem => ?_, rfl⟩
    by_contra htrue
    exact hnone (List.any_eq_true.mpr ⟨item, hitem, by simpa using htrue⟩)

theorem FirstChecked.looksAt {intervalMs : Nat} {second : Bool} {record result : ImportItemRecord P}
    (h : FirstChecked intervalMs record trace second result) : LooksAt record.path trace := by
  cases h with
  | failed checks _ => exact checks.looksAt
  | proven _ looksAt => exact looksAt
  | elapsed _ looked _ read _ checks =>
    refine looksAt_cons.mpr ⟨fun found hfound => ?_, looksAt_cons.mpr ⟨fun found hfound => ?_,
      checks.looksAt⟩⟩
    · cases looked.symm.trans hfound
      rfl
    · exact absurd hfound (by simp [lookOf_of_reading read])
  | held _ looked read =>
    refine looksAt_cons.mpr ⟨fun found hfound => ?_, looksAt_cons.mpr ⟨fun found hfound => ?_,
      looksAt_nil⟩⟩
    · cases looked.symm.trans hfound
      rfl
    · exact absurd hfound (by simp [lookOf_of_reading read])
  | fresh _ looked read =>
    refine looksAt_cons.mpr ⟨fun found hfound => ?_, looksAt_cons.mpr ⟨fun found hfound => ?_,
      looksAt_nil⟩⟩
    · cases looked.symm.trans hfound
      rfl
    · exact absurd hfound (by simp [lookOf_of_reading read])

theorem FirstChecked.leaves {intervalMs : Nat} {record result : ImportItemRecord P}
    (h : FirstChecked intervalMs record trace true result) : Leaves record trace result := by
  intro observation hobservation
  cases h with
  | held recorded looked read path kept => exact .inl (kept ▸ hobservation)
  | fresh unheld looked read path taken =>
    cases taken.symm.trans hobservation
    exact .inr ⟨[], _, _, [], rfl, looked, read⟩

theorem SecondChecked.looksAt {checked : Bool × ImportItemRecord P} {result : ImportItemRecord P}
    (h : SecondChecked checked trace result) : LooksAt checked.2.path trace := by
  rcases h with ⟨-, rfl, -⟩ | ⟨-, hchecks⟩
  · exact looksAt_nil
  · exact hchecks.looksAt

theorem SecondChecked.path_eq {checked : Bool × ImportItemRecord P} {result : ImportItemRecord P}
    (h : SecondChecked checked trace result) : result.path = checked.2.path := by
  rcases h with ⟨-, -, rfl⟩ | ⟨-, hchecks⟩
  · rfl
  · exact hchecks.path

end Source

/-! ## Times -/

theorem Lawful.le {now time : Nat} {asked : Asked P} (h : Lawful now time asked) : now ≤ time := by
  unfold Lawful at h
  split at h
  · exact h.1
  · omega
  · exact h.1
  · exact h

theorem LawfulFrom.mem_le {now : Nat} {trace : Trace P} (h : LawfulFrom now trace) :
    ∀ entry ∈ trace, now ≤ entry.1 := by
  induction trace generalizing now with
  | nil => exact fun _ h => absurd h List.not_mem_nil
  | cons entry trace ih =>
    intro other hother
    rcases List.mem_cons.mp hother with rfl | hother
    · exact h.1.le
    · exact h.1.le.trans (ih h.2 other hother)

theorem LawfulFrom.of_append {now : Nat} {front back : Trace P} (h : LawfulFrom now (front ++ back)) :
    LawfulFrom now front ∧ ∀ entry ∈ front, ∀ later ∈ back, entry.1 ≤ later.1 := by
  induction front generalizing now with
  | nil => exact ⟨trivial, fun _ h => absurd h List.not_mem_nil⟩
  | cons entry front ih =>
    obtain ⟨hfront, hback⟩ := ih h.2
    refine ⟨⟨h.1, hfront⟩, fun other hother later hlater => ?_⟩
    rcases List.mem_cons.mp hother with rfl | hother
    · exact h.2.mem_le later (List.mem_append_right _ hlater)
    · exact hback other hother later hlater

theorem LawfulFrom.back {now : Nat} {front back : Trace P} (h : LawfulFrom now (front ++ back)) :
    ∃ later, LawfulFrom later back := by
  induction front generalizing now with
  | nil => exact ⟨now, h⟩
  | cons entry front ih => exact ih h.2

theorem LawfulFrom.at {now time time' : Nat} {front back : Trace P} {asked asked' : Asked P}
    (h : LawfulFrom now (front ++ (time, asked) :: (time', asked') :: back)) :
    Lawful time time' asked' := by
  induction front generalizing now with
  | nil => exact h.2.1
  | cons entry front ih => exact ih h.2

/-! ## Calls on time -/

def Apart (interval : Nat) (trace : Trace P) (path : NativePath) : Prop :=
  ∃ first ∈ trace, ∃ last ∈ trace, ∃ f g, lookOf first.2 = some (path, f) ∧
    lookOf last.2 = some (path, g) ∧ first.1 + interval ≤ last.1 ∧ sameObservation f g = true

structure OnTime (interval : Nat) (history : Trace P) (items : List (ImportItemRecord P))
    (call : Trace P) : Prop where
  /-- A file first looked at in the call is last looked at as long after the wait as it was first
  looked at after the start, less the time by which the first checks overran the interval. -/
  batch : ∀ lead start started first pause now wake duration second,
    call = lead ++ (start, ⟨.instant, .ok started⟩) :: (first ++ (pause, ⟨.instant, .ok now⟩) ::
      (wake, ⟨.sleep duration, .ok ()⟩) :: second) →
    ∀ look ∈ first, ∀ path f, lookOf look.2 = some (path, f) →
      (∀ record ∈ items, record.path = path → record.held f = false) →
      (∃ again ∈ second, ∃ g, lookOf again.2 = some (path, g)) →
      ∃ last ∈ second, ∃ g, lookOf last.2 = some (path, g) ∧
        look.1 - start ≤ (last.1 - wake) + (wake - (start + interval))
  /-- Where two readings of the system clock say that the interval passed since an earlier look at a
  file, what they say passed, and the part of the interval they do not count, did until a later
  look. -/
  clock : ∀ front look reading between reading' back path f c m,
    history ++ call = front ++ look :: reading :: between ++ reading' :: back →
    lookOf look.2 = some (path, f) → readingOf reading.2 = some (path, c) →
    readingOf reading'.2 = some (path, m) → ((interval / 10 ^ 6 : Nat) : Int) ≤ m - c →
    back.length < call.length → (∃ again ∈ back, ∃ g, lookOf again.2 = some (path, g)) →
    ∃ last ∈ back, ∃ g, lookOf last.2 = some (path, g) ∧
      (m - c) * 10 ^ 6 + (interval % 10 ^ 6 : Nat) ≤ last.1 - look.1

/-- What is known of a recorded item: its look on record was taken, and a settled one was looked at
twice an interval apart. -/
structure Grounded (interval : Nat) (history : Trace P) (record : ImportItemRecord P) : Prop where
  observed : ∀ observation, record.observation = some observation →
    Observed history record.path observation
  apart : record.settled = true → Apart interval history record.path

section Call

variable {classify : CaptureMetadata P → NativePath → Option Naming.NamingFrameType} {interval : Nat}
  {history call : Trace P} {path : NativePath}

theorem Apart.append (h : Apart interval history path) (more : Trace P) :
    Apart interval (history ++ more) path := by
  obtain ⟨first, hfirst, last, hlast, hrest⟩ := h
  exact ⟨first, List.mem_append_left _ hfirst, last, List.mem_append_left _ hlast, hrest⟩

theorem Grounded.append {record : ImportItemRecord P} (h : Grounded interval history record)
    (more : Trace P) : Grounded interval (history ++ more) record where
  observed := fun observation hobservation => by
    simpa using (h.observed observation hobservation).append [] more
  apart := fun hsettled => (h.apart hsettled).append more

theorem Leaves.observed {record result : ImportItemRecord P} {front own back : Trace P}
    (h : Leaves record own result) (hpath : result.path = record.path)
    (hrecord : ∀ observation, record.observation = some observation →
      Observed (history ++ (front ++ own ++ back)) record.path observation) :
    ∀ observation, result.observation = some observation →
      Observed (history ++ (front ++ own ++ back)) result.path observation := by
  intro observation hobservation
  rw [hpath]
  rcases h observation hobservation with hkept | hnew
  · exact hrecord observation hkept
  · simpa using hnew.append (history ++ front) back

theorem apart_of_elapsed {items : List (ImportItemRecord P)}
    (hontime : OnTime interval history items call) {front rest back : Trace P}
    {look reading : Nat × Asked P} (hcall : call = front ++ look :: reading :: (rest ++ back))
    {observation : SettleObservation} (hobserved : Observed history path observation) {ms : Int}
    (hread : readingOf reading.2 = some (path, ms))
    (hpassed : ((interval / 10 ^ 6 : Nat) : Int) ≤ ms - observation.checkedAtMs)
    (hlike : LooksLike observation.fingerprint rest)
    (hlook : ∃ entry ∈ rest, ∃ g, lookOf entry.2 = some (path, g))
    (hothers : ∀ entry ∈ back, ∀ found, lookOf entry.2 = some found → found.1 ≠ path) :
    Apart interval (history ++ call) path := by
  obtain ⟨before, look₀, reading₀, after, rfl, hlook₀, hreading₀⟩ := hobserved
  obtain ⟨again, hagain, g, hg⟩ := hlook
  obtain ⟨last, hlast, g', hg', hpassed'⟩ := hontime.clock before look₀ reading₀
    (after ++ front ++ [look]) reading (rest ++ back) path observation.fingerprint
    observation.checkedAtMs ms (by simp [hcall]) hlook₀ hreading₀ hread hpassed
    (by simp [hcall]; omega) ⟨again, List.mem_append_left _ hagain, g, hg⟩
  have hrest : last ∈ rest := (List.mem_append.mp hlast).resolve_right fun hback =>
    hothers last hback _ hg' rfl
  refine ⟨look₀, by simp, last, by simp [hcall, hrest], observation.fingerprint, g', hlook₀, hg', ?_,
    hlike last hrest _ hg'⟩
  have hparts := Nat.div_add_mod interval (10 ^ 6)
  omega

theorem wake_le {now t₁ t₂ t₃ started now' : Nat} {front first second : Trace P}
    (h : LawfulFrom now (front ++ (t₁, ⟨.instant, .ok started⟩) :: (first ++
      (t₂, ⟨.instant, .ok now'⟩) :: (t₃, ⟨.sleep (interval - (now' - started)), .ok ()⟩) :: second))) :
    t₁ + interval ≤ t₃ := by
  have hinstant : ∀ {front back : Trace P} {now time answer : Nat},
      LawfulFrom now (front ++ (time, ⟨.instant, .ok answer⟩) :: back) → answer = time := by
    intro front back now time answer h
    induction front generalizing now with
    | nil => exact Except.ok.inj h.1.2
    | cons entry front ih => exact ih h.2
  have hstarted := hinstant h
  have hafter : LawfulFrom now ((front ++ (t₁, ⟨.instant, .ok started⟩) :: first) ++
      (t₂, ⟨.instant, .ok now'⟩) :: (t₃, ⟨.sleep (interval - (now' - started)), .ok ()⟩) :: second) := by
    simpa using h
  have hnow := hinstant hafter
  have horder := hafter.of_append.2 (t₁, ⟨.instant, .ok started⟩) (by simp)
    (t₂, ⟨.instant, .ok now'⟩) (by simp)
  have hslept : t₂ + (interval - (now' - started)) ≤ t₃ := hafter.at
  dsimp only at horder
  omega

theorem apart_of_second {items : List (ImportItemRecord P)}
    (hontime : OnTime interval history items call)
    (hlawful : LawfulFrom 0 (history ++ call)) {lead first second front back : Trace P}
    {t₁ t₂ t₃ started now : Nat}
    (hcall : call = lead ++ (t₁, ⟨.instant, .ok started⟩) :: (first ++
      (t₂, ⟨.instant, .ok now⟩) :: (t₃, ⟨.sleep (interval - (now - started)), .ok ()⟩) :: second))
    {record checked result : ImportItemRecord P} {own own' front' back' : Trace P}
    (hfirst : FirstChecked (interval / 10 ^ 6) record own true checked)
    (hown : first = front ++ own ++ back) (hsecond : second = front' ++ own' ++ back')
    (hchecks : Checks checked own' result) (hsettled : result.settled = true)
    (hothers : ∀ entry ∈ front' ++ back', ∀ found, lookOf entry.2 = some found →
      found.1 ≠ checked.path)
    (hrecord : ∀ observation, record.observation = some observation →
      Observed history record.path observation)
    (hstored : ∀ other ∈ items, other.path = record.path → other = record) :
    Apart interval (history ++ call) record.path := by
  have hwake : t₁ + interval ≤ t₃ := by
    have hlaw := hlawful
    rw [hcall, ← List.append_assoc] at hlaw
    exact wake_le hlaw
  obtain ⟨observation, hobservation, hlike, again, hagain, hlooked⟩ := hchecks.settles hsettled
  obtain ⟨⟨path', g⟩, hg⟩ := Option.isSome_iff_exists.mp hlooked
  have hpath : path' = record.path := (hchecks.looksAt again hagain _ hg).trans hfirst.path_eq
  subst hpath
  have hlater : ∀ entry ∈ own', entry ∈ second := fun entry hentry => by simp [hsecond, hentry]
  have hafter : ∀ entry ∈ own', t₃ ≤ entry.1 := by
    intro entry hentry
    have hlaw : LawfulFrom 0 ((history ++ lead ++ (t₁, ⟨.instant, .ok started⟩) :: (first ++
        [(t₂, ⟨.instant, .ok now⟩), (t₃, ⟨.sleep (interval - (now - started)), .ok ()⟩)])) ++ second) := by
      simpa [hcall] using hlawful
    exact hlaw.of_append.2 (t₃, ⟨.sleep (interval - (now - started)), .ok ()⟩) (by simp) entry
      (hlater entry hentry)
  have hmem : ∀ entry ∈ own', entry ∈ history ++ call := fun entry hentry => by
    simp [hcall, hlater entry hentry]
  cases hfirst with
  | @held look reading _ observation' observed ms recorded looked read path kept unsettled =>
    cases (kept.symm.trans hobservation).symm.trans recorded
    obtain ⟨before, look₀, reading₀, after, rfl, hlook₀, -⟩ := hrecord observation recorded
    have hearlier : look₀.1 ≤ t₁ := by
      have := hlawful.of_append.2 look₀ (by simp) (t₁, ⟨.instant, .ok started⟩) (by simp [hcall])
      exact this
    have := hafter again hagain
    exact ⟨look₀, by simp, again, hmem again hagain, _, g, hlook₀, hg, by omega, hlike again hagain _ hg⟩
  | @fresh look reading _ observed ms unheld looked read path taken unsettled =>
    cases taken.symm.trans hobservation
    have hlook : look ∈ first := by simp [hown]
    obtain ⟨last, hlast, g', hg', hleft⟩ := hontime.batch lead t₁ started first t₂ now t₃ _ second hcall
      look hlook record.path observed looked
      (fun other hother hsame => by rw [hstored other hother hsame]; exact unheld)
      ⟨again, hlater again hagain, g, hg⟩
    have hlast' : last ∈ own' := by
      rw [hsecond, List.append_assoc] at hlast
      rcases List.mem_append.mp hlast with hfront | hmore
      · exact absurd path.symm (hothers last (List.mem_append_left _ hfront) _ hg')
      · rcases List.mem_append.mp hmore with hown' | hback
        · exact hown'
        · exact absurd path.symm (hothers last (List.mem_append_right _ hback) _ hg')
    have hstart : t₁ ≤ look.1 := by
      have hlaw : LawfulFrom 0 ((history ++ lead ++ [(t₁, ⟨.instant, .ok started⟩)]) ++ (first ++
          (t₂, ⟨.instant, .ok now⟩) :: (t₃, ⟨.sleep (interval - (now - started)), .ok ()⟩) :: second)) := by
        simpa [hcall] using hlawful
      exact hlaw.of_append.2 (t₁, ⟨.instant, .ok started⟩) (by simp) look (by simp [hlook])
    have := hafter last hlast'
    refine ⟨look, by simp [hcall, hlook], last, hmem last hlast', observed, g', looked, hg', by omega, ?_⟩
    exact hlike last hlast' _ hg'

theorem paths_nodup {t₀ now : Nat} {root : PathBuf} {listed : List PathBuf} {trace : Trace P}
    {items all : List (ImportItemRecord P)}
    (hlawful : LawfulFrom now ((t₀, ⟨.listFrames root, .ok listed⟩) :: trace))
    (hall : withListed root (items.map (·.path)) listed items = .ok all)
    (hnodup : (items.map (·.path)).Nodup) : (all.map (·.path)).Nodup := by
  obtain ⟨added, rfl, hsub, hnew⟩ := withListed_spec hall
  have hlisted : (listed.map fun relative => NativePath.host (root.join relative)).Nodup := by
    have hjoined : (listed.map root.join).Nodup := hlawful.1.2
    have hhost := hjoined.map (f := NativePath.host) fun _ _ h => NativePath.host.inj h
    rwa [List.map_map] at hhost
  rw [List.map_append, List.nodup_append]
  refine ⟨hnodup, hlisted.sublist hsub, fun path hpath other hother heq => ?_⟩
  obtain ⟨record, hrecord, hsame⟩ := List.mem_map.mp hother
  exact (hnew record hrecord).1 (hsame ▸ heq ▸ hpath)

theorem settleSource_grounded {root : PathBuf} {items results : List (ImportItemRecord P)}
    (hlawful : LawfulFrom 0 (history ++ call))
    (hran : Ran (settleSource classify interval root items) call results)
    (hontime : OnTime interval history items call)
    (hitems : ∀ record ∈ items, Grounded interval history record)
    (hnodup : (items.map (·.path)).Nodup) :
    (∀ record ∈ results, Grounded interval (history ++ call) record) ∧
      (results.map (·.path)).Nodup := by
  obtain ⟨t₀, listed, t₁, started, all, first, rest, checked, hcall, hall, hfirst, hrest⟩ :=
    settleSource_parts hran
  obtain ⟨_, hcallLawful⟩ := hlawful.back
  rw [hcall] at hcallLawful
  have hallNodup := paths_nodup hcallLawful hall hnodup
  obtain ⟨added, hadded, -, hnew⟩ := withListed_spec hall
  have hgrounded : ∀ record ∈ all, Grounded interval history record := by
    intro record hrecord
    rw [hadded] at hrecord
    rcases List.mem_append.mp hrecord with hold | hadd
    · exact hitems record hold
    · obtain ⟨-, hnone, hunsettled⟩ := hnew record hadd
      exact ⟨fun _ h => (by cases hnone.symm.trans h), fun h => (by cases hunsettled.symm.trans h)⟩
  have hstored : ∀ record ∈ all, ∀ other ∈ items, other.path = record.path → other = record :=
    fun record hrecord other hother hsame =>
      List.inj_on_of_nodup_map hallNodup (by simp [hadded, hother]) hrecord hsame
  have hcheckedPaths : checked.map (fun item => item.2.path) = all.map (·.path) :=
    hfirst.map_eq fun _ _ _ h => h.path_eq
  have hpart := fun {item} (hitem : item ∈ checked) =>
    hfirst.part (fun _ _ _ h => h.looksAt) hallNodup hitem
  have hsingle : ∀ item ∈ checked, item.1 = false →
      (∀ entry ∈ rest, ∀ found, lookOf entry.2 = some found → found.1 ≠ item.2.path) →
        Grounded interval (history ++ call) item.2 := by
    rintro ⟨second, result⟩ hitem hsecond hothers
    cases hsecond
    obtain ⟨record, hrecord, front, own, back, hown, hchecked, hothers'⟩ := hpart hitem
    have hcall' : call = ([(t₀, ⟨.listFrames root, .ok listed⟩), (t₁, ⟨.instant, .ok started⟩)] ++
        front) ++ own ++ (back ++ rest) := by simp [hcall, hown]
    have hbefore := hgrounded record hrecord
    have hbeforeCall : ∀ observation, record.observation = some observation →
        Observed (history ++ call) record.path observation := (hbefore.append call).observed
    have hpath : result.path = record.path := hchecked.path_eq
    cases hchecked with
    | failed checks unsettled =>
      refine ⟨?_, fun h => (by cases unsettled.symm.trans h)⟩
      rw [hcall'] at hbeforeCall ⊢
      exact checks.leaves.observed hpath hbeforeCall
    | proven _ _ settled observation =>
      refine ⟨fun kept hkept => hpath ▸ hbeforeCall kept (observation ▸ hkept), fun _ => ?_⟩
      exact hpath ▸ (hbefore.apart settled).append call
    | @elapsed look reading own _ observation observed ms recorded looked same read passed checks =>
      constructor
      · have hrest' : call = ([(t₀, ⟨.listFrames root, .ok listed⟩), (t₁, ⟨.instant, .ok started⟩)] ++
            front ++ [look, reading]) ++ own ++ (back ++ rest) := by simp [hcall']
        rw [hrest'] at hbeforeCall ⊢
        exact checks.leaves.observed hpath hbeforeCall
      · intro hsettled
        obtain ⟨kept, hkept, hlike, again, hagain, hlooked⟩ := checks.settles hsettled
        cases recorded.symm.trans hkept
        obtain ⟨⟨path', g⟩, hg⟩ := Option.isSome_iff_exists.mp hlooked
        obtain rfl : path' = record.path := checks.looksAt again hagain _ hg
        rw [hpath]
        have hsplit : call = ([(t₀, ⟨.listFrames root, .ok listed⟩), (t₁, ⟨.instant, .ok started⟩)] ++
            front) ++ look :: reading :: (own ++ (back ++ rest)) := by simp [hcall']
        refine apart_of_elapsed hontime hsplit (hbefore.observed observation recorded) read
          passed hlike ⟨again, hagain, g, hg⟩ ?_
        intro entry hentry found hfound
        rcases List.mem_append.mp hentry with hback | hlater
        · exact hothers' entry (List.mem_append_right _ hback) found hfound
        · exact hpath ▸ hothers entry hlater found hfound
  rcases hrest with ⟨rfl, hnone, rfl⟩ | ⟨t₂, now, t₃, second, rfl, heach⟩
  · constructor
    · intro result hresult
      obtain ⟨item, hitem, rfl⟩ := List.mem_map.mp hresult
      exact hsingle item hitem (hnone item hitem) fun _ h => absurd h List.not_mem_nil
    · rw [List.map_map]
      exact hcheckedPaths ▸ hallNodup
  · have hcheckedNodup : (checked.map fun item => item.2.path).Nodup := hcheckedPaths ▸ hallNodup
    refine ⟨fun result hresult => ?_, ?_⟩
    · obtain ⟨⟨again, record'⟩, hitem, front', own', back', hown', hchecked', hothers⟩ :=
        heach.part (fun _ _ _ h => h.looksAt) hcheckedNodup hresult
      rcases hchecked' with ⟨hfalse, rfl, rfl⟩ | ⟨htrue, hchecks⟩
      · refine hsingle _ hitem hfalse fun entry hentry found hfound => ?_
        rcases List.mem_cons.mp hentry with rfl | hentry
        · cases hfound
        · rcases List.mem_cons.mp hentry with rfl | hentry
          · cases hfound
          · rw [hown', List.append_nil] at hentry
            exact hothers entry hentry found hfound
      · cases htrue
        obtain ⟨record, hrecord, front, own, back, hown, hchecked, -⟩ := hpart hitem
        have hbefore := hgrounded record hrecord
        have hpath : result.path = record.path := hchecks.path.trans hchecked.path_eq
        have hcall' : call = ([(t₀, ⟨.listFrames root, .ok listed⟩), (t₁, ⟨.instant, .ok started⟩)] ++
            front) ++ own ++ (back ++ (t₂, ⟨.instant, .ok now⟩) ::
              (t₃, ⟨.sleep (interval - (now - started)), .ok ()⟩) :: second) := by
          simp [hcall, hown]
        constructor
        · have hkept : ∀ observation, record'.observation = some observation →
              Observed (history ++ call) record'.path observation := by
            have hleaves : Leaves record own record' := hchecked.leaves
            rw [hcall']
            refine hleaves.observed hchecked.path_eq ?_
            rw [← hcall']
            exact (hbefore.append call).observed
          have hlast : call = ([(t₀, ⟨.listFrames root, .ok listed⟩), (t₁, ⟨.instant, .ok started⟩)] ++
              first ++ [(t₂, ⟨.instant, .ok now⟩),
                (t₃, ⟨.sleep (interval - (now - started)), .ok ()⟩)] ++ front') ++ own' ++ back' := by
            simp [hcall, hown']
          rw [hlast] at hkept ⊢
          exact hchecks.leaves.observed hchecks.path hkept
        · intro hsettled
          rw [hpath]
          have hsplit : call = [(t₀, ⟨.listFrames root, .ok listed⟩)] ++
              (t₁, ⟨.instant, .ok started⟩) :: (first ++ (t₂, ⟨.instant, .ok now⟩) ::
                (t₃, ⟨.sleep (interval - (now - started)), .ok ()⟩) :: second) := by simp [hcall]
          exact apart_of_second hontime hlawful hsplit hchecked hown hown' hchecks hsettled hothers
            hbefore.observed (hstored record hrecord)
    · have hresults : results.map (·.path) = checked.map fun item => item.2.path :=
        heach.map_eq fun _ _ _ h => h.path_eq
      rw [hresults]
      exact hcheckedNodup

end Call

/-! ## Runs -/

/-- An import's recorded items, and all that was asked so far. -/
structure Importing (P : Platform) where
  history : Trace P
  items : List (ImportItemRecord P)

inductive SettleStep (classify : CaptureMetadata P → NativePath → Option Naming.NamingFrameType)
    (interval : Nat) : Importing P → Option (Trace P) → Importing P → Prop
  /-- A preview or a recheck. -/
  | call {s : Importing P} {root : PathBuf} {call : Trace P} {results : List (ImportItemRecord P)}
      (lawful : LawfulFrom 0 (s.history ++ call))
      (ran : Ran (settleSource classify interval root s.items) call results) :
      SettleStep classify interval s (some call) ⟨s.history ++ call, results⟩
  /-- A call that failed, or stopped, records nothing. -/
  | stopped {s : Importing P} {call : Trace P} (lawful : LawfulFrom 0 (s.history ++ call)) :
      SettleStep classify interval s none ⟨s.history ++ call, s.items⟩
  /-- The user's choices and routing keep what the checks recorded. -/
  | chosen {s : Importing P} {items : List (ImportItemRecord P)}
      (kept : List.Forall₂ (fun record after => after.path = record.path ∧
        after.observation = record.observation ∧ after.evidence = record.evidence ∧
        after.metadata = record.metadata) s.items items) :
      SettleStep classify interval s none ⟨s.history, items⟩

def OnTimeStep (classify : CaptureMetadata P → NativePath → Option Naming.NamingFrameType)
    (interval : Nat) (s : Importing P) (call : Option (Trace P)) (s' : Importing P) : Prop :=
  SettleStep classify interval s call s' ∧
    ∀ trace, call = some trace → OnTime interval s.history s.items trace

structure Importing.Sound (interval : Nat) (s : Importing P) : Prop where
  grounded : ∀ record ∈ s.items, Grounded interval s.history record
  nodup : (s.items.map (·.path)).Nodup

theorem exists_of_forall₂ {R : α → β → Prop} {l : List α} {l' : List β} (h : List.Forall₂ R l l')
    {y : β} (hy : y ∈ l') : ∃ x ∈ l, R x y := by
  induction h with
  | nil => cases hy
  | cons head _ ih =>
    rcases List.mem_cons.mp hy with rfl | hy
    · exact ⟨_, List.mem_cons_self, head⟩
    · obtain ⟨x, hx, hxy⟩ := ih hy
      exact ⟨x, List.mem_cons_of_mem _ hx, hxy⟩

theorem Importing.Sound.step {classify : CaptureMetadata P → NativePath → Option Naming.NamingFrameType}
    {interval : Nat} {s s' : Importing P} {call : Option (Trace P)} (hs : s.Sound interval)
    (h : OnTimeStep classify interval s call s') : s'.Sound interval := by
  obtain ⟨hstep, hontime⟩ := h
  cases hstep with
  | call lawful ran =>
    obtain ⟨hgrounded, hnodup⟩ := settleSource_grounded lawful ran (hontime _ rfl) hs.grounded hs.nodup
    exact ⟨hgrounded, hnodup⟩
  | stopped lawful => exact ⟨fun record hrecord => (hs.grounded record hrecord).append _, hs.nodup⟩
  | @chosen items kept =>
    constructor
    · intro after hafter
      obtain ⟨record, hrecord, hpath, hobservation, hevidence, hmeta⟩ := exists_of_forall₂ kept hafter
      have hbefore := hs.grounded record hrecord
      refine ⟨fun observation h => hpath ▸ hbefore.observed observation (hobservation ▸ h),
        fun h => hpath ▸ hbefore.apart ?_⟩
      rwa [ImportItemRecord.settled, hevidence, hmeta] at h
    · have hpaths : List.Forall₂ (· = ·) (s.items.map (·.path)) (items.map (·.path)) :=
        List.forall₂_map_left_iff.mpr (List.forall₂_map_right_iff.mpr (kept.imp fun _ _ h => h.1.symm))
      rw [List.forall₂_eq_eq_eq] at hpaths
      exact hpaths ▸ hs.nodup

/-- In a run of calls on time, a file passed on as settled was looked at twice an interval apart, and
the looks agree. -/
theorem settled_apart {classify : CaptureMetadata P → NativePath → Option Naming.NamingFrameType}
    {interval : Nat} {calls : List (Option (Trace P))} {s : Importing P}
    (h : Run (OnTimeStep classify interval) ⟨[], []⟩ calls s) :
    ∀ record ∈ s.items, record.settled = true → Apart interval s.history record.path := by
  have hsound := h.invariant (fun _ _ _ hs hstep => Importing.Sound.step hs hstep)
    (⟨fun _ hrecord => absurd hrecord List.not_mem_nil, List.nodup_nil⟩ :
      (⟨[], []⟩ : Importing P).Sound interval)
  exact fun record hrecord hsettled => (hsound.grounded record hrecord).apart hsettled

/-! ## A slow first check -/

def cardRoot : PathBuf := ⟨true, [.normal "card".toList]⟩
def lightName : PathBuf := ⟨false, [.normal "a.fits".toList]⟩
def lightPath : NativePath := .host (cardRoot.join lightName)

def lightLook : ObservationFingerprint :=
  ⟨⟨⟨"ext4", none, false, .sensitive, .sensitive⟩, none⟩, 9, 5, none⟩

def lightEvidence : EntryEvidence := ⟨lightPath, none, .file, lightLook, some "aa".toList⟩

/-- A call over one file, first looked at at `look`, and looked at again at `wake`. -/
def oneFileCall (look wake : Nat) : Trace wholePlatform :=
  [(0, ⟨.listFrames cardRoot, .ok [lightName]⟩), (0, ⟨.instant, .ok (0 : Nat)⟩),
    (look, ⟨.probeFingerprint lightPath, .ok (.ok lightLook)⟩),
    (look, ⟨.nowMs lightPath, .ok (0 : Int)⟩), (look, ⟨.instant, .ok look⟩),
    (wake, ⟨.sleep (defaultSettleInterval - (look - 0)), .ok ()⟩),
    (wake, ⟨.probeFingerprint lightPath, .ok (.ok lightLook)⟩),
    (wake, ⟨.reviewStorageEntry lightPath, .ok (.ok lightEvidence)⟩),
    (wake, ⟨.readHeader lightPath, .ok (.ok (lightAt 1 0 0).effective)⟩),
    (wake, ⟨.probeFingerprint lightPath, .ok (.ok lightLook)⟩)]

def asLight (_ : CaptureMetadata wholePlatform) (_ : NativePath) : Option Naming.NamingFrameType :=
  some .light

def heldLight : ImportItemRecord wholePlatform :=
  let record := newRecord 0 lightPath (.host lightName)
  { record with
    item := { record.item with sizeBytes := 9 }
    observation := some ⟨lightLook, 0⟩ }

theorem ran_oneFileCall (look wake : Nat) :
    Ran (settleSource asLight (defaultSettleInterval) cardRoot []) (oneFileCall look wake)
      [reviewed asLight heldLight lightEvidence (lightAt 1 0 0).effective] := by
  refine ran_ask_bind.mpr ⟨_, _, _, rfl, ?_⟩
  refine ran_lift_bind.mpr ⟨[newRecord 0 lightPath (.host lightName)], rfl, ?_⟩
  refine ran_ask_bind.mpr ⟨_, _, _, rfl, ?_⟩
  refine ran_bind.mpr ⟨[_, _], _, [(true, heldLight)], rfl, ?_, ?_⟩
  · exact .perform (.perform (.pure _))
  · exact .perform (.perform (.perform (.perform (.perform (.perform (.pure _))))))

theorem lawful_oneFileCall {look wake : Nat} (hlook : look ≤ wake) (hwake : defaultSettleInterval ≤ wake) :
    LawfulFrom 0 (oneFileCall look wake) := by
  have hslept : look + (defaultSettleInterval - (look - 0)) ≤ wake := by omega
  exact ⟨⟨le_refl _, List.nodup_singleton _⟩, ⟨le_refl _, rfl⟩, Nat.zero_le _, le_refl _, ⟨le_refl _, rfl⟩,
    hslept, le_refl _, le_refl _, le_refl _, le_refl _, trivial⟩

theorem looks_oneFileCall {look wake : Nat} :
    ∀ entry ∈ oneFileCall look wake, (lookOf entry.2).isSome → entry.1 = look ∨ entry.1 = wake := by
  simp [oneFileCall, lookOf]

/-- The first checks take as long as the interval: the file is looked at again at once. -/
theorem slow_check_settles : ∃ calls s,
    Run (SettleStep asLight defaultSettleInterval) ⟨[], []⟩ calls s ∧ ∃ record ∈ s.items,
      record.settled = true ∧ ¬Apart defaultSettleInterval s.history record.path := by
  have hinterval : 0 < defaultSettleInterval := by decide
  refine ⟨_, _, .cons (.call (lawful_oneFileCall le_rfl le_rfl)
    (ran_oneFileCall defaultSettleInterval _)) (.nil _), _, List.mem_singleton_self _, rfl, ?_⟩
  rintro ⟨first, hfirst, last, hlast, f, g, hf, hg, happart, -⟩
  have htime := looks_oneFileCall first hfirst (by rw [hf]; rfl)
  have htime' := looks_oneFileCall last hlast (by rw [hg]; rfl)
  omega

def isSleep (entry : Nat × Asked wholePlatform) : Bool :=
  match entry.2 with
  | ⟨.sleep _, _⟩ => true
  | _ => false

theorem sleep_oneFileCall {look wake time duration : Nat} {front back : Trace wholePlatform}
    (h : oneFileCall look wake = front ++ (time, ⟨.sleep duration, .ok ()⟩) :: back) :
    front = (oneFileCall look wake).take 5 := by
  have hsleeps : List.replicate 5 false ++ true :: List.replicate 4 false =
      front.map isSleep ++ true :: back.map isSleep := by
    simpa [oneFileCall, isSleep] using congrArg (List.map isSleep) h
  have hfront := ((List.append_cons_inj_of_notMem (by decide) (by decide)).mp hsleeps).1
  have hlength : front.length = 5 := by simpa using (congrArg List.length hfront).symm
  rw [h, List.take_left' hlength]

theorem onTime_oneFileCall :
    OnTime defaultSettleInterval [] [] (oneFileCall 0 defaultSettleInterval) where
  batch := by
    intro lead start started first pause now wake duration second hcall look hlook path f _ _
      ⟨again, hagain, g, hg⟩
    have hcut : oneFileCall 0 defaultSettleInterval = (lead ++ (start, ⟨.instant, .ok started⟩) ::
        (first ++ [(pause, ⟨.instant, .ok now⟩)])) ++ (wake, ⟨.sleep duration, .ok ()⟩) :: second := by
      rw [hcall]
      simp
    have hfront := sleep_oneFileCall hcut
    have hlook : look ∈ (oneFileCall 0 defaultSettleInterval).take 5 := by
      rw [← hfront]
      simp [hlook]
    have htime : look.1 = 0 := by
      simp only [oneFileCall, List.take_succ_cons, List.take_zero, List.mem_cons, List.not_mem_nil,
        or_false] at hlook
      rcases hlook with rfl | rfl | rfl | rfl | rfl <;> rfl
    exact ⟨again, hagain, g, hg, by omega⟩
  clock := by
    intro front look reading between reading' back path f c m hcall _ hread hread'
    have hcount := congrArg (List.countP fun entry : Nat × Asked wholePlatform => (readingOf entry.2).isSome) hcall
    have hone : ([] ++ oneFileCall 0 defaultSettleInterval).countP
        (fun entry : Nat × Asked wholePlatform => (readingOf entry.2).isSome) = 1 := rfl
    rw [hone] at hcount
    simp [List.countP_cons, hread, hread'] at hcount
    omega

theorem settled_apart_oneFile : ∃ calls s,
    Run (OnTimeStep asLight defaultSettleInterval) ⟨[], []⟩ calls s ∧
      (∃ record ∈ s.items, record.settled = true) ∧
        ∀ record ∈ s.items, record.settled = true → Apart defaultSettleInterval s.history record.path := by
  have hrun : Run (OnTimeStep asLight defaultSettleInterval) ⟨[], []⟩
      [some (oneFileCall 0 defaultSettleInterval)]
      ⟨[] ++ oneFileCall 0 defaultSettleInterval,
        [reviewed asLight heldLight lightEvidence (lightAt 1 0 0).effective]⟩ := by
    refine .cons ⟨.call (lawful_oneFileCall (Nat.zero_le _) le_rfl) (ran_oneFileCall _ _), ?_⟩ (.nil _)
    rintro _ ⟨⟩
    exact onTime_oneFileCall
  exact ⟨_, _, hrun, ⟨_, List.mem_singleton_self _, rfl⟩, settled_apart hrun⟩

end PlateVault.Import
