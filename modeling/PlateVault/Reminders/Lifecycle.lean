import PlateVault.Reminders.Guarded

/-!
# The lifecycle word

A turn ends the task only by its compare-exchange or at a stop. While the task lives its word is the
one it loaded plus the wakes counted since, in 64 bits; once it has ended on its own no wake counts.
-/

namespace PlateVault.Reminders

section Turns

variable {A : Almanac}

def endsTask : (e : Effect A) → Answer e → Bool
  | .compareExchange _ _, done => done
  | .wait _, .stopped => true
  | .stopRequested, stop => stop
  | .permission, none => true
  | .submit _, none => true
  | _, _ => false

def Goes (finished : Bool) (_ : Effect A) : Prop := finished = false

def Ends (_ : Bool) (e : Effect A) (r : Answer e) (finished : Bool) : Prop := finished = endsTask e r

def EndedBy (flow : Flow) (finished : Bool) : Prop := finished = true ↔ flow = .finished

def StoppedBy {α : Type} (answer : Except Stopped α) (finished : Bool) : Prop :=
  finished = !answer.toBool

theorem remindDue_ends {subscription : ReminderSubscription A} {schedule : Schedule A}
    {windows : WindowSet A} {due : List (Planning.ObservingWindow A.toAstronomy)} :
    (remindDue subscription schedule windows due).Obeys Goes Ends StoppedBy false := by
  induction due with
  | nil => rfl
  | cons window rest ih =>
    rw [remindDue]
    refine Prog.obeys_act_bind rfl ?_
    rintro (_ | permission) _ rfl
    · rfl
    · dsimp only
      cases permission.blockReason with
      | some reason =>
        refine Prog.obeys_act_bind rfl ?_
        rintro r _ rfl
        rfl
      | none =>
        refine Prog.obeys_act_bind rfl ?_
        rintro now _ rfl
        split
        · exact ih
        · refine Prog.obeys_act_bind rfl ?_
          rintro (_ | _ | _) _ rfl
          · exact ih
          · exact ih
          · refine Prog.obeys_act_bind rfl ?_
            rintro (_ | outcome) _ rfl
            · rfl
            · refine Prog.obeys_act_bind rfl ?_
              rintro r _ rfl
              exact ih

theorem remind_ends {subscription : ReminderSubscription A} {windows : WindowSet A} {now : Int} :
    (remind subscription windows now).Obeys Goes Ends StoppedBy false := by
  unfold remind
  split
  · rfl
  · exact remindDue_ends

theorem scheduledWindows_ends {subscription : ReminderSubscription A} {now : Int} :
    (scheduledWindows subscription now).Obeys Goes Ends (fun _ finished => finished = false) false := by
  rw [scheduledWindows]
  refine Prog.obeys_act_bind rfl ?_
  rintro (_ | target) _ rfl
  · rfl
  · refine Prog.obeys_act_bind rfl ?_
    rintro (_ | site) _ rfl
    · rfl
    · dsimp only
      split
      · rfl
      · exact ⟨rfl, by rintro r _ rfl; rfl⟩

theorem passOver_ends {subscriptions : List (ReminderSubscription A)} {nextDue : Option Int}
    {blocked : Bool} :
    (passOver subscriptions nextDue blocked).Obeys Goes Ends StoppedBy false := by
  induction subscriptions generalizing nextDue blocked with
  | nil => rfl
  | cons subscription rest ih =>
    rw [passOver]
    refine Prog.obeys_act_bind rfl ?_
    rintro (_ | _) _ rfl
    · refine Prog.obeys_act_bind rfl ?_
      rintro now _ rfl
      rw [Prog.obeys_bind]
      refine scheduledWindows_ends.mono ?_
      rintro (error | windows) _ rfl
      · exact ih
      · dsimp only
        rw [Prog.obeys_bind]
        refine remind_ends.mono ?_
        rintro (stop | reminded) _ rfl
        · rfl
        · refine Prog.obeys_act_bind rfl ?_
          rintro later _ rfl
          exact ih
    · rfl

theorem pass_ends : (pass (A := A)).Obeys Goes Ends StoppedBy false := by
  rw [pass]
  refine Prog.obeys_act_bind rfl ?_
  rintro (_ | _ | _) _ rfl
  · rfl
  · rfl
  · exact passOver_ends

theorem delay_ends {nextDue : Option Int} :
    (delay (A := A) nextDue).Obeys Goes Ends (fun _ finished => finished = false) false := by
  cases nextDue with
  | none => rfl
  | some due => exact Prog.obeys_act_bind rfl (by rintro now _ rfl; rfl)

theorem turn_ends : (turn A).Obeys Goes Ends EndedBy false := by
  have hagain : EndedBy .again false := ⟨by rintro ⟨⟩, by rintro ⟨⟩⟩
  have hover : EndedBy .finished true := ⟨fun _ => rfl, fun _ => rfl⟩
  rw [turn]
  refine Prog.obeys_act_bind rfl ?_
  rintro seen _ rfl
  rw [Prog.obeys_bind]
  refine pass_ends.mono ?_
  rintro (stop | found) _ rfl
  · exact hover
  · cases found with
    | idle =>
      refine Prog.obeys_act_bind rfl ?_
      rintro (_ | _) _ rfl
      · exact hagain
      · exact hover
    | blocked => exact hagain
    | wait nextDue =>
      dsimp only
      rw [Prog.obeys_bind]
      refine delay_ends.mono ?_
      rintro delay _ rfl
      refine Prog.obeys_act_bind rfl ?_
      rintro (_ | _ | _) _ rfl
      · exact hagain
      · exact hagain
      · exact hover

/-- A program that ends only by an answer that ends the task. -/
def Flows (p : Task A Flow) : Prop := p.Obeys Goes Ends EndedBy false

theorem Flows.settle {e : Effect A} {next : Answer e → Task A Flow}
    (h : Flows (.perform e next)) (r : Answer e) :
    (endsTask e r = true ∧ settle (next r) = none) ∨
      (endsTask e r = false ∧ ∃ p, settle (next r) = some p ∧ Flows p) := by
  have hr := h.2 r _ rfl
  cases hnext : next r with
  | pure flow =>
    rw [hnext] at hr
    have hover : endsTask e r = true ↔ flow = .finished := hr
    cases flow with
    | again =>
      right
      refine ⟨?_, _, rfl, turn_ends⟩
      rw [← Bool.not_eq_true, hover]
      rintro ⟨⟩
    | finished => exact .inl ⟨hover.mpr rfl, rfl⟩
  | perform e' next' =>
    rw [hnext] at hr
    have hgoes : endsTask e r = false := hr.1
    rw [hgoes] at hr
    exact .inr ⟨hgoes, _, rfl, hr⟩

end Turns

section Words

variable {A : Almanac} {ls : List (Label A)} {l : Label A} {s s' : System A}

/-- The wakes of task `i` counted so far, from nought where it loads its word. -/
def wakeOf (i : Nat) (wakes : Nat) : Label A → Nat
  | .task j .load _ => if j = i then 0 else wakes
  | .call _ (.count j) true => if j = i then wakes + 1 else wakes
  | _ => wakes

/-- The wakes of task `i` counted since it loaded its word. -/
def wakesSince (i : Nat) (ls : List (Label A)) : Nat := ls.foldl (wakeOf i) 0

@[simp] theorem wakesSince_append (i : Nat) (ls : List (Label A)) (l : Label A) :
    wakesSince i (ls ++ [l]) = wakeOf i (wakesSince i ls) l := by
  simp [wakesSince, List.foldl_append]

theorem or_and_ended (word : Word) : (word ||| ended) &&& ended = ended := by
  ext i hi
  simp only [BitVec.getElem_and, BitVec.getElem_or]
  cases word[i] <;> cases ended[i] <;> rfl

theorem add_oneWake (seen : Word) (n : Nat) :
    seen + oneWake * BitVec.ofNat 64 n + oneWake = seen + oneWake * BitVec.ofNat 64 (n + 1) := by
  rw [BitVec.ofNat_add, BitVec.mul_add, BitVec.add_assoc]
  rfl

theorem add_wakes_eq (seen : Word) (n : Nat) :
    seen + oneWake * BitVec.ofNat 64 n = seen ↔ n % 2 ^ 63 = 0 := by
  have hseen := seen.isLt
  rw [← BitVec.toNat_inj]
  have htwo : oneWake.toNat = 2 := rfl
  simp only [BitVec.toNat_add, BitVec.toNat_mul, BitVec.toNat_ofNat, htwo]
  omega

theorem along_of_unspawned {i : Nat} (h : ∀ e r, .task i e r ∉ ls) :
    Observed.along i ls = Observed.initial A := by
  induction ls using List.reverseRecOn with
  | nil => rfl
  | append_singleton ls l ih =>
    rw [Observed.along_append, ih fun e r hmem => h e r (List.mem_append_left _ hmem)]
    unfold Observed.follow
    split
    · next j e r =>
      rw [if_neg]
      rintro rfl
      exact h e r (List.mem_append_right _ (List.mem_singleton.mpr rfl))
    · rfl

/-- What is known of the tasks and their words after a run. -/
structure Lived (ls : List (Label A)) (s : System A) : Prop where
  unspawned : ∀ i, s.spawned ≤ i → (s.tasks i).program = none ∧ ∀ e r, .task i e r ∉ ls
  flows : ∀ i p, (s.tasks i).program = some p → Flows p
  counted : ∀ i p seen, (s.tasks i).program = some p → (Observed.along i ls).loaded = some seen →
    (s.tasks i).word = seen + oneWake * BitVec.ofNat 64 (wakesSince i ls)
  finished : ∀ i seen new, .task i (.compareExchange seen new) true ∈ ls →
    (s.tasks i).program = none ∧ (s.tasks i).word &&& ended ≠ 0

theorem lived_init : Lived [] (System.init A) :=
  ⟨fun _ _ => ⟨rfl, by rintro e r ⟨⟩⟩, by rintro i p ⟨⟩, by rintro i p seen ⟨⟩,
    by rintro i seen new ⟨⟩⟩

theorem Lived.idle (h : Lived ls s) (hspawned : s'.spawned = s.spawned)
    (hword : ∀ i, (s'.tasks i).word = (s.tasks i).word)
    (hprogram : ∀ i, (s'.tasks i).program = (s.tasks i).program ∨ (s'.tasks i).program = none)
    (htask : ∀ i e r, l ≠ .task i e r) (hwake : ∀ i n, wakeOf i n l = n) :
    Lived (ls ++ [l]) s' := by
  have hfollow : ∀ i (m : Observed A), m.follow i l = m := by
    intro i m
    unfold Observed.follow
    split
    · next j e r => exact absurd rfl (htask j e r)
    · rfl
  have halive : ∀ i p, (s'.tasks i).program = some p → (s.tasks i).program = some p := by
    intro i p hp
    rcases hprogram i with hsame | hnone
    · rw [← hsame, hp]
    · rw [hnone] at hp
      cases hp
  have hdead : ∀ i, (s.tasks i).program = none → (s'.tasks i).program = none := by
    intro i hi
    rcases hprogram i with hsame | hnone
    · rw [hsame, hi]
    · exact hnone
  constructor
  · intro i hi
    obtain ⟨hnone, hlabels⟩ := h.unspawned i (hspawned ▸ hi)
    refine ⟨hdead i hnone, fun e r hmem => ?_⟩
    rcases List.mem_append.mp hmem with hmem | hmem
    · exact hlabels e r hmem
    · exact htask i e r (List.mem_singleton.mp hmem).symm
  · exact fun i p hp => h.flows i p (halive i p hp)
  · intro i p seen hp hseen
    rw [Observed.along_append, hfollow] at hseen
    rw [hword, wakesSince_append, hwake]
    exact h.counted i p seen (halive i p hp) hseen
  · intro i seen new hmem
    rw [hword]
    rcases List.mem_append.mp hmem with hmem | hmem
    · exact ⟨hdead i (h.finished i seen new hmem).1, (h.finished i seen new hmem).2⟩
    · exact absurd (List.mem_singleton.mp hmem).symm (htask i _ _)

theorem wakeOf_task {i j : Nat} {n : Nat} {e : Effect A} {r : Answer e} (h : j ≠ i) :
    wakeOf i n (.task j e r) = n := by
  cases e with
  | load => exact if_neg h
  | _ => rfl

theorem Lived.task (h : Lived ls s) (hfollowed : Followed ls s) {i : Nat} {e : Effect A}
    {next : Answer e → Task A Flow} {r : Answer e}
    (hprogram : (s.tasks i).program = some (.perform e next)) (hperforms : Performs s i e r s') :
    Lived (ls ++ [.task i e r]) (s'.setProgram i (settle (next r))) := by
  obtain ⟨task, tables, hs', hword, -, -⟩ := hperforms.cases
  have hother : ∀ j, j ≠ i → (s'.setProgram i (settle (next r))).tasks j = s.tasks j := by
    intro j hj
    rw [hs']
    simp [System.setProgram, System.setTask, Function.update_of_ne hj]
  have hown : ((s'.setProgram i (settle (next r))).tasks i).program = settle (next r) := by
    rw [setProgram_program, if_pos rfl]
  have hownWord : ((s'.setProgram i (settle (next r))).tasks i).word =
      wordAfter (s.tasks i).word e r := by
    rw [hs', ← hword]
    simp [System.setProgram, System.setTask]
  have hspawned : (s'.setProgram i (settle (next r))).spawned = s.spawned := by
    rw [hs']
    rfl
  have hflows := (h.flows i _ hprogram).settle r
  constructor
  · intro j hj
    rw [hspawned] at hj
    obtain ⟨hnone, hlabels⟩ := h.unspawned j hj
    have hji : j ≠ i := by
      rintro rfl
      rw [hprogram] at hnone
      cases hnone
    rw [hother j hji]
    refine ⟨hnone, fun e' r' hmem => ?_⟩
    rcases List.mem_append.mp hmem with hmem | hmem
    · exact hlabels e' r' hmem
    · cases List.mem_singleton.mp hmem
      exact hji rfl
  · intro j p hp
    by_cases hji : j = i
    · subst hji
      rw [hown] at hp
      rcases hflows with ⟨-, hnone⟩ | ⟨-, q, hq, hqflows⟩
      · rw [hnone] at hp
        cases hp
      · rw [hq] at hp
        cases hp
        exact hqflows
    · rw [hother j hji] at hp
      exact h.flows j p hp
  · intro j p seen hp hseen
    rw [Observed.along_append] at hseen
    rw [wakesSince_append]
    by_cases hji : j = i
    · subst hji
      rw [hownWord]
      rw [hown] at hp
      rw [Observed.follow_own] at hseen
      have hkeeps : ∀ seen, (Observed.along j ls).loaded = some seen → (s.tasks j).word =
          seen + oneWake * BitVec.ofNat 64 (wakesSince j ls) :=
        fun seen => h.counted j _ seen hprogram
      cases e with
      | load =>
        cases hseen
        obtain ⟨rfl, -⟩ := hperforms
        simp [wordAfter, wakeOf]
      | compareExchange old new =>
        cases r with
        | false => exact hkeeps seen hseen
        | true =>
          rcases hflows with ⟨-, hnone⟩ | ⟨hgoes, -⟩
          · rw [hnone] at hp
            cases hp
          · cases hgoes
      | compute target site query => cases r <;> exact hkeeps seen hseen
      | claim claim => rcases r with _ | _ | _ <;> exact hkeeps seen hseen
      | _ => exact hkeeps seen hseen
    · rw [hother j hji] at hp ⊢
      rw [Observed.follow_other (Ne.symm hji)] at hseen
      rw [wakeOf_task (Ne.symm hji)]
      exact h.counted j p seen hp hseen
  · intro j seen new hmem
    rcases List.mem_append.mp hmem with hold | hmem
    · have hji : j ≠ i := by
        rintro rfl
        have hnone := (h.finished j seen new hold).1
        rw [hprogram] at hnone
        cases hnone
      rw [hother j hji]
      exact h.finished j seen new hold
    · cases List.mem_singleton.mp hmem
      obtain ⟨⟨hloaded, hnew, -⟩, -⟩ := hfollowed i _ hprogram
      rw [hown, hownWord]
      refine ⟨?_, ?_⟩
      · rcases hflows with ⟨-, hnone⟩ | ⟨hgoes, -⟩
        · exact hnone
        · cases hgoes
      · change new &&& ended ≠ 0
        rw [hnew, or_and_ended]
        decide

theorem Lived.count (h : Lived ls s) {c i : Nat} (hword : (s.tasks i).word &&& ended = 0) :
    Lived (ls ++ [.call c (.count i) true])
      (s.setTask i { s.tasks i with word := (s.tasks i).word + oneWake }) := by
  have hprogram : ∀ j, ((s.setTask i { s.tasks i with word := (s.tasks i).word + oneWake }).tasks
      j).program = (s.tasks j).program := by
    intro j
    rw [setTask_tasks]
    split
    · next hj => rw [hj]
    · rfl
  have hlabels : ∀ j e r, .task j e r ∈ ls ++ [.call c (.count i) true] → .task j e r ∈ ls := by
    intro j e r hmem
    rcases List.mem_append.mp hmem with hmem | hmem
    · exact hmem
    · cases List.mem_singleton.mp hmem
  constructor
  · intro j hj
    obtain ⟨hnone, hnot⟩ := h.unspawned j hj
    exact ⟨(hprogram j).trans hnone, fun e r hmem => hnot e r (hlabels j e r hmem)⟩
  · exact fun j p hp => h.flows j p ((hprogram j).symm.trans hp)
  · intro j p seen hp hseen
    rw [Observed.along_append] at hseen
    have hcounted := h.counted j p seen ((hprogram j).symm.trans hp) hseen
    rw [wakesSince_append, setTask_tasks]
    by_cases hji : j = i
    · subst hji
      rw [if_pos rfl]
      change (s.tasks j).word + oneWake = _
      rw [hcounted]
      simp only [wakeOf, if_true]
      exact add_oneWake seen _
    · rw [if_neg hji]
      simp only [wakeOf, if_neg (Ne.symm hji)]
      exact hcounted
  · intro j seen new hmem
    obtain ⟨hnone, hover⟩ := h.finished j seen new (hlabels j _ _ hmem)
    refine ⟨(hprogram j).trans hnone, ?_⟩
    rw [setTask_tasks, if_neg]
    · exact hover
    · rintro rfl
      exact hover hword

theorem Lived.spawn (h : Lived ls s) {c : Nat} {runtime : Runtime} :
    Lived (ls ++ [.call c .spawn s.spawned])
      { s.setTask s.spawned (spawnedTask A) with spawned := s.spawned + 1, runtime } := by
  have hlabels : ∀ j e r, .task j e r ∈ ls ++ [.call c .spawn s.spawned] → .task j e r ∈ ls := by
    intro j e r hmem
    rcases List.mem_append.mp hmem with hmem | hmem
    · exact hmem
    · cases List.mem_singleton.mp hmem
  have hnone := (h.unspawned s.spawned (Nat.le_refl _)).2
  constructor
  · intro j hj
    obtain ⟨hdead, hnot⟩ := h.unspawned j (Nat.le_of_succ_le hj)
    have hne : j ≠ s.spawned := Nat.ne_of_gt hj
    refine ⟨?_, fun e r hmem => hnot e r (hlabels j e r hmem)⟩
    simp only [setTask_tasks, if_neg hne]
    exact hdead
  · intro j p hp
    simp only [setTask_tasks] at hp
    split at hp
    · cases hp
      exact turn_ends
    · exact h.flows j p hp
  · intro j p seen hp hseen
    rw [Observed.along_append] at hseen
    rw [wakesSince_append]
    simp only [setTask_tasks] at hp ⊢
    split at hp
    · next hj =>
      subst hj
      change (Observed.along s.spawned ls).loaded = some seen at hseen
      rw [along_of_unspawned hnone] at hseen
      cases hseen
    · next hj =>
      rw [if_neg hj]
      exact h.counted j p seen hp hseen
  · intro j seen new hmem
    have hmem' := hlabels j _ _ hmem
    have hne : j ≠ s.spawned := by
      rintro rfl
      exact hnone _ _ hmem'
    simp only [setTask_tasks, if_neg hne]
    exact h.finished j seen new hmem'

theorem lived_step (h : Lived ls s) (hfollowed : Followed ls s) (hstep : Step s l s') :
    Lived (ls ++ [l]) s' := by
  cases hstep with
  | task hprogram hperforms => exact h.task hfollowed hprogram hperforms
  | @call s₁ c e next r hprogram hperforms =>
    suffices hlived : Lived (ls ++ [.call c e r]) s₁ from
      ⟨hlived.unspawned, hlived.flows, hlived.counted, hlived.finished⟩
    have hsame : ∀ tables runtime, s₁ = { s with tables, runtime } →
        (∀ i n, wakeOf i n (.call c e r) = n) → Lived (ls ++ [.call c e r]) s₁ := by
      rintro tables runtime rfl hwake
      exact h.idle rfl (fun _ => rfl) (fun _ => .inl rfl) (by rintro i e r ⟨⟩) hwake
    have hset : ∀ i task, s₁ = s.setTask i task → task.word = (s.tasks i).word →
        task.program = (s.tasks i).program → (∀ i n, wakeOf i n (.call c e r) = n) →
        Lived (ls ++ [.call c e r]) s₁ := by
      rintro i task rfl hword htask hwake
      refine h.idle rfl (fun j => ?_) (fun j => .inl ?_) (by rintro i e r ⟨⟩) hwake
      · rw [setTask_tasks]
        split
        · next hj => rw [hj, hword]
        · rfl
      · rw [setTask_tasks]
        split
        · next hj => rw [hj, htask]
        · rfl
    cases e with
    | count i =>
      obtain ⟨hcounted, rfl⟩ := hperforms
      cases r with
      | true => exact h.count (of_decide_eq_true hcounted.symm)
      | false => exact hsame s.tables s.runtime rfl fun _ _ => rfl
    | spawn =>
      obtain ⟨-, rfl, rfl⟩ := hperforms
      exact h.spawn
    | notify i => exact hset i _ hperforms rfl rfl fun _ _ => rfl
    | sendStop i => exact hset i _ hperforms.2.2 rfl rfl fun _ _ => rfl
    | lock | unlock | attach | keepScheduler _ =>
      exact hsame s.tables _ hperforms.2 fun _ _ => rfl
    | takeScheduler | join _ => exact hsame s.tables _ hperforms.2.2 fun _ _ => rfl
    | attached | hasScheduler => exact hsame s.tables s.runtime hperforms.2.2 fun _ _ => rfl
    | isFinished _ | anyEnabled | listSites =>
      exact hsame s.tables s.runtime hperforms.2 fun _ _ => rfl
    | permission | requestPermission => exact hsame s.tables s.runtime hperforms fun _ _ => rfl
    | saveSite _ _ _ =>
      obtain ⟨_, -, ⟨_, tables, -, -, hs⟩ | ⟨-, hs⟩⟩ := hperforms
      · exact hsame tables s.runtime hs fun _ _ => rfl
      · exact hsame s.tables s.runtime hs fun _ _ => rfl
    | putReminderSubscription _ =>
      obtain ⟨_, ⟨_, tables, -, -, hs⟩ | ⟨-, hs⟩⟩ := hperforms
      · exact hsame tables s.runtime hs fun _ _ => rfl
      · exact hsame s.tables s.runtime hs fun _ _ => rfl
    | setDefaultSite _ _ | disable _ _ =>
      obtain ⟨_, tables, -, -, hs⟩ | ⟨-, hs⟩ := hperforms
      · exact hsame tables s.runtime hs fun _ _ => rfl
      · exact hsame s.tables s.runtime hs fun _ _ => rfl
  | cancel c _ =>
    refine h.idle ?_ (fun i => ?_) (fun i => .inl (cancelled_program s c i))
      (by rintro i e r ⟨⟩) fun _ _ => rfl
    · unfold System.cancelled
      dsimp only
      split
      · split <;> rfl
      · rfl
    · unfold System.cancelled
      dsimp only
      split
      · split
        · rw [setTask_tasks]
          split
          · next hi =>
            rw [hi]
            rfl
          · rfl
        · rfl
      · rfl
  | panicked i =>
    refine h.idle rfl (fun j => ?_) (fun j => ?_) (by rintro i e r ⟨⟩) fun _ _ => rfl
    · simp only [System.setProgram, setTask_tasks]
      split
      · next hj => rw [hj]
      · rfl
    · rw [setProgram_program]
      split
      · exact .inr rfl
      · exact .inl rfl
  | crash =>
    exact h.idle rfl (fun _ => rfl) (fun _ => .inr rfl) (by rintro i e r ⟨⟩) fun _ _ => rfl
  | begin _ _ _ | reopen | tick _ | saveTarget _ =>
    exact h.idle rfl (fun _ => rfl) (fun _ => .inl rfl) (by rintro i e r ⟨⟩) fun _ _ => rfl

/-- What holds of the tasks after every run. -/
theorem lived_of_run (h : Run Step (System.init A) ls s) : Followed ls s ∧ Lived ls s := by
  have hinit : Followed [] (System.init A) ∧ Lived [] (System.init A) := ⟨followed_init, lived_init⟩
  exact h.traced (I := fun ls s => Followed ls s ∧ Lived ls s)
    (fun _ _ _ _ h hstep => ⟨followed_step h.1 hstep, lived_step h.2 h.1 hstep⟩) hinit

theorem exists_split_of_foldl {α β : Type} {f : β → α → β} {P : β → Prop} {b : β} {as : List α}
    (h : P (as.foldl f b)) (hb : ¬ P b) :
    ∃ as₁ a as₂, as = as₁ ++ a :: as₂ ∧ ¬ P (as₁.foldl f b) ∧ P (f (as₁.foldl f b) a) := by
  induction as generalizing b with
  | nil => exact absurd h hb
  | cons a as ih =>
    by_cases ha : P (f b a)
    · exact ⟨[], a, as, rfl, hb, ha⟩
    · obtain ⟨as₁, a', as₂, rfl, hnot, hstep⟩ := ih h ha
      exact ⟨a :: as₁, a', as₂, rfl, hnot, hstep⟩

theorem exists_load {i n : Nat} (h : ls.foldl (wakeOf i) (n + 1) = 0) :
    ∃ ls₁ word ls₂, ls = ls₁ ++ .task i .load word :: ls₂ := by
  obtain ⟨ls₁, l, ls₂, rfl, hbefore, hafter⟩ :=
    exists_split_of_foldl (P := fun wakes => wakes = 0) h (Nat.succ_ne_zero n)
  unfold wakeOf at hafter
  split at hafter
  · next j word =>
    split at hafter
    · next hj => exact ⟨ls₁, word, ls₂, by rw [hj]⟩
    · exact absurd hafter hbefore
  · split at hafter
    · cases hafter
    · exact absurd hafter hbefore
  · exact absurd hafter hbefore

theorem exists_read {i : Nat} {m : Observed A} {answer : Result (List (ReminderSubscription A))}
    (h : (ls.foldl (Observed.follow i) m).read = some answer) (hm : m.read = none) :
    ∃ ls₁ ls₂, ls = ls₁ ++ .task i .subscriptions answer :: ls₂ := by
  obtain ⟨ls₁, l, ls₂, rfl, hbefore, hafter⟩ :=
    exists_split_of_foldl (P := fun m : Observed A => m.read = some answer) h (by rw [hm]; rintro ⟨⟩)
  unfold Observed.follow at hafter
  split at hafter
  · next j e r =>
    split at hafter
    · next hj =>
      subst hj
      unfold Observed.next at hafter
      split at hafter
      case h_2 => exact ⟨ls₁, ls₂, by rw [Option.some.inj hafter]⟩
      case h_1 => cases hafter
      all_goals exact absurd hafter hbefore
    · exact absurd hafter hbefore
  · exact absurd hafter hbefore

/-- No wake of a task counts once the task has ended itself. After a wake that counted, a task ends itself
only once it has loaded its word again and has then read that no subscription is enabled, where fewer
than 2^63 wakes counted since a load. -/
theorem wake_answered (h : Run Step (System.init A) ls s) (i : Nat) :
    (∀ before c after seen new, ls = before ++ .call c (.count i) true :: after →
      .task i (.compareExchange seen new) true ∉ before) ∧
      ∀ before c between seen new after, ls = before ++ .call c (.count i) true ::
          (between ++ .task i (.compareExchange seen new) true :: after) →
        wakesSince i (before ++ .call c (.count i) true :: between) < 2 ^ 63 →
        ∃ ls₁ word ls₂ ls₃, between = ls₁ ++ .task i .load word ::
          (ls₂ ++ .task i .subscriptions (.ok []) :: ls₃) := by
  constructor
  · rintro before c after seen new rfl hmem
    obtain ⟨s₀, s₁, hbefore, hstep, -⟩ := step_of_run h
    obtain ⟨-, hended⟩ := (lived_of_run hbefore).2.finished i seen new hmem
    cases hstep with
    | call _ hperforms => exact hended (of_decide_eq_true hperforms.1.symm)
  · rintro before c between seen new after hls hfew
    have hsplit : ls = (before ++ .call c (.count i) true :: between) ++
        .task i (.compareExchange seen new) true :: after := by
      rw [hls, List.append_assoc, List.cons_append]
    subst hsplit
    obtain ⟨s₀, s₁, hrun, hstep, -⟩ := step_of_run h
    obtain ⟨hfollowed, hlived⟩ := lived_of_run hrun
    obtain ⟨hloaded, -, hread⟩ := hfollowed.allows hstep
    -- the exchange found the word as it was loaded, so no wake counted since
    have hwakes : wakesSince i (before ++ .call c (.count i) true :: between) = 0 := by
      cases hstep with
      | task hprogram hperforms =>
        have hword := hlived.counted i _ seen hprogram hloaded
        rw [of_decide_eq_true hperforms.1.symm, eq_comm, add_wakes_eq] at hword
        exact (Nat.mod_eq_of_lt hfew).symm.trans hword
    have hcount : ∀ n, wakeOf i n (.call (A := A) c (.count i) true) = n + 1 := fun _ => if_pos rfl
    rw [wakesSince, List.foldl_append, List.foldl_cons, hcount] at hwakes
    obtain ⟨ls₁, word, rest, rfl⟩ := exists_load hwakes
    rw [Observed.along, List.foldl_append, List.foldl_cons, List.foldl_append, List.foldl_cons,
      Observed.follow_own] at hread
    obtain ⟨ls₂, ls₃, rfl⟩ := exists_read hread rfl
    exact ⟨ls₁, word, ls₂, ls₃, rfl⟩

end Words

/-! ## One evening -/

/-- After the activation the scheduler is woken and its subscription disabled; it reads so and ends. -/
def lulled : List (Label steadyAlmanac) × System steadyAlmanac :=
  (System.init steadyAlmanac).play (activated ++ [.begin 4 (.wake 0)] ++
    List.replicate 3 (.call 4 0) ++ [.begin 5 (.disableReminders highTarget.id 1), .call 5 0] ++
    List.replicate 3 (.task 0))

theorem run_lulled : Run Step (System.init steadyAlmanac) lulled.1 lulled.2 :=
  run_of_play _ _

def Label.wakes (i : Nat) : Label steadyAlmanac → Bool
  | .call _ (.count j) true => j = i
  | _ => false

def Label.endsItself (i : Nat) : Label steadyAlmanac → Bool
  | .task j (.compareExchange _ _) true => j = i
  | _ => false

theorem wake_answered_of_lulled :
    lulled.1.any (Label.wakes 0) = true ∧ lulled.1.any (Label.endsItself 0) = true ∧
      ∀ before c after seen new, lulled.1 = before ++ .call c (.count 0) true :: after →
        .task 0 (.compareExchange seen new) true ∉ before :=
  ⟨by decide +kernel, by decide +kernel, (wake_answered run_lulled 0).1⟩

end PlateVault.Reminders
