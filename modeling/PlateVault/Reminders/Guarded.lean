import PlateVault.Reminders.Handling
import PlateVault.Reminders.Once

/-!
# The runtime under its mutex

Over every run: what the call that holds the mutex has out is out of the runtime, the task whose
handle is in the runtime was not told to stop, and every other task was, but for one taken out.
-/

namespace PlateVault.Reminders

section Guarded

variable {A : Almanac} {ls : List (Label A)} {l : Label A} {s s' : System A}

namespace Handling

/-- What call `c` has done after a step of the system. -/
def follow (c : Nat) (m : Handling) : Label A → Handling
  | .call d e r => if d = c then m.next e r else m
  | .cancel d => if d = c then initial else m
  | .reopen => initial
  | .crash => initial
  | _ => m

/-- What call `c` has done after a run. -/
def along (c : Nat) (ls : List (Label A)) : Handling := ls.foldl (follow c) initial

@[simp] theorem along_append (c : Nat) (ls : List (Label A)) (l : Label A) :
    along c (ls ++ [l]) = follow c (along c ls) l := by
  simp [along, List.foldl_append]

@[simp] theorem follow_own (c : Nat) (m : Handling) (e : CallEffect A) (r : CallAnswer e) :
    follow c m (.call c e r) = m.next e r := if_pos rfl

theorem follow_other {c d : Nat} (h : d ≠ c) (m : Handling) (e : CallEffect A) (r : CallAnswer e) :
    follow c m (.call d e r) = m := if_neg h

end Handling

open Handling

/-- Every call's program obeys what it has done; a call not begun has done nothing. -/
structure Handled (ls : List (Label A)) (s : System A) : Prop where
  obeys : ∀ c p, s.calls c = some p → p.Obeys Allows After (fun _ _ => True) (along c ls)
  unbegun : ∀ c, s.calls c = none → along c ls = initial

/-! ## Calls -/

theorem Performs.calls {i : Nat} {e : Effect A} {r : Answer e} (h : Performs s i e r s') :
    s'.calls = s.calls := by
  obtain ⟨_, _, rfl, -⟩ := h.cases
  rfl

theorem CallPerforms.calls {c : Nat} {e : CallEffect A} {r : CallAnswer e}
    (h : CallPerforms s c e r s') : s'.calls = s.calls := by
  obtain ⟨_, rfl⟩ | ⟨_, _, -, rfl⟩ | rfl | ⟨_, -, rfl⟩ := h.cases <;> rfl

theorem setCall_calls (s : System A) (c : Nat) (p : Call A Unit) (d : Nat) :
    (s.setCall c p).calls d = if d = c then some p else s.calls d := by
  simp [System.setCall, Function.update_apply]

theorem cancelled_calls (s : System A) (c : Nat) :
    (s.cancelled c).calls = (s.setCall c (pure ())).calls := by
  unfold System.cancelled
  dsimp only
  split
  · split <;> rfl
  · rfl

theorem handled_init : Handled [] (System.init A) :=
  ⟨by rintro c p ⟨⟩, fun _ _ => rfl⟩

theorem handled_of_calls (h : Handled ls s) (hcalls : s'.calls = s.calls)
    (hl : ∀ c m, follow c m l = m) : Handled (ls ++ [l]) s' := by
  constructor
  · intro c p hp
    rw [along_append, hl]
    exact h.obeys c p (hcalls ▸ hp)
  · intro c hc
    rw [along_append, hl]
    exact h.unbegun c (hcalls ▸ hc)

theorem handled_of_dropped
    (hcalls : s'.calls = fun c => (s.calls c).map fun _ => pure ())
    (hl : ∀ c m, follow c m l = initial) : Handled (ls ++ [l]) s' := by
  constructor
  · intro c p hp
    rw [hcalls] at hp
    obtain ⟨_, -, rfl⟩ := Option.map_eq_some_iff.mp hp
    trivial
  · intro c _
    rw [along_append, hl]

theorem handled_step (h : Handled ls s) (hstep : Step s l s') : Handled (ls ++ [l]) s' := by
  cases hstep with
  | task _ hperforms => exact handled_of_calls h hperforms.calls fun _ _ => rfl
  | @call s₁ c e next r hprogram hperforms =>
    constructor
    · intro d p hp
      rw [setCall_calls] at hp
      rw [along_append]
      split at hp
      · next hd =>
        subst hd
        cases hp
        rw [follow_own]
        exact (h.obeys d _ hprogram).2 r _ rfl
      · next hd =>
        rw [hperforms.calls] at hp
        rw [follow_other (Ne.symm hd)]
        exact h.obeys d p hp
    · intro d hd
      rw [setCall_calls] at hd
      split at hd
      · cases hd
      · next hne =>
        rw [hperforms.calls] at hd
        rw [along_append, follow_other (Ne.symm hne)]
        exact h.unbegun d hd
  | begin c call hnew =>
    constructor
    · intro d p hp
      rw [setCall_calls] at hp
      rw [along_append]
      split at hp
      · next hd =>
        subst hd
        cases hp
        change call.program.Obeys Allows After (fun _ _ => True) (along d ls)
        rw [h.unbegun d hnew]
        exact (call.program_obeys rfl).mono fun _ _ _ => trivial
      · exact h.obeys d p hp
    · intro d hd
      rw [setCall_calls] at hd
      split at hd
      · cases hd
      · rw [along_append]
        exact h.unbegun d hd
  | cancel c _ =>
    constructor
    · intro d p hp
      rw [cancelled_calls, setCall_calls] at hp
      rw [along_append]
      split at hp
      · cases hp
        trivial
      · next hd =>
        change p.Obeys Allows After (fun _ _ => True) (if c = d then _ else _)
        rw [if_neg (Ne.symm hd)]
        exact h.obeys d p hp
    · intro d hd
      rw [cancelled_calls, setCall_calls] at hd
      split at hd
      · cases hd
      · next hne =>
        rw [along_append]
        change (if c = d then _ else _) = _
        rw [if_neg (Ne.symm hne)]
        exact h.unbegun d hd
  | reopen => exact handled_of_dropped rfl fun _ _ => rfl
  | crash => exact handled_of_dropped rfl fun _ _ => rfl
  | _ => exact handled_of_calls h rfl fun _ _ => rfl

theorem Handled.allows (h : Handled ls s) {c : Nat} {e : CallEffect A} {r : CallAnswer e}
    (hstep : Step s (.call c e r) s') : (along c ls).Allows e := by
  cases hstep with
  | call hprogram _ => exact (h.obeys c _ hprogram).1

/-! ## The mutex -/

/-- What the holder of the mutex has done is what the runtime shows. -/
structure Under (m : Handling) (s : System A) : Prop where
  taken : s.runtime.taken = m.taken
  out : m.out = true → s.runtime.scheduler = none
  taken_out : m.taken ≠ none → m.out = true
  told : ∀ i, m.taken = some i → i < s.spawned ∧ (s.tasks i).stop = m.stopping

/-- The mutex, the call that holds it, and the handle in the runtime. -/
structure Guarded (ls : List (Label A)) (s : System A) : Prop where
  holds : ∀ c, (along c ls).holds = true ↔ s.runtime.holder = some c
  under : ∀ c, s.runtime.holder = some c → Under (along c ls) s
  free : s.runtime.holder = none → s.runtime.taken = none
  kept : ∀ i, s.runtime.scheduler = some i → i < s.spawned ∧ (s.tasks i).stop = false
  alone : ∀ i, i < s.spawned → (s.tasks i).stop = false →
    s.runtime.scheduler = some i ∨ s.runtime.taken = some i

/-- The same but for what was woken, the notifier and what was kept. -/
structure Alike (m m' : Handling) : Prop where
  holds : m'.holds = m.holds
  out : m'.out = m.out
  taken : m'.taken = m.taken
  stopping : m'.stopping = m.stopping

/-- The same holder and handles, and no task told to stop. -/
structure Steady (s s' : System A) : Prop where
  holder : s'.runtime.holder = s.runtime.holder
  taken : s'.runtime.taken = s.runtime.taken
  scheduler : s'.runtime.scheduler = s.runtime.scheduler
  spawned : s'.spawned = s.spawned
  stop : ∀ i, (s'.tasks i).stop = (s.tasks i).stop

theorem Steady.trans {s'' : System A} (h : Steady s s') (h' : Steady s' s'') : Steady s s'' where
  holder := h'.holder.trans h.holder
  taken := h'.taken.trans h.taken
  scheduler := h'.scheduler.trans h.scheduler
  spawned := h'.spawned.trans h.spawned
  stop i := (h'.stop i).trans (h.stop i)

theorem Steady.guarded (hs : Steady s s') (h : Guarded ls s)
    (hm : ∀ c, Alike (along c ls) (follow c (along c ls) l)) : Guarded (ls ++ [l]) s' := by
  constructor
  · intro c
    rw [along_append, (hm c).holds, hs.holder]
    exact h.holds c
  · intro c hc
    rw [hs.holder] at hc
    have hunder := h.under c hc
    rw [along_append]
    constructor
    · rw [hs.taken, (hm c).taken]
      exact hunder.taken
    · rw [hs.scheduler, (hm c).out]
      exact hunder.out
    · rw [(hm c).taken, (hm c).out]
      exact hunder.taken_out
    · intro i
      rw [(hm c).taken, (hm c).stopping, hs.spawned, hs.stop]
      exact hunder.told i
  · rw [hs.holder, hs.taken]
    exact h.free
  · intro i
    rw [hs.scheduler, hs.spawned, hs.stop]
    exact h.kept i
  · intro i
    rw [hs.scheduler, hs.taken, hs.spawned, hs.stop]
    exact h.alone i

theorem Guarded.own (h : Guarded ls s) {c : Nat} {e : CallEffect A} {r : CallAnswer e}
    (hc : s.runtime.holder = some c) (hholder : s'.runtime.holder = some c)
    (hholds : ((along c ls).next e r).holds = true) (hunder : Under ((along c ls).next e r) s')
    (hkept : ∀ i, s'.runtime.scheduler = some i → i < s'.spawned ∧ (s'.tasks i).stop = false)
    (halone : ∀ i, i < s'.spawned → (s'.tasks i).stop = false →
      s'.runtime.scheduler = some i ∨ s'.runtime.taken = some i) :
    Guarded (ls ++ [.call c e r]) s' := by
  constructor
  · intro d
    rw [along_append, hholder]
    by_cases hd : d = c
    · subst hd
      rw [follow_own]
      exact ⟨fun _ => rfl, fun _ => hholds⟩
    · rw [follow_other (Ne.symm hd), h.holds d, hc]
  · intro d hd
    cases hholder.symm.trans hd
    rw [along_append, follow_own]
    exact hunder
  · intro hnone
    cases hholder.symm.trans hnone
  · exact hkept
  · exact halone

theorem Performs.steady {i : Nat} {e : Effect A} {r : Answer e} (h : Performs s i e r s') :
    Steady s s' := by
  obtain ⟨task, _, rfl, -, hstop, -⟩ := h.cases
  refine ⟨rfl, rfl, rfl, rfl, fun j => ?_⟩
  simp only [setTask_tasks]
  split
  · next hj => rw [hj, hstop]
  · rfl

theorem alike_refl (m : Handling) : Alike m m := ⟨rfl, rfl, rfl, rfl⟩

theorem alike_call {c : Nat} {e : CallEffect A} {r : CallAnswer e}
    (h : ∀ m : Handling, Alike m (m.next e r)) (d : Nat) :
    Alike (along d ls) (follow d (along d ls) (.call c e r)) := by
  by_cases hd : c = d
  · subst hd
    rw [follow_own]
    exact h _
  · rw [follow_other hd]
    exact alike_refl _

theorem setTask_steady {i : Nat} {task : Scheduler A} (h : task.stop = (s.tasks i).stop) :
    Steady s (s.setTask i task) := by
  refine ⟨rfl, rfl, rfl, rfl, fun j => ?_⟩
  rw [setTask_tasks]
  split
  · next hj => rw [hj, h]
  · rfl

theorem steady_of_runtime (hruntime : s'.runtime = s.runtime) (hspawned : s'.spawned = s.spawned)
    (htasks : s'.tasks = s.tasks) : Steady s s' :=
  ⟨by rw [hruntime], by rw [hruntime], by rw [hruntime], hspawned, fun i => by rw [htasks]⟩

theorem guarded_call (h : Guarded ls s) {c : Nat} {e : CallEffect A} {r : CallAnswer e}
    (hallows : (along c ls).Allows e) (hperforms : CallPerforms s c e r s') :
    Guarded (ls ++ [.call c e r]) s' := by
  have hsame : s' = s → (∀ m : Handling, Alike m (m.next e r)) → Guarded (ls ++ [.call c e r]) s' :=
    fun hs hm => (steady_of_runtime (by rw [hs]) (by rw [hs]) (by rw [hs])).guarded h (alike_call hm)
  have hwrite : ∀ tables, s' = { s with tables } → (∀ m : Handling, Alike m (m.next e r)) →
      Guarded (ls ++ [.call c e r]) s' :=
    fun _ hs hm =>
      (steady_of_runtime (by rw [hs]) (by rw [hs]) (by rw [hs])).guarded h (alike_call hm)
  cases e with
  | lock =>
    obtain ⟨hnone, rfl⟩ := hperforms
    have hfree : ∀ d, (along d ls).holds = false := by
      intro d
      by_contra hd
      rw [Bool.not_eq_false, h.holds d, hnone] at hd
      cases hd
    constructor
    · intro d
      rw [along_append]
      by_cases hd : c = d
      · subst hd
        rw [follow_own]
        exact ⟨fun _ => rfl, fun _ => rfl⟩
      · rw [follow_other hd, hfree d]
        exact ⟨by rintro ⟨⟩, fun hc => absurd (Option.some.inj hc) hd⟩
    · rintro d ⟨⟩
      rw [along_append, follow_own]
      exact ⟨h.free hnone, by rintro ⟨⟩, fun hne => absurd rfl hne, by rintro i ⟨⟩⟩
    · rintro ⟨⟩
    · exact h.kept
    · exact h.alone
  | unlock =>
    obtain ⟨hc, rfl⟩ := hperforms
    have hunder := h.under c hc
    constructor
    · intro d
      rw [along_append]
      by_cases hd : c = d
      · subst hd
        rw [follow_own]
        exact ⟨by rintro ⟨⟩, by rintro ⟨⟩⟩
      · rw [follow_other hd, h.holds d, hc]
        exact ⟨fun hsome => absurd (Option.some.inj hsome) hd, by rintro ⟨⟩⟩
    · rintro d ⟨⟩
    · intro _
      exact hunder.taken.trans hallows.2
    · exact h.kept
    · exact h.alone
  | takeScheduler =>
    obtain ⟨hc, rfl, rfl⟩ := hperforms
    have htaken : s.runtime.taken = none := (h.under c hc).taken.trans hallows.2
    refine h.own hc hc hallows.1 ⟨rfl, fun _ => rfl, fun _ => rfl, h.kept⟩ (by rintro i ⟨⟩) ?_
    intro i hi hstop
    rcases h.alone i hi hstop with hscheduler | htook
    · exact .inr hscheduler
    · cases htaken.symm.trans htook
  | keepScheduler i =>
    obtain ⟨hc, rfl⟩ := hperforms
    obtain ⟨hholds, htaken, hstopping, -, -⟩ := hallows
    have hunder := h.under c hc
    obtain ⟨hspawned, hstop⟩ := hunder.told i htaken
    have hnone : s.runtime.scheduler = none := hunder.out (hunder.taken_out (by rw [htaken]; rintro ⟨⟩))
    refine h.own hc hc hholds ⟨rfl, by rintro ⟨⟩, fun hne => absurd rfl hne, by rintro i ⟨⟩⟩ ?_ ?_
    · rintro _ ⟨⟩
      exact ⟨hspawned, hstop.trans hstopping⟩
    · intro j hj hunstopped
      rcases h.alone j hj hunstopped with hscheduler | htook
      · cases hnone.symm.trans hscheduler
      · exact .inl (htaken ▸ hunder.taken ▸ htook)
  | spawn =>
    obtain ⟨hc, rfl, rfl⟩ := hperforms
    obtain ⟨hholds, hout, htaken⟩ := hallows
    have hscheduler := (h.under c hc).out hout
    refine h.own hc hc hholds ⟨rfl, fun _ => hscheduler, fun _ => hout, ?_⟩ ?_ ?_
    · rintro _ ⟨⟩
      refine ⟨Nat.lt_succ_self _, ?_⟩
      simp [spawnedTask, Handling.next]
    · intro i hi
      cases hscheduler.symm.trans hi
    · -- no other task is left that was not told to stop
      intro i hi hunstopped
      rcases Nat.lt_succ_iff_lt_or_eq.mp hi with hlt | rfl
      · rw [setTask_tasks, if_neg hlt.ne] at hunstopped
        rcases h.alone i hlt hunstopped with hkept | htook
        · cases hscheduler.symm.trans hkept
        · cases ((h.under c hc).taken.trans htaken).symm.trans htook
      · exact .inr rfl
  | sendStop i =>
    obtain ⟨hc, htaken, rfl⟩ := hperforms
    have hunder := h.under c hc
    have hout : (along c ls).out = true := by
      apply hunder.taken_out
      rw [hallows.2]
      rintro ⟨⟩
    refine h.own hc hc hallows.1 ⟨hunder.taken, hunder.out, hunder.taken_out, ?_⟩ ?_ ?_
    · intro j hj
      cases hallows.2.symm.trans hj
      exact ⟨(hunder.told i hallows.2).1, by rw [setTask_tasks, if_pos rfl]; rfl⟩
    · intro j hj
      cases (hunder.out hout).symm.trans hj
    · intro j hj hunstopped
      rw [setTask_tasks] at hunstopped
      split at hunstopped
      · cases hunstopped
      · exact h.alone j hj hunstopped
  | join i =>
    obtain ⟨hc, -, rfl⟩ := hperforms
    have hunder := h.under c hc
    obtain ⟨hholds, htaken, hstopping⟩ := hallows
    refine h.own hc hc hholds ⟨rfl, hunder.out, fun hne => absurd rfl hne, by rintro i ⟨⟩⟩ h.kept ?_
    intro j hj hunstopped
    rcases h.alone j hj hunstopped with hkept | htook
    · exact .inl hkept
    · have hi : i = j := Option.some.inj (htaken.symm.trans (hunder.taken.symm.trans htook))
      have htold : (s.tasks j).stop = true := hi ▸ (hunder.told i htaken).2.trans hstopping
      cases htold.symm.trans hunstopped
  | attached | hasScheduler => exact hsame hperforms.2.2 fun m => ⟨rfl, rfl, rfl, rfl⟩
  | attach =>
    obtain ⟨-, rfl⟩ := hperforms
    refine Steady.guarded (s := s) ⟨rfl, rfl, rfl, rfl, fun _ => rfl⟩ h (alike_call ?_)
    exact fun m => ⟨rfl, rfl, rfl, rfl⟩
  | count i =>
    obtain ⟨-, rfl⟩ := hperforms
    refine Steady.guarded ?_ h (alike_call fun m => ⟨rfl, rfl, rfl, rfl⟩)
    split
    · exact setTask_steady rfl
    · exact steady_of_runtime rfl rfl rfl
  | notify i =>
    cases hperforms
    have hsteady : Steady s (s.setTask i { s.tasks i with permit := true }) := setTask_steady rfl
    exact hsteady.guarded h (alike_call fun m => ⟨rfl, rfl, rfl, rfl⟩)
  | isFinished _ | anyEnabled | listSites => exact hsame hperforms.2 fun m => ⟨rfl, rfl, rfl, rfl⟩
  | permission | requestPermission => exact hsame hperforms fun m => ⟨rfl, rfl, rfl, rfl⟩
  | saveSite _ _ _ =>
    obtain ⟨_, -, ⟨_, tables, -, -, hs⟩ | ⟨-, hs⟩⟩ := hperforms
    · exact hwrite tables hs fun m => ⟨rfl, rfl, rfl, rfl⟩
    · exact hsame hs fun m => ⟨rfl, rfl, rfl, rfl⟩
  | putReminderSubscription _ =>
    obtain ⟨_, ⟨_, tables, -, -, hs⟩ | ⟨-, hs⟩⟩ := hperforms
    · exact hwrite tables hs fun m => ⟨rfl, rfl, rfl, rfl⟩
    · exact hsame hs fun m => ⟨rfl, rfl, rfl, rfl⟩
  | setDefaultSite _ _ | disable _ _ =>
    obtain ⟨_, tables, -, -, hs⟩ | ⟨-, hs⟩ := hperforms
    · exact hwrite tables hs fun m => ⟨rfl, rfl, rfl, rfl⟩
    · exact hsame hs fun m => ⟨rfl, rfl, rfl, rfl⟩

theorem Guarded.setCall (h : Guarded ls s) (c : Nat) (p : Call A Unit) :
    Guarded ls (s.setCall c p) :=
  ⟨h.holds, fun d hd => ⟨(h.under d hd).taken, (h.under d hd).out, (h.under d hd).taken_out,
    (h.under d hd).told⟩, h.free, h.kept, h.alone⟩

theorem setProgram_steady (s : System A) (i : Nat) (program : Option (Task A Flow)) :
    Steady s (s.setProgram i program) :=
  setTask_steady rfl

/-- The mutex released by a call that is dropped, and the task of a handle it had out told to stop. -/
theorem guarded_cancel (h : Guarded ls s) (c : Nat) : Guarded (ls ++ [.cancel c]) (s.cancelled c) := by
  have hfollow : ∀ d, c ≠ d → (along d (ls ++ [.cancel c])) = along d ls := by
    intro d hd
    rw [along_append]
    exact if_neg hd
  have hown : along c (ls ++ [.cancel c]) = initial := by
    rw [along_append]
    exact if_pos rfl
  unfold System.cancelled
  dsimp only
  split
  · next hc =>
    change s.runtime.holder = some c at hc
    have hunder := h.under c hc
    have hguarded : ∀ s₁ : System A, s₁.runtime = { s.runtime with holder := none, taken := none } →
        (∀ i, s.runtime.scheduler = some i → i < s₁.spawned ∧ (s₁.tasks i).stop = false) →
        (∀ i, i < s₁.spawned → (s₁.tasks i).stop = false → s.runtime.scheduler = some i) →
        Guarded (ls ++ [.cancel c]) s₁ := by
      intro s₁ hruntime hkept halone
      constructor
      · intro d
        rw [hruntime]
        by_cases hd : c = d
        · rw [← hd, hown]
          exact ⟨by rintro ⟨⟩, by rintro ⟨⟩⟩
        · rw [hfollow d hd, h.holds d, hc]
          exact ⟨fun hsome => absurd (Option.some.inj hsome) hd, by rintro ⟨⟩⟩
      · intro d hd
        rw [hruntime] at hd
        cases hd
      · rw [hruntime]
        exact fun _ => rfl
      · rw [hruntime]
        exact hkept
      · rw [hruntime]
        exact fun i hi hstop => .inl (halone i hi hstop)
    split
    · next i htaken =>
      change s.runtime.taken = some i at htaken
      have hnone : s.runtime.scheduler = none := by
        apply hunder.out
        apply hunder.taken_out
        rw [← hunder.taken, htaken]
        rintro ⟨⟩
      refine hguarded _ rfl (fun j hj => ?_) fun j hj hunstopped => ?_
      · cases hnone.symm.trans hj
      · rw [setTask_tasks] at hunstopped
        split at hunstopped
        · cases hunstopped
        · next hne =>
          rcases h.alone j hj hunstopped with hkept | htook
          · exact hkept
          · exact absurd (Option.some.inj (htook.symm.trans htaken)) hne
    · next htaken =>
      change s.runtime.taken = none at htaken
      refine hguarded _ rfl h.kept fun j hj hunstopped => ?_
      rcases h.alone j hj hunstopped with hkept | htook
      · exact hkept
      · cases htaken.symm.trans htook
  · next hc =>
    change ¬ s.runtime.holder = some c at hc
    apply Guarded.setCall
    constructor
    · intro d
      by_cases hd : c = d
      · rw [← hd, hown]
        exact ⟨by rintro ⟨⟩, fun hholds => absurd hholds hc⟩
      · rw [hfollow d hd]
        exact h.holds d
    · intro d hd
      rw [hfollow d (by rintro rfl; exact hc hd)]
      exact h.under d hd
    · exact h.free
    · exact h.kept
    · exact h.alone

theorem guarded_of_dropped (hruntime : s'.runtime = ⟨none, false, none, none⟩)
    (hstop : ∀ i, (s'.tasks i).stop = true) (hl : ∀ c m, follow c m l = initial) : Guarded (ls ++ [l]) s' := by
  constructor
  · intro c
    rw [along_append, hl, hruntime]
    exact ⟨by rintro ⟨⟩, by rintro ⟨⟩⟩
  · intro c hc
    rw [hruntime] at hc
    cases hc
  · rw [hruntime]
    exact fun _ => rfl
  · rw [hruntime]
    rintro i ⟨⟩
  · intro i _ hunstopped
    cases (hstop i).symm.trans hunstopped

theorem guarded_step (hhandled : Handled ls s) (h : Guarded ls s) (hstep : Step s l s') :
    Guarded (ls ++ [l]) s' := by
  have hl : (∀ c m, follow c m l = m) → ∀ c, Alike (along c ls) (follow c (along c ls) l) := by
    intro hl c
    rw [hl]
    exact alike_refl _
  have hstep' := hstep
  cases hstep with
  | task _ hperforms =>
    exact (hperforms.steady.trans (setProgram_steady _ _ _)).guarded h (hl fun _ _ => rfl)
  | call _ hperforms => exact (guarded_call h (hhandled.allows hstep') hperforms).setCall _ _
  | begin c call _ => exact Steady.guarded (s := s) ⟨rfl, rfl, rfl, rfl, fun _ => rfl⟩ h (hl fun _ _ => rfl)
  | cancel c _ => exact guarded_cancel h c
  | panicked i => exact (setProgram_steady s i none).guarded h (hl fun _ _ => rfl)
  | reopen => exact guarded_of_dropped rfl (fun _ => rfl) fun _ _ => rfl
  | crash => exact guarded_of_dropped rfl (fun _ => rfl) fun _ _ => rfl
  | tick _ | saveTarget _ =>
    exact Steady.guarded (s := s) ⟨rfl, rfl, rfl, rfl, fun _ => rfl⟩ h (hl fun _ _ => rfl)

theorem guarded_init : Guarded [] (System.init A) :=
  ⟨fun _ => ⟨by rintro ⟨⟩, by rintro ⟨⟩⟩, by rintro c ⟨⟩, fun _ => rfl, by rintro i ⟨⟩,
    fun i hi => absurd hi (Nat.not_lt_zero i)⟩

/-- What holds of the calls and the mutex after every run. -/
theorem guarded_of_run (h : Run Step (System.init A) ls s) : Handled ls s ∧ Guarded ls s := by
  have hinit : Handled [] (System.init A) ∧ Guarded [] (System.init A) :=
    ⟨handled_init, guarded_init⟩
  exact h.traced (I := fun ls s => Handled ls s ∧ Guarded ls s)
    (fun _ _ _ _ h hstep => ⟨handled_step h.1 hstep, guarded_step h.1 h.2 hstep⟩) hinit

theorem Guarded.apart (h : Guarded ls s) {i j : Nat} (hscheduler : s.runtime.scheduler = some i) :
    s.runtime.taken ≠ some j := by
  intro htook
  cases hholder : s.runtime.holder with
  | none => cases (h.free hholder).symm.trans htook
  | some c =>
    have hunder := h.under c hholder
    have hout : (along c ls).out = true := by
      apply hunder.taken_out
      rw [← hunder.taken, htook]
      rintro ⟨⟩
    cases (hunder.out hout).symm.trans hscheduler

/-- Whatever calls and tasks do, dropped, panicked or killed anywhere: a task not told to stop is the one
in the runtime or the one taken out under the mutex, so there is at most one; a task spawned finds every
other told to stop; the runtime keeps no task told to stop, and a call waits for no other. -/
theorem one_scheduler (h : Run Step (System.init A) ls s) :
    (∀ i < s.spawned, (s.tasks i).stop = false →
      s.runtime.scheduler = some i ∨ s.runtime.taken = some i ∧ s.runtime.holder ≠ none) ∧
      (∀ i < s.spawned, ∀ j < s.spawned, (s.tasks i).stop = false → (s.tasks j).stop = false →
        i = j) ∧
      (∀ i, s.runtime.scheduler = some i → i < s.spawned ∧ (s.tasks i).stop = false) ∧
      (∀ c i s', Step s (.call c .spawn i) s' → ∀ j < s.spawned, (s.tasks j).stop = true) ∧
      ∀ c i s', Step s (.call c (.join i) ()) s' → i < s.spawned ∧ (s.tasks i).stop = true := by
  obtain ⟨hhandled, hguarded⟩ := guarded_of_run h
  have hholder : ∀ i, s.runtime.taken = some i → s.runtime.holder ≠ none := by
    intro i htook hnone
    cases (hguarded.free hnone).symm.trans htook
  refine ⟨?_, ?_, hguarded.kept, ?_, ?_⟩
  · intro i hi hstop
    exact (hguarded.alone i hi hstop).imp_right fun htook => ⟨htook, hholder i htook⟩
  · intro i hi j hj hstopi hstopj
    rcases hguarded.alone i hi hstopi with hin | hin <;>
      rcases hguarded.alone j hj hstopj with hjn | hjn
    · exact Option.some.inj (hin.symm.trans hjn)
    · exact absurd hjn (hguarded.apart hin)
    · exact absurd hin (hguarded.apart hjn)
    · exact Option.some.inj (hin.symm.trans hjn)
  · intro c i s' hstep j hj
    obtain ⟨-, hout, htaken⟩ := hhandled.allows hstep
    have hc : s.runtime.holder = some c := by
      cases hstep with
      | call _ hperforms => exact hperforms.1
    have hunder := hguarded.under c hc
    by_contra hstop
    rcases hguarded.alone j hj (Bool.eq_false_iff.mpr hstop) with hjn | hjn
    · cases (hunder.out hout).symm.trans hjn
    · cases (hunder.taken.trans htaken).symm.trans hjn
  · intro c i s' hstep
    obtain ⟨-, htaken, hstopping⟩ := hhandled.allows hstep
    have hc : s.runtime.holder = some c := by
      cases hstep with
      | call _ hperforms => exact hperforms.1
    obtain ⟨hspawned, hstop⟩ := (hguarded.under c hc).told i htaken
    exact ⟨hspawned, hstop.trans hstopping⟩

end Guarded

theorem one_scheduler_of_firstPass :
    firstPass.2.spawned = 1 ∧ (firstPass.2.tasks 0).stop = false ∧
      firstPass.2.runtime.scheduler = some 0 ∧
      ∀ i < firstPass.2.spawned, (firstPass.2.tasks i).stop = false → i = 0 :=
  ⟨by decide +kernel, by decide +kernel, by decide +kernel, fun i hi hstop =>
    (one_scheduler run_firstPass).2.1 i hi 0 (by decide +kernel) hstop (by decide +kernel)⟩

end PlateVault.Reminders
