import Mathlib.Logic.Basic

/-!
# Programs that may stop between two effects

A program performs effects and continues with their answers. What an effect answers and does to the
state is a relation, so that it may fail or be refused at any time. A program may stop before and
after each effect: `Keeps I Q` says that `I` holds at every such stop, and `Q` of what is returned.
Where several programs share a state, `Obeys` judges one of them by its own effects and their answers.
-/

/-- A program over the effects `E`, each answered with an `R e`. -/
inductive Prog (E : Type) (R : E → Type) (α : Type)
  | pure (a : α)
  | perform (e : E) (next : R e → Prog E R α)

namespace Prog

variable {E : Type} {R : E → Type} {α β : Type}

/-- One effect. -/
def act (e : E) : Prog E R (R e) := .perform e .pure

protected def bind : Prog E R α → (α → Prog E R β) → Prog E R β
  | .pure a, f => f a
  | .perform e next, f => .perform e fun r => (next r).bind f

instance : Monad (Prog E R) where
  pure := .pure
  bind := Prog.bind

/-- Every effect the program may perform is `ok`. -/
def All (ok : E → Prop) : Prog E R α → Prop
  | .pure _ => True
  | .perform e next => ok e ∧ ∀ r, (next r).All ok

section All

variable {ok : E → Prop}

theorem all_pure (a : α) : (pure a : Prog E R α).All ok := trivial

theorem all_act {e : E} (he : ok e) : (act e : Prog E R (R e)).All ok := ⟨he, fun _ => trivial⟩

theorem All.bind {p : Prog E R β} {f : β → Prog E R α} (hp : p.All ok) (hf : ∀ b, (f b).All ok) :
    (p >>= f).All ok := by
  change (p.bind f).All ok
  induction p with
  | pure b => exact hf b
  | perform e next ih => exact ⟨hp.1, fun r => ih r (hp.2 r)⟩

theorem all_act_bind {e : E} {f : R e → Prog E R α} (he : ok e) (hf : ∀ r, (f r).All ok) :
    (act e >>= f).All ok :=
  ⟨he, hf⟩

end All

section Semantics

variable {σ : Type} (step : σ → (e : E) → R e → σ → Prop)

/-- The states a program may stop in. -/
inductive Stops : Prog E R α → σ → σ → Prop
  | here (p : Prog E R α) (s : σ) : Stops p s s
  | later {e : E} {next : R e → Prog E R α} {s s' s'' : σ} {r : R e} :
      step s e r s' → Stops (next r) s' s'' → Stops (.perform e next) s s''

/-- What a program may return, and the state it leaves. -/
inductive Returns : Prog E R α → σ → α → σ → Prop
  | pure (a : α) (s : σ) : Returns (.pure a) s a s
  | perform {e : E} {next : R e → Prog E R α} {s s' s'' : σ} {r : R e} {a : α} :
      step s e r s' → Returns (next r) s' a s'' → Returns (.perform e next) s a s''

/-- `I` holds at every stop, and `Q` of whatever is returned. -/
def Keeps (I : σ → Prop) (Q : α → σ → Prop) : Prog E R α → σ → Prop
  | .pure a, s => I s ∧ Q a s
  | .perform e next, s => I s ∧ ∀ r s', step s e r s' → Keeps I Q (next r) s'

variable {step} {I : σ → Prop} {Q : α → σ → Prop} {s : σ}

theorem Keeps.start {p : Prog E R α} (h : p.Keeps step I Q s) : I s := by
  cases p with
  | pure => exact h.1
  | perform => exact h.1

theorem Keeps.mono {J : σ → Prop} {T : α → σ → Prop} (hI : ∀ s, I s → J s)
    (hQ : ∀ a s, I s → Q a s → T a s) {p : Prog E R α} (h : p.Keeps step I Q s) :
    p.Keeps step J T s := by
  induction p generalizing s with
  | pure a => exact ⟨hI s h.1, hQ a s h.1 h.2⟩
  | perform e next ih => exact ⟨hI s h.1, fun r s' hstep => ih r (h.2 r s' hstep)⟩

@[simp] theorem keeps_pure {a : α} :
    (pure a : Prog E R α).Keeps step I Q s ↔ I s ∧ Q a s :=
  Iff.rfl

@[simp] theorem keeps_act {e : E} {Q : R e → σ → Prop} :
    (act e : Prog E R (R e)).Keeps step I Q s ↔ I s ∧ ∀ r s', step s e r s' → I s' ∧ Q r s' :=
  Iff.rfl

/-- The rule for sequencing. -/
@[simp] theorem keeps_bind {p : Prog E R β} {f : β → Prog E R α} :
    (p >>= f).Keeps step I Q s ↔ p.Keeps step I (fun b s' => (f b).Keeps step I Q s') s := by
  change (p.bind f).Keeps step I Q s ↔ _
  induction p generalizing s with
  | pure b => exact ⟨fun h => ⟨h.start, h⟩, fun h => h.2⟩
  | perform e next ih =>
    exact and_congr_right fun _ => forall_congr' fun r => forall_congr' fun s' =>
      imp_congr_right fun _ => ih r

/-- One effect, then the rest. -/
theorem keeps_act_bind {e : E} {f : R e → Prog E R α} (hs : I s)
    (h : ∀ r s', step s e r s' → (f r).Keeps step I Q s') :
    (act e >>= f).Keeps step I Q s :=
  ⟨hs, h⟩

/-- What every effect of a program keeps, the program keeps. -/
theorem All.keeps {ok : E → Prop} (hI : ∀ e, ok e → ∀ r s s', I s → step s e r s' → I s')
    {p : Prog E R α} (h : p.All ok) (hs : I s) : p.Keeps step I (fun _ => I) s := by
  induction p generalizing s with
  | pure a => exact ⟨hs, hs⟩
  | perform e next ih =>
    exact ⟨hs, fun r s' hstep => ih r (h.2 r) (hI e h.1 r s s' hs hstep)⟩

theorem Keeps.stops {p : Prog E R α} (h : p.Keeps step I Q s) {s' : σ} (hstop : Stops step p s s') :
    I s' := by
  induction hstop with
  | here => exact h.start
  | later hstep _ ih => exact ih (h.2 _ _ hstep)

theorem Keeps.returns {p : Prog E R α} (h : p.Keeps step I Q s) {a : α} {s' : σ}
    (hreturn : Returns step p s a s') : I s' ∧ Q a s' := by
  induction hreturn with
  | pure => exact h
  | perform hstep _ ih => exact ih (h.2 _ _ hstep)

theorem Returns.bind {p : Prog E R β} {f : β → Prog E R α} {b : β} {a : α} {s' s'' : σ}
    (hp : Returns step p s b s') (hf : Returns step (f b) s' a s'') :
    Returns step (p >>= f) s a s'' := by
  change Returns step (p.bind f) s a s''
  induction hp with
  | pure => exact hf
  | perform hstep _ ih => exact .perform hstep (ih hf)

end Semantics

/-! ## What a program has asked -/

section Logs

/-- A program that returned, with its effects and their answers in order. -/
inductive Logs : Prog E R α → List (Sigma R) → α → Prop
  | pure (a : α) : Logs (.pure a) [] a
  | perform {e : E} {next : R e → Prog E R α} {r : R e} {log : List (Sigma R)} {a : α} :
      Logs (next r) log a → Logs (.perform e next) (⟨e, r⟩ :: log) a

variable {log : List (Sigma R)} {a : α}

@[simp] theorem logs_pure {b : α} : Logs (pure b : Prog E R α) log a ↔ log = [] ∧ a = b := by
  constructor
  · rintro ⟨⟩
    exact ⟨rfl, rfl⟩
  · rintro ⟨rfl, rfl⟩
    exact .pure _

theorem logs_perform {e : E} {next : R e → Prog E R α} :
    Logs (.perform e next) log a ↔ ∃ r rest, log = ⟨e, r⟩ :: rest ∧ Logs (next r) rest a := by
  constructor
  · rintro (_ | h)
    exact ⟨_, _, rfl, h⟩
  · rintro ⟨r, rest, rfl, h⟩
    exact .perform h

/-- One effect, then the rest. -/
theorem logs_act_bind {e : E} {f : R e → Prog E R α} :
    Logs (act e >>= f) log a ↔ ∃ r rest, log = ⟨e, r⟩ :: rest ∧ Logs (f r) rest a :=
  logs_perform

/-- What a program in two parts has asked. -/
theorem logs_bind {p : Prog E R β} {f : β → Prog E R α} :
    Logs (p >>= f) log a ↔
      ∃ front back b, log = front ++ back ∧ Logs p front b ∧ Logs (f b) back a := by
  change Logs (p.bind f) log a ↔ _
  induction p generalizing log with
  | pure b =>
    constructor
    · exact fun h => ⟨[], log, b, rfl, .pure b, h⟩
    · rintro ⟨front, back, _, rfl, ⟨⟩, h⟩
      exact h
  | perform e next ih =>
    change Logs (.perform e fun r => (next r).bind f) log a ↔ _
    rw [logs_perform]
    constructor
    · rintro ⟨r, rest, rfl, h⟩
      obtain ⟨front, back, b, rfl, hfront, hback⟩ := (ih r).mp h
      exact ⟨⟨e, r⟩ :: front, back, b, rfl, .perform hfront, hback⟩
    · rintro ⟨front, back, b, rfl, hfront, hback⟩
      obtain ⟨r, rest, rfl, hnext⟩ := logs_perform.mp hfront
      exact ⟨r, rest ++ back, rfl, (ih r).mpr ⟨rest, back, b, rfl, hnext, hback⟩⟩

/-- A log holds only effects the program may perform. -/
theorem Logs.of_all {ok : E → Prop} {p : Prog E R α} (h : Logs p log a) (hp : p.All ok) :
    ∀ call ∈ log, ok call.1 := by
  induction h with
  | pure => exact fun call hcall => absurd hcall List.not_mem_nil
  | perform _ ih =>
    intro call hcall
    rcases List.mem_cons.mp hcall with rfl | hcall
    · exact hp.1
    · exact ih (hp.2 _) call hcall

/-- Every effect of a log is warranted by what was logged before it. -/
def Warranted (P : List (Sigma R) → E → Prop) (log : List (Sigma R)) : Prop :=
  ∀ front call back, log = front ++ call :: back → P front call.1

section Warranted

variable {P : List (Sigma R) → E → Prop}

theorem Warranted.of_all {ok : E → Prop} (hP : ∀ front e, ok e → P front e)
    (h : ∀ call ∈ log, ok call.1) : Warranted P log := by
  rintro front call back rfl
  exact hP front call.1 (h call (by simp))

theorem Warranted.concat (h : Warranted P log) {e : E} {r : R e} (he : P log e) :
    Warranted P (log ++ [⟨e, r⟩]) := by
  intro front call back hlog
  rcases List.eq_nil_or_concat back with rfl | ⟨rest, last, rfl⟩
  · obtain ⟨rfl, hlast⟩ := List.append_inj' hlog rfl
    cases hlast
    exact he
  · have hsplit : log ++ [⟨e, r⟩] = (front ++ call :: rest) ++ [last] := by
      rw [hlog, List.append_assoc, List.cons_append, List.concat_eq_append]
    exact h front call rest (List.append_inj' hsplit rfl).1

/-- What is warranted stays warranted when more was logged before. -/
theorem Warranted.append (hP : ∀ front front' e, P front' e → P (front ++ front') e)
    {log' : List (Sigma R)} (h : Warranted P log) (h' : Warranted P log') :
    Warranted P (log ++ log') := by
  intro front call back hlog
  rcases List.append_eq_append_iff.mp hlog with ⟨middle, rfl, hrest⟩ | ⟨middle, hfront, hrest⟩
  · exact hP log middle call.1 (h' middle call back hrest)
  · cases middle with
    | nil =>
      rw [List.append_nil] at hfront
      have := hP log [] call.1 (h' [] call back hrest.symm)
      rwa [List.append_nil, hfront] at this
    | cons first middle =>
      cases hrest
      exact h front call middle hfront

end Warranted

/-- A program that may throw: it threw, or both parts returned. -/
theorem logs_except_bind {ε : Type} {p : ExceptT ε (Prog E R) β} {f : β → ExceptT ε (Prog E R) α}
    {result : Except ε α} : Logs (p >>= f).run log result ↔
      (∃ e, result = .error e ∧ Logs p.run log (.error e)) ∨
        ∃ front back b, log = front ++ back ∧ Logs p.run front (.ok b) ∧
          Logs (f b).run back result := by
  change Logs (p.run >>= ExceptT.bindCont f) log result ↔ _
  rw [logs_bind]
  constructor
  · rintro ⟨front, back, found, rfl, hfront, hback⟩
    cases found with
    | error e =>
      obtain ⟨rfl, rfl⟩ := logs_pure.mp hback
      exact .inl ⟨e, rfl, by rwa [List.append_nil]⟩
    | ok b => exact .inr ⟨front, back, b, rfl, hfront, hback⟩
  · rintro (⟨e, rfl, hthrew⟩ | ⟨front, back, b, rfl, hfront, hback⟩)
    · exact ⟨log, [], .error e, (List.append_nil _).symm, hthrew, .pure _⟩
    · exact ⟨front, back, .ok b, rfl, hfront, hback⟩

/-- A part that returned, within a program that returned. -/
theorem logs_bind_ok {ε : Type} {p : ExceptT ε (Prog E R) β} {f : β → ExceptT ε (Prog E R) α}
    {a : α} (h : Logs (p >>= f).run log (.ok a)) :
    ∃ front back b, log = front ++ back ∧ Logs p.run front (.ok b) ∧ Logs (f b).run back (.ok a) := by
  rcases logs_except_bind.mp h with ⟨e, hok, -⟩ | hparts
  · cases hok
  · exact hparts

end Logs

section Obeys

variable {μ : Type*} (allow : μ → E → Prop) (after : μ → (e : E) → R e → μ → Prop)

/-- An observer knows what `after` tells of the effects so far. Every effect is allowed by what it
knows before it, and `Q` holds of what is returned. -/
def Obeys (Q : α → μ → Prop) : Prog E R α → μ → Prop
  | .pure a, m => Q a m
  | .perform e next, m => allow m e ∧ ∀ r m', after m e r m' → Obeys Q (next r) m'

variable {allow after} {Q : α → μ → Prop} {m : μ}

theorem Obeys.mono {T : α → μ → Prop} (hQ : ∀ a m, Q a m → T a m) {p : Prog E R α}
    (h : p.Obeys allow after Q m) : p.Obeys allow after T m := by
  induction p generalizing m with
  | pure a => exact hQ a m h
  | perform e next ih => exact ⟨h.1, fun r m' hafter => ih r (h.2 r m' hafter)⟩

@[simp] theorem obeys_pure {a : α} : (pure a : Prog E R α).Obeys allow after Q m ↔ Q a m := Iff.rfl

@[simp] theorem obeys_act {e : E} {Q : R e → μ → Prop} :
    (act e : Prog E R (R e)).Obeys allow after Q m ↔
      allow m e ∧ ∀ r m', after m e r m' → Q r m' :=
  Iff.rfl

/-- The rule for sequencing. -/
@[simp] theorem obeys_bind {p : Prog E R β} {f : β → Prog E R α} :
    (p >>= f).Obeys allow after Q m ↔
      p.Obeys allow after (fun b m' => (f b).Obeys allow after Q m') m := by
  change (p.bind f).Obeys allow after Q m ↔ _
  induction p generalizing m with
  | pure b => exact Iff.rfl
  | perform e next ih =>
    exact and_congr_right fun _ => forall_congr' fun r => forall_congr' fun m' =>
      imp_congr_right fun _ => ih r

/-- One allowed effect, then the rest. -/
theorem obeys_act_bind {e : E} {f : R e → Prog E R α} (he : allow m e)
    (h : ∀ r m', after m e r m' → (f r).Obeys allow after Q m') :
    (act e >>= f).Obeys allow after Q m :=
  ⟨he, h⟩

end Obeys

/-! ## Programs that return at the first effect that fails -/

section Tries

variable {σ ε : Type} {A : E → Type}

/-- A program whose effects answer with an error or an `A e`. -/
abbrev Trying (E : Type) (ε : Type) (A : E → Type) (α : Type) :=
  ExceptT ε (Prog E fun e => Except ε (A e)) α

/-- One effect; its error is the program's. -/
def ask (e : E) : Trying E ε A (A e) := ExceptT.mk (act e)

theorem logs_ask {e : E} {log : List (Sigma fun e => Except ε (A e))} {r : Except ε (A e)} :
    Logs (ask e : Trying E ε A (A e)).run log r ↔ log = [⟨e, r⟩] := by
  constructor
  · intro h
    obtain ⟨answer, rest, rfl, hrest⟩ := logs_perform.mp h
    obtain ⟨rfl, rfl⟩ := logs_pure.mp hrest
    rfl
  · rintro rfl
    exact .perform (.pure r)

variable (step : σ → (e : E) → Except ε (A e) → σ → Prop)

/-- `I` holds at every stop, `Q` of a value returned and `F` of an error. -/
def Tries (I : σ → Prop) (Q : α → σ → Prop) (F : ε → σ → Prop) (p : Trying E ε A α) (s : σ) : Prop :=
  p.run.Keeps step I (fun r s' => match r with | .ok a => Q a s' | .error e => F e s') s

variable {step} {I : σ → Prop} {Q : α → σ → Prop} {F : ε → σ → Prop} {s : σ}

theorem tries_pure {a : α} (hI : I s) (hQ : Q a s) :
    Tries step I Q F (Pure.pure a : Trying E ε A α) s :=
  ⟨hI, hQ⟩

theorem Tries.mono {Q' : α → σ → Prop} {F' : ε → σ → Prop}
    (hQ : ∀ a s, I s → Q a s → Q' a s) (hF : ∀ e s, I s → F e s → F' e s) {p : Trying E ε A α}
    (h : Tries step I Q F p s) : Tries step I Q' F' p s := by
  refine Keeps.mono (fun _ hI => hI) ?_ h
  rintro (e | a) s' hI hend
  · exact hF e s' hI hend
  · exact hQ a s' hI hend

/-- The rule for sequencing. -/
theorem tries_bind {p : Trying E ε A β} {f : β → Trying E ε A α}
    (h : Tries step I (fun b s' => Tries step I Q F (f b) s') F p s) :
    Tries step I Q F (p >>= f) s := by
  change Keeps step I _ (p.run >>= ExceptT.bindCont f) s
  rw [keeps_bind]
  refine Keeps.mono (fun _ hI => hI) ?_ h
  rintro (e | b) s' hI hend
  · exact ⟨hI, hend⟩
  · exact hend

/-- One effect, then the rest. -/
theorem tries_ask_bind {e : E} {f : A e → Trying E ε A α} (hI : I s)
    (hok : ∀ a s', step s e (.ok a) s' → Tries step I Q F (f a) s')
    (herror : ∀ e' s', step s e (.error e') s' → I s' ∧ F e' s') :
    Tries step I Q F (ask e >>= f) s := by
  apply tries_bind
  refine ⟨hI, ?_⟩
  rintro (e' | a) s' hstep
  · exact ⟨(herror e' s' hstep).1, (herror e' s' hstep).2⟩
  · exact ⟨(hok a s' hstep).start, hok a s' hstep⟩

/-- A value known before, then the rest. -/
theorem tries_lift_bind {x : Except ε β} {b : β} {f : β → Trying E ε A α} (hx : x = .ok b)
    (h : Tries step I Q F (f b) s) : Tries step I Q F (liftM x >>= f) s := by
  subst hx
  exact h

/-- An effect at the end of a program. -/
theorem tries_ask {e : E} {Q : A e → σ → Prop}
    (h : Tries step I Q F (ask e >>= Pure.pure : Trying E ε A (A e)) s) :
    Tries step I Q F (ask e : Trying E ε A (A e)) s := by
  refine ⟨h.start, ?_⟩
  rintro (e' | a) s' hstep
  · exact h.2 (.error e') s' hstep
  · exact h.2 (.ok a) s' hstep

end Tries

section Follows

variable {μ ε : Type} {A : E → Type} (allow : μ → E → Prop)
  (after : μ → (e : E) → Except ε (A e) → μ → Prop)

/-- Every effect is allowed by what an observer knows before it, and `Q` holds of a value returned. -/
def Follows (Q : α → μ → Prop) (p : Trying E ε A α) (m : μ) : Prop :=
  p.run.Obeys allow after (fun r m' => ∀ a, r = .ok a → Q a m') m

variable {allow after} {Q : α → μ → Prop} {m : μ}

theorem follows_pure {a : α} (h : Q a m) : Follows allow after Q (Pure.pure a : Trying E ε A α) m := by
  rintro _ ⟨⟩
  exact h

theorem follows_throw {e : ε} : Follows allow after Q (throw e : Trying E ε A α) m := by
  rintro _ ⟨⟩

theorem Follows.mono {T : α → μ → Prop} (hQ : ∀ a m, Q a m → T a m) {p : Trying E ε A α}
    (h : Follows allow after Q p m) : Follows allow after T p m :=
  Obeys.mono (fun _ m' hend a ha => hQ a m' (hend a ha)) h

/-- The rule for sequencing. -/
theorem follows_bind {p : Trying E ε A β} {f : β → Trying E ε A α}
    (h : Follows allow after (fun b m' => Follows allow after Q (f b) m') p m) :
    Follows allow after Q (p >>= f) m := by
  change Obeys allow after _ (p.run >>= ExceptT.bindCont f) m
  rw [obeys_bind]
  refine Obeys.mono ?_ h
  rintro (e | b) m' hend
  · rintro _ ⟨⟩
  · exact hend b rfl

/-- One allowed effect, then the rest. -/
theorem follows_ask_bind {e : E} {f : A e → Trying E ε A α} (he : allow m e)
    (h : ∀ a m', after m e (.ok a) m' → Follows allow after Q (f a) m') :
    Follows allow after Q (ask e >>= f) m := by
  refine follows_bind ⟨he, ?_⟩
  rintro r m' hafter a rfl
  exact h a m' hafter

theorem follows_ask {e : E} {Q : A e → μ → Prop} (he : allow m e)
    (h : ∀ a m', after m e (.ok a) m' → Q a m') :
    Follows allow after Q (ask e : Trying E ε A (A e)) m := by
  refine ⟨he, ?_⟩
  rintro r m' hafter a rfl
  exact h a m' hafter

/-- A value computed without an effect, then the rest. -/
theorem follows_lift_bind {x : Except ε β} {f : β → Trying E ε A α}
    (h : ∀ b, x = .ok b → Follows allow after Q (f b) m) :
    Follows allow after Q (liftM x >>= f) m := by
  cases x with
  | error e => exact follows_throw
  | ok b => exact h b rfl

end Follows

end Prog
