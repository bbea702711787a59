/-
Programs run side by side on one machine state.

# The semantics

A `Pool` is a machine state and the programs in flight on it. One event
starts a program, or lets one program in flight take its next act under
a move; nothing else happens, and nothing is fair. A program that is
never picked again has crashed, so quantifying over the events
quantifies over every interleaving and every crash at once.

# The logic

An act is atomic, so a program restricts the others only through what
its acts do to the state: a relation that holds along every program
(`Prog.Along`) relates the two ends of every run. What depends on the
order in which threads read and write is stated through `Thread.seen`,
the state a thread last saw.
-/
import AlgoPlatform.Basis.Prog

namespace Basis

variable {ι μ σ ε α : Type}

/-- One act of a program; a program that is done stays so. -/
def Prog.step : Prog μ σ ε α → μ → σ → Prog μ σ ε α × σ
  | .done r, _, s => (.done r, s)
  | .act f k, m, s => (k (f m s).1, (f m s).2)

theorem Prog.Along.step {R : σ → σ → Prop} [Prog.Frame R]
    {p : Prog μ σ ε α} (h : p.Along R) (m : μ) (s : σ) :
    R s (p.step m s).2 ∧ (p.step m s).1.Along R := by
  cases p with
  | done r => exact ⟨Prog.Frame.refl s, trivial⟩
  | act f k => exact h m s trivial

/-- A program in flight: what is left of it, and the state its last act
left. -/
structure Thread (μ σ ε : Type) where
  prog : Prog μ σ ε Unit
  seen : σ

/-- Programs in flight on one state. -/
structure Pool (μ σ ε : Type) where
  threads : List (Thread μ σ ε)
  state : σ

namespace Pool

/-- What may happen next. -/
inductive Event (ι μ : Type)
  | start (job : ι)
  | acts (thread : Nat) (move : μ)

variable (program : ι → Prog μ σ ε Unit)

/-- One event. A thread that is not there does nothing. -/
def step (p : Pool μ σ ε) : Event ι μ → Pool μ σ ε
  | .start job =>
      { p with threads := p.threads ++ [⟨program job, p.state⟩] }
  | .acts i m =>
      match p.threads[i]? with
      | some t =>
          { threads := p.threads.set i
              ⟨(t.prog.step m p.state).1, (t.prog.step m p.state).2⟩
            state := (t.prog.step m p.state).2 }
      | none => p

/-- A run: events, one after the other. -/
def run (p : Pool μ σ ε) (es : List (Event ι μ)) : Pool μ σ ε :=
  es.foldl (step program) p

/-- Nothing in flight. -/
def idle (s : σ) : Pool μ σ ε := ⟨[], s⟩

variable {program} {p : Pool μ σ ε}

@[simp] theorem run_nil : run program p [] = p := rfl

@[simp] theorem run_cons (e : Event ι μ) (es : List (Event ι μ)) :
    run program p (e :: es) = run program (step program p e) es := rfl

theorem run_append (es es' : List (Event ι μ)) :
    run program p (es ++ es') = run program (run program p es) es' :=
  List.foldl_append ..

theorem step_acts {i : Nat} {t : Thread μ σ ε} (h : p.threads[i]? = some t)
    (m : μ) :
    step program p (.acts i m)
      = { threads := p.threads.set i
            ⟨(t.prog.step m p.state).1, (t.prog.step m p.state).2⟩
          state := (t.prog.step m p.state).2 } := by
  simp only [step, h]

theorem step_gone {i : Nat} (h : p.threads[i]? = none) (m : μ) :
    step program p (.acts i m) = p := by
  simp only [step, h]

/-- Every thread satisfies `P`. -/
def Forall (P : Thread μ σ ε → Prop) (p : Pool μ σ ε) : Prop :=
  ∀ t ∈ p.threads, P t

/-- A property of threads survives an event if the new program has it
when it starts and the one that acts has it afterwards. -/
theorem Forall.step {P : Thread μ σ ε → Prop} (h : p.Forall P)
    (hstart : ∀ job, P ⟨program job, p.state⟩)
    (hacts : ∀ t ∈ p.threads, ∀ m : μ,
      P ⟨(t.prog.step m p.state).1, (t.prog.step m p.state).2⟩)
    (e : Event ι μ) : (Pool.step program p e).Forall P := by
  cases e with
  | start job =>
      intro t ht
      rcases List.mem_append.1 ht with ht | ht
      · exact h t ht
      · rw [List.mem_singleton.1 ht]
        exact hstart job
  | acts i m =>
      cases hi : p.threads[i]? with
      | none =>
          rw [step_gone hi]
          exact h
      | some t =>
          rw [step_acts hi]
          intro t' ht'
          rcases List.mem_or_eq_of_mem_set ht' with ht' | rfl
          · exact h t' ht'
          · exact hacts t (List.mem_of_getElem? hi) m

/-- What holds along every program relates the ends of every run. -/
theorem run_along {R : σ → σ → Prop} [Prog.Frame R]
    (hprogram : ∀ job, (program job).Along R)
    (hthreads : p.Forall fun t => t.prog.Along R)
    (es : List (Event ι μ)) : R p.state (run program p es).state := by
  induction es generalizing p with
  | nil => exact Prog.Frame.refl _
  | cons e es ih =>
      have hnext : (Pool.step program p e).Forall fun t => t.prog.Along R :=
        hthreads.step hprogram (fun t ht m => ((hthreads t ht).step m _).2) e
      refine Prog.Frame.trans (R := R) ?_ (ih hnext)
      cases e with
      | start job => exact Prog.Frame.refl _
      | acts i m =>
          cases hi : p.threads[i]? with
          | none =>
              rw [step_gone hi]
              exact Prog.Frame.refl _
          | some t =>
              rw [step_acts hi]
              exact ((hthreads t (List.mem_of_getElem? hi)).step m _).1

/-- Every thread goes on to act along the relation. -/
theorem forall_along {R : σ → σ → Prop} [Prog.Frame R]
    (hprogram : ∀ job, (program job).Along R)
    (hthreads : p.Forall fun t => t.prog.Along R) (es : List (Event ι μ)) :
    (run program p es).Forall fun t => t.prog.Along R := by
  induction es generalizing p with
  | nil => exact hthreads
  | cons e es ih =>
      exact ih (hthreads.step hprogram
        (fun t ht m => ((hthreads t ht).step m _).2) e)

/-- What holds along every program relates any moment of a run to any
later one. -/
theorem run_along_between {R : σ → σ → Prop} [Prog.Frame R]
    (hprogram : ∀ job, (program job).Along R)
    (hthreads : p.Forall fun t => t.prog.Along R)
    (es es' : List (Event ι μ)) :
    R (run program p es).state (run program p (es ++ es')).state := by
  rw [run_append]
  exact run_along hprogram (forall_along hprogram hthreads es) es'

end Pool

end Basis
