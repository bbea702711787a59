/-
Invariants that hold as long as every act meets a condition.

`Prog.Along` asks each act to keep a relation whatever it finds. Some
acts keep an invariant only from some states, or under some moves:
`Prog.Upholds C I` asks each act for `I` only where the condition `C`
holds of it and of the acts of the program before it, so that what those
read under `C` can be relied on. `Pool.Under C` says of a run that every
act it took met `C`. A condition may look at the act itself, so it can
be silent on all acts but one. And where it asks for a bound on the
states the acts leave, and no act takes a state back below another, the
state the run ends in is bound enough (`Upholds.after`).
-/
import AlgoPlatform.Basis.Pool

namespace Basis

variable {ι μ σ ε α β : Type}

namespace Prog

/-- The act meets the condition and finds the invariant. -/
def Given (C : Condition μ σ) (I : σ → Prop) : Condition μ σ :=
  fun f m s => C f m s ∧ I s

/-- The act leaves the invariant. -/
def Leaves (I : σ → Prop) : Condition μ σ := fun f m s => I (f m s).2

/-- As long as every act meets the condition and finds the invariant, it
leaves it. -/
def Upholds (C : Condition μ σ) (I : σ → Prop) (p : Prog μ σ ε α) : Prop :=
  p.Takes (Given C I) (Leaves I)

/-- The next act meets the condition. -/
def NextMeets (C : Condition μ σ) : Prog μ σ ε α → μ → σ → Prop
  | .done _, _, _ => True
  | .act f _, m, s => C f m s

section Rules

variable {C : Condition μ σ} {I : σ → Prop}

/-- One act, and what is left after it. -/
theorem Upholds.step {p : Prog μ σ ε α} (h : Upholds C I p) {m : μ} {s : σ}
    (hC : p.NextMeets C m s) (hI : I s) :
    I (p.step m s).2 ∧ (p.step m s).1.Upholds C I := by
  cases p with
  | done r => exact ⟨hI, trivial⟩
  | act f k => exact h m s ⟨hC, hI⟩

/-- A condition on the states the acts leave can be read off the end of
the run, if none of them takes back what the end is asked for. -/
theorem Upholds.after {S : σ → σ → Prop} [Frame S] {B : σ → Prop}
    {p : Prog μ σ ε α} (h : Upholds (Leaves B) I p) (halong : Along S p)
    (hback : ∀ {s t}, S s t → B t → B s) {ms : List μ} {s : σ} (hI : I s)
    (hB : B (p.after ms s)) : I (p.after ms s) := by
  induction p generalizing ms s with
  | done r => cases r <;> exact hI
  | act f k ih =>
      cases ms with
      | nil => exact hI
      | cons m ms =>
          obtain ⟨-, hrest⟩ := halong m s trivial
          have hleft : B (f m s).2 := hback (Along.after hrest ms _) hB
          obtain ⟨hI', hrest'⟩ := h m s ⟨hleft, hI⟩
          exact ih _ hrest' hrest hI' hB

end Rules

end Prog

namespace Pool

/-- The act this event takes meets the condition. -/
def UnderStep (C : Prog.Condition μ σ) (p : Pool μ σ ε) : Event ι μ → Prop
  | .start _ => True
  | .acts i m => ∀ t, p.threads[i]? = some t → t.prog.NextMeets C m p.state

/-- Every act of the run does. -/
def Under (C : Prog.Condition μ σ) (program : ι → Prog μ σ ε Unit) :
    Pool μ σ ε → List (Event ι μ) → Prop
  | _, [] => True
  | p, e :: es => p.UnderStep C e ∧ Under C program (p.step program e) es

variable {program : ι → Prog μ σ ε Unit} {C : Prog.Condition μ σ} {I : σ → Prop}
  {p : Pool μ σ ε}

/-- An event that meets the condition keeps the invariant, and what is
left of every thread upholds it. -/
private theorem step_upholds (hprogram : ∀ job, (program job).Upholds C I)
    (hthreads : p.Forall fun t => t.prog.Upholds C I) (hI : I p.state)
    {e : Event ι μ} (hunder : p.UnderStep C e) :
    I (p.step program e).state
      ∧ (p.step program e).Forall fun t => t.prog.Upholds C I := by
  cases e with
  | start job =>
      refine ⟨hI, fun t ht => ?_⟩
      rcases List.mem_append.1 ht with ht | ht
      · exact hthreads t ht
      · rw [List.mem_singleton.1 ht]
        exact hprogram job
  | acts i m =>
      cases hi : p.threads[i]? with
      | none =>
          rw [step_gone hi]
          exact ⟨hI, hthreads⟩
      | some t =>
          obtain ⟨hstate, hrest⟩ := (hthreads t (List.mem_of_getElem? hi)).step
            (hunder t hi) hI
          rw [step_acts hi]
          refine ⟨hstate, fun t' ht' => ?_⟩
          rcases List.mem_or_eq_of_mem_set ht' with ht' | rfl
          · exact hthreads t' ht'
          · exact hrest

/-- In a run whose acts all meet the condition the invariant holds in
every state. -/
theorem run_upholds (hprogram : ∀ job, (program job).Upholds C I)
    (hthreads : p.Forall fun t => t.prog.Upholds C I) (hI : I p.state)
    {es : List (Event ι μ)} (hunder : Under C program p es) :
    I (run program p es).state := by
  induction es generalizing p with
  | nil => exact hI
  | cons e es ih =>
      obtain ⟨hevent, hrest⟩ := hunder
      obtain ⟨hstate, hafter⟩ := step_upholds hprogram hthreads hI hevent
      exact ih hafter hstate hrest

end Pool

end Basis
