/-
Counting in one act, adding in a later one.

A program may check a count against a bound and only then raise it. One
thread alone keeps the bound; beside others, the count it checked may be
out of date by the time it adds. `Guarded` says that every act that
raises the count does so by one, after an act that left it below the
bound. `Pool.Fresh` says of a run that nobody raised the count between a
thread's last look and its own raise. Together they keep the bound
(`Pool.run_within`), in every interleaving.
-/
import AlgoPlatform.Basis.Pool

namespace Basis

variable {ι μ σ ε α β : Type}

namespace Prog

/-- Wherever the program goes on from `seen`, the state its last act
left: an act that raises the count finds `seen` below the bound and adds
one, and what the program ends with and last saw satisfies `Q`. -/
def Guarded (count : σ → Nat) (bound : Nat) :
    Prog μ σ ε α → σ → (Except ε α → σ → Prop) → Prop
  | .done r, seen, Q => Q r seen
  | .act f k, seen, Q => ∀ m s,
      (count s < count (f m s).2 →
        count seen < bound ∧ count (f m s).2 ≤ count s + 1)
      ∧ (k (f m s).1).Guarded count bound (f m s).2 Q

section Rules

variable {count : σ → Nat} {bound : Nat} {seen : σ}

theorem guarded_done {r : Except ε α} {Q : Except ε α → σ → Prop}
    (h : Q r seen) : (done r : Prog μ σ ε α).Guarded count bound seen Q := h

theorem guarded_bind {p : Prog μ σ ε α} {q : α → Prog μ σ ε β}
    {P : Except ε α → σ → Prop} {Q : Except ε β → σ → Prop}
    (hp : p.Guarded count bound seen P)
    (hok : ∀ a seen, P (.ok a) seen → (q a).Guarded count bound seen Q)
    (herror : ∀ e seen, P (.error e) seen → Q (.error e) seen) :
    (p >>= q).Guarded count bound seen Q := by
  show (p.bind q).Guarded count bound seen Q
  induction p generalizing seen with
  | done r =>
      cases r with
      | ok a => exact hok a seen hp
      | error e => exact herror e seen hp
  | act f k ih => exact fun m s => ⟨(hp m s).1, ih _ (hp m s).2⟩

theorem Guarded.mono {p : Prog μ σ ε α} {P Q : Except ε α → σ → Prop}
    (h : p.Guarded count bound seen P) (hPQ : ∀ r seen, P r seen → Q r seen) :
    p.Guarded count bound seen Q := by
  induction p generalizing seen with
  | done r => exact hPQ r seen h
  | act f k ih => exact fun m s => ⟨(h m s).1, ih _ (h m s).2⟩

/-- A program none of whose acts raises the count. -/
theorem Along.guarded {R : σ → σ → Prop} {p : Prog μ σ ε α}
    (h : p.Along R) (hR : ∀ s t, R s t → count t ≤ count s) :
    p.Guarded count bound seen fun _ _ => True := by
  induction p generalizing seen with
  | done r => trivial
  | act f k ih =>
      intro m s
      obtain ⟨hact, hrest⟩ := h m s trivial
      refine ⟨fun hraised => ?_, ih _ hrest⟩
      have hkept := hR s _ hact
      omega

/-- One act of a guarded program. -/
theorem Guarded.step {p : Prog μ σ ε α} {Q : Except ε α → σ → Prop}
    (h : p.Guarded count bound seen Q) (m : μ) (s : σ)
    (hraised : count s < count (p.step m s).2) :
    count seen < bound ∧ count (p.step m s).2 ≤ count s + 1 := by
  cases p with
  | done r => exact absurd hraised (Nat.lt_irrefl _)
  | act f k => exact (h m s).1 hraised

end Rules

end Prog

/-- What is left of the thread is guarded from where it is, or it
is done. -/
def Thread.Guarded (count : σ → Nat) (bound : Nat) (t : Thread μ σ ε) : Prop :=
  t.prog.Guarded count bound t.seen fun _ _ => True

theorem Thread.Guarded.step {count : σ → Nat} {bound : Nat}
    {t : Thread μ σ ε} (h : t.Guarded count bound) (m : μ) (s : σ) :
    (t.prog.step m s).1.Guarded count bound (t.prog.step m s).2
      fun _ _ => True := by
  obtain ⟨prog, seen⟩ := t
  cases prog with
  | done r => trivial
  | act f k => exact (h m s).2

namespace Pool

/-- This event raises the count only if the thread last saw it as it
is. -/
def FreshStep (count : σ → Nat) (p : Pool μ σ ε) : Event ι μ → Prop
  | .start _ => True
  | .acts i m =>
      match p.threads[i]? with
      | some t => count p.state < count (t.prog.step m p.state).2 →
          count t.seen = count p.state
      | none => True

instance (count : σ → Nat) (p : Pool μ σ ε) :
    (e : Event ι μ) → Decidable (p.FreshStep count e)
  | .start _ => inferInstanceAs (Decidable True)
  | .acts i m =>
      match h : p.threads[i]? with
      | some t => decidable_of_iff
          (count p.state < count (t.prog.step m p.state).2 →
            count t.seen = count p.state) (by simp only [FreshStep, h])
      | none => .isTrue (by simp only [FreshStep, h])

/-- Every event of the run does. -/
def Fresh (program : ι → Prog μ σ ε Unit) (count : σ → Nat) :
    Pool μ σ ε → List (Event ι μ) → Prop
  | _, [] => True
  | p, e :: es =>
      p.FreshStep count e ∧ Fresh program count (p.step program e) es

instance (program : ι → Prog μ σ ε Unit) (count : σ → Nat) :
    (p : Pool μ σ ε) → (es : List (Event ι μ)) →
      Decidable (Fresh program count p es)
  | _, [] => inferInstanceAs (Decidable True)
  | p, e :: es =>
      have := instDecidableFresh program count (p.step program e) es
      inferInstanceAs (Decidable (_ ∧ _))

variable {program : ι → Prog μ σ ε Unit} {count : σ → Nat} {bound : Nat}
  {p : Pool μ σ ε}

/-- In a fresh run of guarded programs the count stays within the
bound. -/
theorem run_within
    (hprogram : ∀ job s, (program job).Guarded count bound s fun _ _ => True)
    (hthreads : p.Forall fun t => t.Guarded count bound)
    (hwithin : count p.state ≤ bound) {es : List (Event ι μ)}
    (hfresh : Fresh program count p es) :
    count (run program p es).state ≤ bound := by
  induction es generalizing p with
  | nil => exact hwithin
  | cons e es ih =>
      obtain ⟨hstep, hrest⟩ := hfresh
      refine ih ?_ ?_ hrest
      · refine hthreads.step (fun job => hprogram job _) (fun t ht m => ?_) e
        exact (hthreads t ht).step m _
      · cases e with
        | start job => exact hwithin
        | acts i m =>
            cases hi : p.threads[i]? with
            | none =>
                rw [step_gone hi]
                exact hwithin
            | some t =>
                rw [step_acts hi]
                dsimp only
                by_cases hraised :
                    count p.state < count (t.prog.step m p.state).2
                · have hlast : count t.seen = count p.state := by
                    simp only [FreshStep, hi] at hstep
                    exact hstep hraised
                  have hguard := Prog.Guarded.step
                    (hthreads t (List.mem_of_getElem? hi)) m p.state hraised
                  omega
                · omega

end Pool

end Basis
