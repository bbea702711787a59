/-
Threads that rely on each other.

# The logic

`Along` says what an act does whatever state it finds, and that is not
enough where an act is right only because of what its own thread did
before. `Beside I R p seen Q` is the weakest precondition of `p` among
threads that keep the invariant `I` and move the state along `R` only:
before each act the others take the state anywhere `R` allows, the act
must then keep `I` and move along `R` itself, and every ending satisfies
`Q`. What a thread knows of the state it last saw survives the others if
`R` carries it (`Beside.carry`).

# Soundness

If every program started is `Beside I R` wherever it starts, a run of the
pool keeps `I` and moves along `R` (`Pool.run_beside`), in every
interleaving and however its threads are cut off.
-/
import AlgoPlatform.Basis.Pool

namespace Basis

variable {ι μ σ ε α β : Type}

namespace Prog

/-- From `seen`, the state the thread last saw, among threads that keep
`I` and move along `R`: every act does so too, and every ending satisfies
`Q`. -/
def Beside (I : σ → Prop) (R : σ → σ → Prop) :
    Prog μ σ ε α → σ → (Except ε α → σ → Prop) → Prop
  | .done r, seen, Q => Q r seen
  | .act f k, seen, Q => ∀ m s, R seen s → I s →
      (I (f m s).2 ∧ R s (f m s).2) ∧ (k (f m s).1).Beside I R (f m s).2 Q

section Rules

variable {I : σ → Prop} {R : σ → σ → Prop} {seen : σ}

/-- Consequence. -/
theorem Beside.mono {p : Prog μ σ ε α} {P Q : Except ε α → σ → Prop}
    (h : p.Beside I R seen P) (hPQ : ∀ r s, P r s → Q r s) :
    p.Beside I R seen Q := by
  induction p generalizing seen with
  | done r => exact hPQ r seen h
  | act f k ih =>
      exact fun m s hseen hs => ⟨(h m s hseen hs).1, ih _ (h m s hseen hs).2⟩

theorem beside_pure {a : α} {Q : Except ε α → σ → Prop}
    (h : Q (.ok a) seen) : (pure a : Prog μ σ ε α).Beside I R seen Q := h

/-- One act. -/
theorem beside_atomic {f : μ → σ → Except ε α × σ}
    {Q : Except ε α → σ → Prop}
    (h : ∀ m s, R seen s → I s →
      (I (f m s).2 ∧ R s (f m s).2) ∧ Q (f m s).1 (f m s).2) :
    (atomic f).Beside I R seen Q := h

/-- Sequencing: nothing acts between an ending and what follows it. -/
theorem beside_bind {p : Prog μ σ ε α} {q : α → Prog μ σ ε β}
    {P : Except ε α → σ → Prop} {Q : Except ε β → σ → Prop}
    (hp : p.Beside I R seen P)
    (hok : ∀ a s, P (.ok a) s → (q a).Beside I R s Q)
    (herror : ∀ e s, P (.error e) s → Q (.error e) s) :
    (p >>= q).Beside I R seen Q := by
  show (p.bind q).Beside I R seen Q
  induction p generalizing seen with
  | done r =>
      cases r with
      | ok a => exact hok a seen hp
      | error e => exact herror e seen hp
  | act f k ih =>
      exact fun m s hseen hs => ⟨(hp m s hseen hs).1, ih _ (hp m s hseen hs).2⟩

/-- Exception handling. -/
theorem beside_tryCatch {p : Prog μ σ ε α} {h : ε → Prog μ σ ε α}
    {P Q : Except ε α → σ → Prop} (hp : p.Beside I R seen P)
    (hok : ∀ a s, P (.ok a) s → Q (.ok a) s)
    (herror : ∀ e s, P (.error e) s → (h e).Beside I R s Q) :
    (MonadExcept.tryCatch p h).Beside I R seen Q := by
  show (p.tryCatch h).Beside I R seen Q
  induction p generalizing seen with
  | done r =>
      cases r with
      | ok a => exact hok a seen hp
      | error e => exact herror e seen hp
  | act f k ih =>
      exact fun m s hseen hs => ⟨(hp m s hseen hs).1, ih _ (hp m s hseen hs).2⟩

theorem beside_ite {c : Prop} [Decidable c] {p q : Prog μ σ ε α}
    {Q : Except ε α → σ → Prop} (hp : c → p.Beside I R seen Q)
    (hq : ¬ c → q.Beside I R seen Q) :
    (if c then p else q).Beside I R seen Q := by
  split_ifs with hc
  · exact hp hc
  · exact hq hc

/-- What the others cannot take away is there at the end. -/
theorem Beside.carry {p : Prog μ σ ε α} {P : Except ε α → σ → Prop}
    {J : σ → Prop} (h : p.Beside I R seen P) (hJ : J seen)
    (hstable : ∀ s t, R s t → J s → J t) :
    p.Beside I R seen fun r s => P r s ∧ J s := by
  induction p generalizing seen with
  | done r => exact ⟨h, hJ⟩
  | act f k ih =>
      intro m s hseen hs
      obtain ⟨hact, hrest⟩ := h m s hseen hs
      exact ⟨hact, ih _ hrest (hstable _ _ hact.2 (hstable _ _ hseen hJ))⟩

/-- A program whose acts do no harm wherever they find the invariant. -/
theorem Along.beside {T : σ → σ → Prop} {p : Prog μ σ ε α} (h : p.Along T)
    (hT : ∀ s t, T s t → I s → I t ∧ R s t) :
    p.Beside I R seen fun _ _ => True := by
  induction p generalizing seen with
  | done r => trivial
  | act f k ih =>
      intro m s _ hs
      obtain ⟨hact, hrest⟩ := h m s trivial
      exact ⟨hT _ _ hact hs, ih _ hrest⟩

/-- What a program ensures, it ensures beside others. -/
theorem Beside.ensures {p : Prog μ σ ε α} {P : Except ε α → σ → Prop}
    {E : α → σ → Prop} (h : p.Beside I R seen P) (hE : Ensures E p) :
    p.Beside I R seen fun r s => P r s ∧ ∀ a, r = .ok a → E a s := by
  have hfrom := hE seen
  clear hE
  induction p generalizing seen with
  | done r => exact ⟨h, hfrom⟩
  | act f k ih =>
      intro m s hseen hs
      exact ⟨(h m s hseen hs).1, ih _ (h m s hseen hs).2 (hfrom m s)⟩

/-- What its acts do wherever they are, they do beside others. -/
theorem Beside.along {p : Prog μ σ ε α} {T : σ → σ → Prop}
    {Q : Except ε α → σ → Prop} (h : p.Beside I R seen Q) (hT : p.Along T) :
    p.Beside I (fun s t => R s t ∧ T s t) seen Q := by
  induction p generalizing seen with
  | done r => exact h
  | act f k ih =>
      intro m s hseen hs
      obtain ⟨⟨hI, hR⟩, hrest⟩ := h m s hseen.1 hs
      obtain ⟨hact, hafter⟩ := hT m s trivial
      exact ⟨⟨hI, hR, hact⟩, ih _ hrest hafter⟩

/-- What the others cannot take away is invariant. -/
theorem Beside.stable {p : Prog μ σ ε α} {J : σ → Prop}
    {Q : Except ε α → σ → Prop} (h : p.Beside I R seen Q)
    (hstable : ∀ s t, R s t → J s → J t) :
    p.Beside (fun s => I s ∧ J s) R seen Q := by
  induction p generalizing seen with
  | done r => exact h
  | act f k ih =>
      intro m s hseen hs
      obtain ⟨⟨hI, hR⟩, hrest⟩ := h m s hseen hs.1
      exact ⟨⟨⟨hI, hstable _ _ hR hs.2⟩, hR⟩, ih _ hrest⟩

/-- Alone, a program is beside nobody. -/
theorem Beside.safe [Frame R] {p : Prog μ σ ε α}
    {Q : Except ε α → σ → Prop} (h : p.Beside I R seen Q) (hI : I seen)
    {C : μ → Prop} : p.Safe C I seen Q := by
  induction p generalizing seen with
  | done r => exact h
  | act f k ih =>
      refine ⟨hI, fun m _ => ?_⟩
      obtain ⟨hact, hrest⟩ := h m seen (Frame.refl seen) hI
      exact ih _ hrest hact.1

/-- One act of a program, among the others. -/
theorem Beside.step [Frame R] {p : Prog μ σ ε α}
    {Q : Except ε α → σ → Prop} (h : p.Beside I R seen Q) (m : μ) {s : σ}
    (hseen : R seen s) (hs : I s) :
    I (p.step m s).2 ∧ R s (p.step m s).2 := by
  cases p with
  | done r => exact ⟨hs, Frame.refl s⟩
  | act f k => exact (h m s hseen hs).1

end Rules

end Prog

/-- What is left of the thread is right beside the others, and they have
moved along `R` since it last looked. -/
structure Thread.Relies (I : σ → Prop) (R : σ → σ → Prop) (s : σ)
    (t : Thread μ σ ε) : Prop where
  moved : R t.seen s
  beside : t.prog.Beside I R t.seen fun _ _ => True

/-- The thread that has just acted. -/
theorem Thread.Relies.step {I : σ → Prop} {R : σ → σ → Prop} [Prog.Frame R]
    {s : σ} {t : Thread μ σ ε} (h : t.Relies I R s) (m : μ) (hs : I s) :
    (⟨(t.prog.step m s).1, (t.prog.step m s).2⟩ : Thread μ σ ε).Relies I R
      (t.prog.step m s).2 := by
  obtain ⟨prog, seen⟩ := t
  refine ⟨Prog.Frame.refl _, ?_⟩
  cases prog with
  | done r => trivial
  | act f k => exact (h.beside m s h.moved hs).2

namespace Pool

variable {program : ι → Prog μ σ ε Unit} {p : Pool μ σ ε}
  {I : σ → Prop} {R : σ → σ → Prop}

/-- One event keeps the invariant and the threads' reliance, and moves
along `R`. -/
private theorem step_beside [Prog.Frame R] {e : Event ι μ}
    (hprogram : ∀ job, e = .start job → ∀ s, I s →
      (program job).Beside I R s fun _ _ => True)
    (hthreads : p.Forall (·.Relies I R p.state)) (hI : I p.state) :
    I (p.step program e).state ∧ R p.state (p.step program e).state
      ∧ (p.step program e).Forall (·.Relies I R (p.step program e).state) := by
  cases e with
  | start job =>
      refine ⟨hI, Prog.Frame.refl _, fun t ht => ?_⟩
      rcases List.mem_append.1 ht with ht | ht
      · exact hthreads t ht
      · rw [List.mem_singleton.1 ht]
        exact ⟨Prog.Frame.refl _, hprogram job rfl _ hI⟩
  | acts i m =>
      cases hi : p.threads[i]? with
      | none =>
          rw [step_gone hi]
          exact ⟨hI, Prog.Frame.refl _, hthreads⟩
      | some t =>
          have ht := hthreads t (List.mem_of_getElem? hi)
          obtain ⟨hnext, hmoved⟩ := ht.beside.step m ht.moved hI
          rw [step_acts hi]
          refine ⟨hnext, hmoved, fun t' ht' => ?_⟩
          rcases List.mem_or_eq_of_mem_set ht' with hold | rfl
          · obtain ⟨hseen, hbeside⟩ := hthreads t' hold
            exact ⟨Prog.Frame.trans hseen hmoved, hbeside⟩
          · exact ht.step m hI

/-- A run of programs each right beside the others keeps the invariant
and moves along `R`. -/
theorem run_beside [Prog.Frame R] {es : List (Event ι μ)}
    (hprogram : ∀ job, .start job ∈ es → ∀ s, I s →
      (program job).Beside I R s fun _ _ => True)
    (hthreads : p.Forall (·.Relies I R p.state)) (hI : I p.state) :
    I (run program p es).state ∧ R p.state (run program p es).state := by
  induction es generalizing p with
  | nil => exact ⟨hI, Prog.Frame.refl _⟩
  | cons e es ih =>
      obtain ⟨hnext, hmoved, hrely⟩ := step_beside (e := e)
        (fun job he => hprogram job (he ▸ List.mem_cons_self ..)) hthreads hI
      obtain ⟨hend, hrest⟩ := ih
        (fun job hjob => hprogram job (List.mem_cons_of_mem _ hjob)) hrely hnext
      exact ⟨hend, Prog.Frame.trans hmoved hrest⟩

end Pool

end Basis
