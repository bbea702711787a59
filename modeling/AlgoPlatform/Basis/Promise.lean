/-
Programs whose environment keeps a promise.

# Why a second logic

`Safe C` lets the environment make every move that meets `C`, whatever
the state. What makes a program get through is rarely a property of the
move alone: that a peer answers in time says something about the state
the answer finds. `Trusts P` is `Safe` with a condition on both.

# What it is good for

A promise is no restriction on where a run may be cut off, so `I` still
holds at every crash. And a program is a well-founded tree: given moves
for ever it ends (`run_ends`), so what `Trusts` says of the endings is
what the program comes to.
-/
import AlgoPlatform.Basis.Prog

namespace Basis.Prog

variable {μ σ ε α β : Type}

-- ============================================================== the logic

/-- From `s`, as long as every move keeps the promise `P` in the state it
finds: every crash of the program leaves `I`, every ending satisfies
`Q`. -/
def Trusts (P : μ → σ → Prop) (I : σ → Prop) :
    Prog μ σ ε α → σ → (Except ε α → σ → Prop) → Prop
  | .done r, s, Q => Q r s
  | .act f k, s, Q =>
      I s ∧ ∀ m, P m s → (k (f m s).1).Trusts P I (f m s).2 Q

section Rules

variable {P : μ → σ → Prop} {I : σ → Prop} {s : σ}

/-- The continuation of `bind` as a postcondition. -/
def trusting (P : μ → σ → Prop) (I : σ → Prop) (q : α → Prog μ σ ε β)
    (Q : Except ε β → σ → Prop) : Except ε α → σ → Prop
  | .ok a, s => (q a).Trusts P I s Q
  | .error e, s => Q (.error e) s

@[simp] theorem trusting_ok (q : α → Prog μ σ ε β)
    (Q : Except ε β → σ → Prop) (a : α) :
    trusting P I q Q (.ok a) s = (q a).Trusts P I s Q := rfl

@[simp] theorem trusts_pure (a : α) (Q : Except ε α → σ → Prop) :
    (pure a : Prog μ σ ε α).Trusts P I s Q = Q (.ok a) s := rfl

@[simp] theorem trusts_bind (p : Prog μ σ ε α) (q : α → Prog μ σ ε β)
    (Q : Except ε β → σ → Prop) :
    (p >>= q).Trusts P I s Q ↔ p.Trusts P I s (trusting P I q Q) := by
  show (p.bind q).Trusts P I s Q ↔ _
  induction p generalizing s with
  | done r => cases r <;> rfl
  | act f k ih =>
      exact and_congr_right fun _ =>
        forall_congr' fun m => imp_congr_right fun _ => ih _

/-- An exception goes to the handler. -/
theorem Trusts.tryCatch {p : Prog μ σ ε α} {h : ε → Prog μ σ ε α}
    {Q R : Except ε α → σ → Prop} (hp : p.Trusts P I s R)
    (hok : ∀ a s', R (.ok a) s' → Q (.ok a) s')
    (herror : ∀ e s', R (.error e) s' → (h e).Trusts P I s' Q) :
    (MonadExcept.tryCatch p h).Trusts P I s Q := by
  show (p.tryCatch h).Trusts P I s Q
  induction p generalizing s with
  | done r =>
      cases r with
      | ok a => exact hok a s hp
      | error e => exact herror e s hp
  | act f k ih => exact ⟨hp.1, fun m hm => ih _ (hp.2 m hm)⟩

/-- Consequence. -/
theorem Trusts.mono {p : Prog μ σ ε α} {Q R : Except ε α → σ → Prop}
    (h : p.Trusts P I s Q) (hQ : ∀ r s, Q r s → R r s) :
    p.Trusts P I s R := by
  induction p generalizing s with
  | done r => exact hQ r s h
  | act f k ih => exact ⟨h.1, fun m hm => ih _ (h.2 m hm)⟩

/-- What holds under every move that meets a condition, and leaves the
crash invariant where it was, holds under a promise that meets it. -/
theorem Safe.trusts {p : Prog μ σ ε α} {C : μ → Prop} {J : σ → Prop}
    {Q : Except ε α → σ → Prop} (h : p.Safe C J s Q)
    (hP : ∀ m s, P m s → C m) (hI : ∀ s, J s → I s) : p.Trusts P I s Q := by
  induction p generalizing s with
  | done r => exact h
  | act f k ih => exact ⟨hI s h.1, fun m hm => ih _ (h.2 m (hP m s hm))⟩

end Rules

-- ============================================================== outcomes

/-- A program gets through: `R` leads to where it ended, and its answer
is `good`, unless it raised where `failed` allows for it. -/
structure Comes (R : σ → σ → Prop) (failed : Prop) (good : α → σ → Prop)
    (s : σ) (r : Except ε α) (s' : σ) : Prop where
  frame : R s s'
  ends : (∃ a, r = .ok a ∧ good a s') ∨ failed ∧ ∃ e, r = .error e

section Outcomes

variable {R : σ → σ → Prop} [Frame R] {failed : Prop} {s : σ}
  {good : α → σ → Prop} {P : μ → σ → Prop} {I : σ → Prop}

theorem Comes.pure {a : α} (h : good a s) :
    Comes R failed good s (.ok a : Except ε α) s :=
  ⟨Frame.refl s, .inl ⟨a, rfl, h⟩⟩

/-- It began earlier. -/
theorem Comes.since {v s' : σ} {r : Except ε α}
    (h : Comes R failed good v r s') (hv : R s v) :
    Comes R failed good s r s' :=
  ⟨Frame.trans hv h.frame, h.ends⟩

omit [Frame R] in
/-- A weaker answer. -/
theorem Comes.imp {good' : α → σ → Prop} {s' : σ} {r : Except ε α}
    (h : Comes R failed good s r s') (himp : ∀ a, good a s' → good' a s') :
    Comes R failed good' s r s' :=
  ⟨h.frame, h.ends.imp_left fun ⟨a, hr, ha⟩ => ⟨a, hr, himp a ha⟩⟩

/-- One program after the other. -/
theorem Trusts.comes_bind {p : Prog μ σ ε α} {q : α → Prog μ σ ε β}
    {G : α → σ → Prop} {G' : β → σ → Prop}
    (hp : p.Trusts P I s (Comes R failed G s))
    (hq : ∀ a s', R s s' → G a s' →
      (q a).Trusts P I s' (Comes R failed G' s')) :
    (p >>= q).Trusts P I s (Comes R failed G' s) := by
  rw [trusts_bind]
  refine hp.mono fun r s' h => ?_
  rcases h.ends with ⟨a, rfl, ha⟩ | ⟨hfailed, e, rfl⟩
  · exact (hq a s' h.frame ha).mono fun r s'' h' => h'.since h.frame
  · exact ⟨h.frame, .inr ⟨hfailed, e, rfl⟩⟩

end Outcomes

-- =============================================================== the runs

/-- Every move of the script that the program uses keeps the promise in
the state it finds. -/
def Honours (P : μ → σ → Prop) : Prog μ σ ε α → List μ → σ → Prop
  | .done _, _, _ => True
  | .act _ _, [], _ => True
  | .act f k, m :: ms, s => P m s ∧ (k (f m s).1).Honours P ms (f m s).2

instance Honours.decidable {P : μ → σ → Prop} [∀ m s, Decidable (P m s)] :
    (p : Prog μ σ ε α) → (ms : List μ) → (s : σ) → Decidable (p.Honours P ms s)
  | .done _, _, _ => .isTrue trivial
  | .act _ _, [], _ => .isTrue trivial
  | .act f k, m :: ms, s =>
      @instDecidableAnd (P m s) _ _ (Honours.decidable (k (f m s).1) ms _)

/-- Every move of a script without an end that the program uses does. -/
def HonoursAll (P : μ → σ → Prop) : Prog μ σ ε α → (Nat → μ) → σ → Prop
  | .done _, _, _ => True
  | .act f k, moves, s => P (moves 0) s
      ∧ (k (f (moves 0) s).1).HonoursAll P (fun i => moves (i + 1))
        (f (moves 0) s).2

instance HonoursAll.decidable {P : μ → σ → Prop} [∀ m s, Decidable (P m s)] :
    (p : Prog μ σ ε α) → (moves : Nat → μ) → (s : σ) →
      Decidable (p.HonoursAll P moves s)
  | .done _, _, _ => .isTrue trivial
  | .act f k, moves, s =>
      @instDecidableAnd (P (moves 0) s) _ _ (HonoursAll.decidable
        (k (f (moves 0) s).1) (fun i => moves (i + 1)) _)

/-- Soundness: on a script that honours the promise, wherever it cuts the
program off. -/
theorem Trusts.run {p : Prog μ σ ε α} {P : μ → σ → Prop} {I : σ → Prop}
    {Q : Except ε α → σ → Prop} {s : σ} (h : p.Trusts P I s Q)
    {ms : List μ} (hms : p.Honours P ms s) :
    Holds I Q (p.run ms s).1 (p.run ms s).2.1 := by
  induction p generalizing ms s with
  | done r => cases r <;> exact h
  | act f k ih =>
      cases ms with
      | nil => exact h.1
      | cons m ms => exact ih _ (h.2 m hms.1) hms.2

/-- What every crash and every ending leaves, a run leaves. -/
theorem Trusts.after {p : Prog μ σ ε α} {P : μ → σ → Prop} {I : σ → Prop}
    {s : σ} (h : p.Trusts P I s fun _ s => I s) {ms : List μ}
    (hms : p.Honours P ms s) : I (p.after ms s) := by
  have hrun := h.run hms
  unfold Prog.after
  cases hend : (p.run ms s).1 <;> rw [hend] at hrun <;> exact hrun

end Basis.Prog
