/-
Programs that change a state and may raise, keeping the state they left.

A sequence stops at the first exception. What every part of it does to
the state, for a transitive relation, the whole does (`Leads.bind`), and
what every part of it keeps, the whole keeps (`Stays.bind`).
-/
import Mathlib.Tactic.Common

namespace Basis

variable {σ ε α β : Type}

/-- A program over a state: how it ends, and the state it leaves. -/
def Step (σ ε α : Type) : Type := σ → Except ε α × σ

/-- A sequence of checks passed: each of them did. -/
theorem except_bind_ok {r : Except ε α} {f : α → Except ε β} {b : β}
    (h : (r >>= f) = .ok b) : ∃ a, r = .ok a ∧ f a = .ok b := by
  cases r with
  | error e => cases h
  | ok a => exact ⟨a, rfl, h⟩

namespace Step

/-- Sequencing: an exception of the first program skips the second. -/
def bind (p : Step σ ε α) (q : α → Step σ ε β) : Step σ ε β := fun s =>
  match p s with
  | (.ok a, s') => q a s'
  | (.error e, s') => (.error e, s')

instance : Monad (Step σ ε) where
  pure a := fun s => (.ok a, s)
  bind := bind

/-- Raise an exception, or return a value. -/
def lift (r : Except ε α) : Step σ ε α := fun s => (r, s)

/-- The state. -/
def get : Step σ ε σ := fun s => (.ok s, s)

/-- Run the handler on an exception, in the state it left. -/
def tryCatch (p : Step σ ε α) (handler : ε → Step σ ε α) : Step σ ε α :=
  fun s =>
    match p s with
    | (.ok a, s') => (.ok a, s')
    | (.error e, s') => handler e s'

/-- Change the state. -/
def modify (f : σ → σ) : Step σ ε Unit := fun s => (.ok (), f s)

@[simp] theorem pure_apply (a : α) (s : σ) :
    (pure a : Step σ ε α) s = (.ok a, s) := rfl

@[simp] theorem lift_apply (r : Except ε α) (s : σ) :
    (lift r : Step σ ε α) s = (r, s) := rfl

@[simp] theorem get_apply (s : σ) : (get : Step σ ε σ) s = (.ok s, s) := rfl

@[simp] theorem modify_apply (f : σ → σ) (s : σ) :
    (modify f : Step σ ε Unit) s = (.ok (), f s) := rfl

theorem bind_ok {p : Step σ ε α} {q : α → Step σ ε β} {s s' : σ} {a : α}
    (h : p s = (.ok a, s')) : (p >>= q) s = q a s' := by
  show bind p q s = _
  unfold bind
  rw [h]

theorem bind_error {p : Step σ ε α} {q : α → Step σ ε β} {s s' : σ} {e : ε}
    (h : p s = (.error e, s')) : (p >>= q) s = (.error e, s') := by
  show bind p q s = _
  unfold bind
  rw [h]

theorem tryCatch_ok {p : Step σ ε α} {handler : ε → Step σ ε α} {s s' : σ}
    {a : α} (h : p s = (.ok a, s')) : tryCatch p handler s = (.ok a, s') := by
  unfold tryCatch
  rw [h]

theorem tryCatch_error {p : Step σ ε α} {handler : ε → Step σ ε α} {s s' : σ}
    {e : ε} (h : p s = (.error e, s')) :
    tryCatch p handler s = handler e s' := by
  unfold tryCatch
  rw [h]

-- =========================================================== relations

/-- Whatever state the program starts in, the state it leaves is related
to it. -/
def Leads (R : σ → σ → Prop) (p : Step σ ε α) : Prop := ∀ s, R s (p s).2

section Rules

variable {R : σ → σ → Prop}

theorem Leads.pure [Std.Refl R] (a : α) :
    Leads R (Pure.pure a : Step σ ε α) := fun s => Std.Refl.refl s

theorem Leads.lift [Std.Refl R] (r : Except ε α) :
    Leads R (Step.lift r : Step σ ε α) := fun s => Std.Refl.refl s

theorem Leads.get [Std.Refl R] : Leads R (Step.get : Step σ ε σ) :=
  fun s => Std.Refl.refl s

theorem Leads.modify {f : σ → σ} (h : ∀ s, R s (f s)) :
    Leads R (Step.modify f : Step σ ε Unit) := h

/-- From a state, the second part is only asked about states the first
part leaves. -/
theorem bind_leads [IsTrans σ R] {p : Step σ ε α} {q : α → Step σ ε β} {s : σ}
    (hp : R s (p s).2) (hq : ∀ a, (p s).1 = .ok a → R (p s).2 (q a (p s).2).2) :
    R s ((p >>= q) s).2 := by
  obtain ⟨⟨result, s'⟩, hrun⟩ : ∃ r, p s = r := ⟨_, rfl⟩
  rw [hrun] at hp hq
  cases result with
  | error e =>
      rw [bind_error hrun]
      exact hp
  | ok a =>
      rw [bind_ok hrun]
      exact IsTrans.trans _ _ _ hp (hq a rfl)

theorem Leads.bind [IsTrans σ R] {p : Step σ ε α} {q : α → Step σ ε β}
    (hp : Leads R p) (hq : ∀ a, Leads R (q a)) : Leads R (p >>= q) :=
  fun s => bind_leads (hp s) fun a _ => hq a _

end Rules

-- ========================================================== invariants

/-- Started in a state of `I`, the program leaves one, however it ends. -/
def Stays (I : σ → Prop) (p : Step σ ε α) : Prop := ∀ s, I s → I (p s).2

section Invariants

variable {I : σ → Prop}

theorem Stays.pure (a : α) : Stays I (Pure.pure a : Step σ ε α) :=
  fun _ hs => hs

theorem Stays.lift (r : Except ε α) : Stays I (Step.lift r : Step σ ε α) :=
  fun _ hs => hs

theorem Stays.modify {f : σ → σ} (h : ∀ s, I s → I (f s)) :
    Stays I (Step.modify f : Step σ ε Unit) := h

theorem Stays.bind {p : Step σ ε α} {q : α → Step σ ε β} (hp : Stays I p)
    (hq : ∀ a, Stays I (q a)) : Stays I (p >>= q) := by
  intro s hs
  obtain ⟨⟨result, s'⟩, hrun⟩ : ∃ r, p s = r := ⟨_, rfl⟩
  have hs' : I s' := by
    have h := hp s hs
    rwa [hrun] at h
  cases result with
  | error e =>
      rw [bind_error hrun]
      exact hs'
  | ok a =>
      rw [bind_ok hrun]
      exact hq a s' hs'

/-- Read the state, then go on from the state that was read. -/
theorem Stays.read {q : σ → Step σ ε β}
    (hq : ∀ s, I s → I (q s s).2) : Stays I (Step.get >>= q) := hq

theorem Stays.tryCatch {p : Step σ ε α} {handler : ε → Step σ ε α}
    (hp : Stays I p) (hhandler : ∀ e, Stays I (handler e)) :
    Stays I (Step.tryCatch p handler) := by
  intro s hs
  obtain ⟨⟨result, s'⟩, hrun⟩ : ∃ r, p s = r := ⟨_, rfl⟩
  have hs' : I s' := by
    have h := hp s hs
    rwa [hrun] at h
  cases result with
  | error e =>
      rw [tryCatch_error hrun]
      exact hhandler e s' hs'
  | ok a =>
      rw [tryCatch_ok hrun]
      exact hs'

end Invariants

-- ===================================================== first exceptions

/-- A run ended in this exception, or, where there is none, in a value and
a state that satisfy the postcondition. -/
def Ends (first : Option ε) (run : Except ε α × σ) (post : α → σ → Prop) :
    Prop :=
  match first with
  | some e => run.1 = .error e
  | none => ∃ a s, run = (.ok a, s) ∧ post a s

theorem Ends.pure {post : α → σ → Prop} {a : α} {s : σ} (h : post a s) :
    Ends none ((Pure.pure a : Step σ ε α) s) post := ⟨a, s, rfl, h⟩

theorem Ends.mono {first : Option ε} {run : Except ε α × σ}
    {post post' : α → σ → Prop} (h : Ends first run post)
    (hpost : ∀ a s, post a s → post' a s) : Ends first run post' := by
  cases first with
  | some e => exact h
  | none =>
      obtain ⟨a, s, hrun, hs⟩ := h
      exact ⟨a, s, hrun, hpost a s hs⟩

/-- The first exception of a sequence is that of its first part, or else
that of its second. -/
theorem Ends.bind {p : Step σ ε α} {q : α → Step σ ε β} {s : σ}
    {first second : Option ε} {post : α → σ → Prop} {post' : β → σ → Prop}
    (hp : Ends first (p s) post)
    (hq : ∀ a s', post a s' → Ends second (q a s') post') :
    Ends (first.or second) ((p >>= q) s) post' := by
  cases first with
  | some e =>
      have hrun : p s = (.error e, (p s).2) := Prod.ext hp rfl
      rw [bind_error hrun]
      rfl
  | none =>
      obtain ⟨a, s', hrun, hs'⟩ := hp
      rw [bind_ok hrun]
      exact hq a s' hs'

end Step

end Basis
