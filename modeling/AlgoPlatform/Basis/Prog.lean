/-
Programs that act in atomic steps and can be cut off between any two of
them: the semantics of a process that owns nothing but a durable store
and a remote peer, and its crash logic.

# The semantics

A `Prog` is a tree of atomic acts on a machine state `σ`. Each act is
handed one *move* `μ`, everything the environment decides at that
moment: what it did to the state since the last act, how it answers,
whether it fails. A run consumes a list of moves, one per act, and the
list running out IS the crash, so quantifying over the list quantifies
over every environment behaviour and every crash point at once.

# The logic

`Safe C I p s Q`: from `s`, under moves that satisfy `C`, every crash of
`p` leaves `I` and every ending of `p` satisfies `Q`. It is the weakest
precondition by recursion on the tree, so it splits over `bind` and
`tryCatch` as an equivalence, and `Safe.run` turns it into a statement
about runs.
-/
import Mathlib.Tactic.Common

namespace Basis

variable {μ σ ε α β : Type}

-- ============================================================ programs

/-- A program over machine state `σ` under environment moves `μ`: done
with a value or an exception, or an atomic act and what follows it. -/
inductive Prog (μ σ ε α : Type) : Type 1
  | done (r : Except ε α) : Prog μ σ ε α
  | act {β : Type} (f : μ → σ → β × σ) (k : β → Prog μ σ ε α) : Prog μ σ ε α

namespace Prog

/-- Sequencing: an exception of the first program skips the second. -/
def bind : Prog μ σ ε α → (α → Prog μ σ ε β) → Prog μ σ ε β
  | .done (.ok a), q => q a
  | .done (.error e), _ => .done (.error e)
  | .act f k, q => .act f fun b => (k b).bind q

/-- Exception handling: only an exception reaches the handler, a crash
never does. -/
def tryCatch : Prog μ σ ε α → (ε → Prog μ σ ε α) → Prog μ σ ε α
  | .done (.ok a), _ => .done (.ok a)
  | .done (.error e), h => h e
  | .act f k, h => .act f fun b => (k b).tryCatch h

instance : Monad (Prog μ σ ε) where
  pure a := .done (.ok a)
  bind := bind

instance : MonadExceptOf ε (Prog μ σ ε) where
  throw e := .done (.error e)
  tryCatch := tryCatch

/-- One atomic act whose result may be an exception. -/
def atomic (f : μ → σ → Except ε α × σ) : Prog μ σ ε α := .act f .done

-- ================================================================ runs

/-- How a run ended. -/
inductive Ending (ε α : Type)
  | returned (a : α)
  | raised (e : ε)
  | crashed
  deriving DecidableEq

/-- Run a program on a script of moves: how it ended, the state it left,
and the moves it did not use. The script running out is the crash. -/
def run : Prog μ σ ε α → List μ → σ → Ending ε α × σ × List μ
  | .done (.ok a), ms, s => (.returned a, s, ms)
  | .done (.error e), ms, s => (.raised e, s, ms)
  | .act _ _, [], s => (.crashed, s, [])
  | .act f k, m :: ms, s => (k (f m s).1).run ms (f m s).2

/-- The state a run leaves behind, however it ended. -/
def after (p : Prog μ σ ε α) (ms : List μ) (s : σ) : σ := (p.run ms s).2.1

/-- A run uses up its script from the front. -/
theorem run_suffix (p : Prog μ σ ε α) (ms : List μ) (s : σ) :
    (p.run ms s).2.2 <:+ ms := by
  induction p generalizing ms s with
  | done r => cases r <;> exact List.suffix_refl ms
  | act f k ih =>
      cases ms with
      | nil => exact List.suffix_refl []
      | cons m ms => exact (ih _ ms _).trans (List.suffix_cons m ms)

theorem run_bind (p : Prog μ σ ε α) (q : α → Prog μ σ ε β) (ms : List μ)
    (s : σ) :
    (p >>= q).run ms s = match p.run ms s with
      | (.returned a, s', ms') => (q a).run ms' s'
      | (.raised e, s', ms') => (.raised e, s', ms')
      | (.crashed, s', ms') => (.crashed, s', ms') := by
  show (p.bind q).run ms s = _
  induction p generalizing ms s with
  | done r => cases r <;> rfl
  | act f k ih =>
      cases ms with
      | nil => rfl
      | cons m ms => exact ih _ ms _

/-- A sequence that returned is its first program returning and its
second returning from there. -/
theorem run_bind_returned {p : Prog μ σ ε α} {q : α → Prog μ σ ε β}
    {ms rest : List μ} {s t : σ} {b : β}
    (h : (p >>= q).run ms s = (.returned b, t, rest)) :
    ∃ a s' ms', p.run ms s = (.returned a, s', ms')
      ∧ (q a).run ms' s' = (.returned b, t, rest) := by
  rw [run_bind] at h
  obtain ⟨⟨ending, s', ms'⟩, hp⟩ : ∃ x, p.run ms s = x := ⟨_, rfl⟩
  rw [hp] at h
  cases ending with
  | returned a => exact ⟨a, s', ms', hp, h⟩
  | raised e => cases h
  | crashed => cases h

theorem pure_bind (a : α) (q : α → Prog μ σ ε β) : pure a >>= q = q a := rfl

theorem bind_assoc {γ : Type} (p : Prog μ σ ε α) (q : α → Prog μ σ ε β)
    (q' : β → Prog μ σ ε γ) :
    p >>= q >>= q' = p >>= fun a => q a >>= q' := by
  show (p.bind q).bind q' = p.bind fun a => (q a).bind q'
  induction p with
  | done r => cases r <;> rfl
  | act f k ih =>
      show Prog.act f _ = Prog.act f _
      congr 1
      funext b
      exact ih b

-- ========================================================== crash logic

/-- From `s`, under moves satisfying `C`: every crash of the program
leaves `I`, and every ending satisfies `Q`. -/
def Safe (C : μ → Prop) (I : σ → Prop) :
    Prog μ σ ε α → σ → (Except ε α → σ → Prop) → Prop
  | .done r, s, Q => Q r s
  | .act f k, s, Q => I s ∧ ∀ m, C m → (k (f m s).1).Safe C I (f m s).2 Q

section Rules

variable {C : μ → Prop} {I : σ → Prop} {s : σ}

/-- The continuation of `bind` as a postcondition. -/
def andThen (C : μ → Prop) (I : σ → Prop) (q : α → Prog μ σ ε β)
    (Q : Except ε β → σ → Prop) : Except ε α → σ → Prop
  | .ok a, s => (q a).Safe C I s Q
  | .error e, s => Q (.error e) s

/-- The handler of `tryCatch` as a postcondition. -/
def orElse (C : μ → Prop) (I : σ → Prop) (h : ε → Prog μ σ ε α)
    (Q : Except ε α → σ → Prop) : Except ε α → σ → Prop
  | .ok a, s => Q (.ok a) s
  | .error e, s => (h e).Safe C I s Q

@[simp] theorem andThen_ok (q : α → Prog μ σ ε β) (Q : Except ε β → σ → Prop)
    (a : α) : andThen C I q Q (.ok a) s = (q a).Safe C I s Q := rfl

@[simp] theorem andThen_error (q : α → Prog μ σ ε β)
    (Q : Except ε β → σ → Prop) (e : ε) :
    andThen C I q Q (.error e) s = Q (.error e) s := rfl

@[simp] theorem orElse_ok (h : ε → Prog μ σ ε α) (Q : Except ε α → σ → Prop)
    (a : α) : orElse C I h Q (.ok a) s = Q (.ok a) s := rfl

@[simp] theorem orElse_error (h : ε → Prog μ σ ε α)
    (Q : Except ε α → σ → Prop) (e : ε) :
    orElse C I h Q (.error e) s = (h e).Safe C I s Q := rfl

@[simp] theorem safe_pure (a : α) (Q : Except ε α → σ → Prop) :
    (pure a : Prog μ σ ε α).Safe C I s Q = Q (.ok a) s := rfl

@[simp] theorem safe_throw (e : ε) (Q : Except ε α → σ → Prop) :
    (throw e : Prog μ σ ε α).Safe C I s Q = Q (.error e) s := rfl

@[simp] theorem safe_done (r : Except ε α) (Q : Except ε α → σ → Prop) :
    (done r : Prog μ σ ε α).Safe C I s Q = Q r s := rfl

theorem safe_atomic (f : μ → σ → Except ε α × σ)
    (Q : Except ε α → σ → Prop) :
    (atomic f).Safe C I s Q ↔ I s ∧ ∀ m, C m → Q (f m s).1 (f m s).2 :=
  Iff.rfl

@[simp] theorem safe_bind (p : Prog μ σ ε α) (q : α → Prog μ σ ε β)
    (Q : Except ε β → σ → Prop) :
    (p >>= q).Safe C I s Q ↔ p.Safe C I s (andThen C I q Q) := by
  show (p.bind q).Safe C I s Q ↔ _
  induction p generalizing s with
  | done r => cases r <;> rfl
  | act f k ih =>
      exact and_congr_right fun _ =>
        forall_congr' fun m => imp_congr_right fun _ => ih _

@[simp] theorem safe_tryCatch (p : Prog μ σ ε α) (h : ε → Prog μ σ ε α)
    (Q : Except ε α → σ → Prop) :
    (MonadExcept.tryCatch p h).Safe C I s Q ↔ p.Safe C I s (orElse C I h Q) := by
  show (p.tryCatch h).Safe C I s Q ↔ _
  induction p generalizing s with
  | done r => cases r <;> rfl
  | act f k ih =>
      exact and_congr_right fun _ =>
        forall_congr' fun m => imp_congr_right fun _ => ih _

@[simp] theorem safe_map (p : Prog μ σ ε α) (g : α → β)
    (Q : Except ε β → σ → Prop) :
    (g <$> p).Safe C I s Q ↔ p.Safe C I s fun r => Q (r.map g) := by
  show (p >>= fun a => pure (g a)).Safe C I s Q ↔ _
  rw [safe_bind]
  have hpost : andThen C I (fun a => (pure (g a) : Prog μ σ ε β)) Q
      = fun r => Q (r.map g) := by
    funext r s'
    cases r <;> rfl
  rw [hpost]

@[simp] theorem safe_discard (p : Prog μ σ ε α)
    (Q : Except ε PUnit → σ → Prop) :
    (discard p).Safe C I s Q ↔ p.Safe C I s fun r => Q (r.map fun _ => ⟨⟩) :=
  safe_map p (fun _ => ⟨⟩) Q

/-- Consequence: weaken the crash invariant and the postcondition. -/
theorem Safe.imp {p : Prog μ σ ε α} {J : σ → Prop}
    {Q R : Except ε α → σ → Prop} (h : p.Safe C I s Q)
    (hI : ∀ s, I s → J s) (hQ : ∀ r s, Q r s → R r s) : p.Safe C J s R := by
  induction p generalizing s with
  | done r => exact hQ r s h
  | act f k ih => exact ⟨hI s h.1, fun m hm => ih _ (h.2 m hm)⟩

/-- Consequence on the postcondition alone. -/
theorem Safe.mono {p : Prog μ σ ε α} {Q R : Except ε α → σ → Prop}
    (h : p.Safe C I s Q) (hQ : ∀ r s, Q r s → R r s) : p.Safe C I s R :=
  h.imp (fun _ => id) hQ

/-- Fewer moves allowed, fewer runs to be safe in. -/
theorem Safe.restrict {p : Prog μ σ ε α} {Q : Except ε α → σ → Prop}
    {C' : μ → Prop} (h : p.Safe C I s Q) (hC : ∀ m, C' m → C m) :
    p.Safe C' I s Q := by
  induction p generalizing s with
  | done r => exact h
  | act f k ih => exact ⟨h.1, fun m hm => ih _ (h.2 m (hC m hm))⟩

/-- Two safety facts about one program hold of the same runs. -/
theorem Safe.and {p : Prog μ σ ε α} {J : σ → Prop}
    {Q R : Except ε α → σ → Prop} (h : p.Safe C I s Q) (h' : p.Safe C J s R) :
    p.Safe C (fun s => I s ∧ J s) s (fun r s => Q r s ∧ R r s) := by
  induction p generalizing s with
  | done r => exact ⟨h, h'⟩
  | act f k ih =>
      exact ⟨⟨h.1, h'.1⟩, fun m hm => ih _ (h.2 m hm) (h'.2 m hm)⟩

/-- What `Safe` says about one run. -/
def Holds (I : σ → Prop) (Q : Except ε α → σ → Prop) :
    Ending ε α → σ → Prop
  | .returned a, s => Q (.ok a) s
  | .raised e, s => Q (.error e) s
  | .crashed, s => I s

/-- Soundness: a safe program meets its specification on every script of
allowed moves, wherever the script cuts it off. -/
theorem Safe.run {p : Prog μ σ ε α} {Q : Except ε α → σ → Prop}
    (h : p.Safe C I s Q) {ms : List μ} (hms : ∀ m ∈ ms, C m) :
    Holds I Q (p.run ms s).1 (p.run ms s).2.1 := by
  induction p generalizing ms s with
  | done r => cases r <;> exact h
  | act f k ih =>
      cases ms with
      | nil => exact h.1
      | cons m ms =>
          exact ih _ (h.2 m (hms m (List.mem_cons_self ..)))
            fun m' hm' => hms m' (List.mem_cons_of_mem _ hm')

/-- A program that keeps `I` at every crash and every ending keeps it in
whatever state a run leaves. -/
theorem Safe.after {p : Prog μ σ ε α} (h : p.Safe C I s fun _ s => I s)
    {ms : List μ} (hms : ∀ m ∈ ms, C m) : I (p.after ms s) := by
  have hrun := h.run hms
  unfold Prog.after
  cases hend : (p.run ms s).1 <;> rw [hend] at hrun <;> exact hrun

end Rules

-- =============================================================== acts

/-- What is asked of an act: the act itself, the move it is taken under
and the state it finds. -/
abbrev Condition (μ σ : Type) :=
  ∀ {β : Type}, (μ → σ → β × σ) → μ → σ → Prop

/-- Nothing is asked. -/
def Anyhow : Condition μ σ := fun _ _ _ => True

/-- As long as every act so far was under `A`, the next one, if it is too,
meets `J`. -/
def Takes (A J : Condition μ σ) : Prog μ σ ε α → Prop
  | .done _ => True
  | .act f k => ∀ m s, A f m s → J f m s ∧ (k (f m s).1).Takes A J

section Acts

variable {A J : Condition μ σ}

theorem takes_done (r : Except ε α) : Takes A J (done r : Prog μ σ ε α) :=
  trivial

theorem takes_pure (a : α) : Takes A J (pure a : Prog μ σ ε α) := trivial

theorem takes_throw (e : ε) : Takes A J (throw e : Prog μ σ ε α) := trivial

theorem takes_atomic {f : μ → σ → Except ε α × σ}
    (h : ∀ m s, A f m s → J f m s) : Takes A J (atomic f) :=
  fun m s hA => ⟨h m s hA, trivial⟩

theorem takes_bind {p : Prog μ σ ε α} {q : α → Prog μ σ ε β}
    (hp : Takes A J p) (hq : ∀ a, Takes A J (q a)) :
    Takes A J (p >>= q) := by
  show Takes A J (p.bind q)
  induction p with
  | done r =>
      cases r with
      | ok a => exact hq a
      | error e => trivial
  | act f k ih => exact fun m s hA => ⟨(hp m s hA).1, ih _ (hp m s hA).2⟩

theorem takes_tryCatch {p : Prog μ σ ε α} {h : ε → Prog μ σ ε α}
    (hp : Takes A J p) (hh : ∀ e, Takes A J (h e)) :
    Takes A J (MonadExcept.tryCatch p h) := by
  show Takes A J (p.tryCatch h)
  induction p with
  | done r =>
      cases r with
      | ok a => trivial
      | error e => exact hh e
  | act f k ih => exact fun m s hA => ⟨(hp m s hA).1, ih _ (hp m s hA).2⟩

theorem takes_ite {c : Prop} [Decidable c] {p q : Prog μ σ ε α}
    (hp : Takes A J p) (hq : Takes A J q) :
    Takes A J (if c then p else q) := by
  split_ifs <;> assumption

theorem takes_discard {p : Prog μ σ ε α} (hp : Takes A J p) :
    Takes A J (discard p) :=
  takes_bind hp fun _ => trivial

/-- Acts that meet what is asked meet, under less, whatever follows from
it. -/
theorem Takes.mono {B K : Condition μ σ} {p : Prog μ σ ε α} (h : Takes A J p)
    (hA : ∀ {β : Type} (f : μ → σ → β × σ) m s, B f m s → A f m s)
    (hK : ∀ {β : Type} (f : μ → σ → β × σ) m s, B f m s → J f m s → K f m s) :
    Takes B K p := by
  induction p with
  | done r => trivial
  | act f k ih =>
      intro m s hB
      obtain ⟨hact, hrest⟩ := h m s (hA f m s hB)
      exact ⟨hK f m s hB hact, ih _ hrest⟩

/-- A value the program returns, its acts all under `A`, satisfies `P`. -/
def Returns (A : Condition μ σ) (P : α → Prop) : Prog μ σ ε α → Prop
  | .done r => ∀ a, r = .ok a → P a
  | .act f k => ∀ m s, A f m s → (k (f m s).1).Returns A P

section Values

variable {P : α → Prop} {Q : β → Prop}

theorem returns_pure {a : α} (h : P a) :
    Returns A P (pure a : Prog μ σ ε α) := by
  intro b hb
  cases hb
  exact h

theorem returns_throw (e : ε) : Returns A P (throw e : Prog μ σ ε α) := nofun

theorem returns_true (p : Prog μ σ ε α) : Returns A (fun _ => True) p := by
  induction p with
  | done r => exact fun _ _ => trivial
  | act f k ih => exact fun m s _ => ih _

theorem Returns.imp {P' : α → Prop} {p : Prog μ σ ε α} (h : Returns A P p)
    (hP : ∀ a, P a → P' a) : Returns A P' p := by
  induction p with
  | done r => exact fun a ha => hP a (h a ha)
  | act f k ih => exact fun m s hA => ih _ (h m s hA)

/-- Two facts about one value. -/
theorem Returns.and {P' : α → Prop} {p : Prog μ σ ε α} (h : Returns A P p)
    (h' : Returns A P' p) : Returns A (fun a => P a ∧ P' a) p := by
  induction p with
  | done r => exact fun a ha => ⟨h a ha, h' a ha⟩
  | act f k ih => exact fun m s hA => ih _ (h m s hA) (h' m s hA)

theorem returns_atomic {f : μ → σ → Except ε α × σ}
    (h : ∀ m s, A f m s → ∀ a, (f m s).1 = .ok a → P a) :
    Returns A P (atomic f) := h

theorem returns_bind {p : Prog μ σ ε β} {q : β → Prog μ σ ε α}
    (hp : Returns A Q p) (hq : ∀ b, Q b → Returns A P (q b)) :
    Returns A P (p >>= q) := by
  show Returns A P (p.bind q)
  induction p with
  | done r =>
      cases r with
      | ok b => exact hq b (hp b rfl)
      | error e => exact nofun
  | act f k ih => exact fun m s hA => ih _ (hp m s hA)

/-- Only the last program of a sequence makes the value. -/
theorem returns_last {p : Prog μ σ ε β} {q : β → Prog μ σ ε α}
    (hq : ∀ b, Returns A P (q b)) : Returns A P (p >>= q) :=
  returns_bind (returns_true p) fun b _ => hq b

theorem returns_tryCatch {p : Prog μ σ ε α} {h : ε → Prog μ σ ε α}
    (hp : Returns A P p) (hh : ∀ e, Returns A P (h e)) :
    Returns A P (MonadExcept.tryCatch p h) := by
  show Returns A P (p.tryCatch h)
  induction p with
  | done r =>
      cases r with
      | ok a => exact hp
      | error e => exact hh e
  | act f k ih => exact fun m s hA => ih _ (hp m s hA)

theorem returns_ite {c : Prop} [Decidable c] {p q : Prog μ σ ε α}
    (hp : Returns A P p) (hq : Returns A P q) :
    Returns A P (if c then p else q) := by
  split_ifs <;> assumption

/-- A sequence takes the acts asked of it if its second program does on
every value the first can return. -/
theorem takes_bind_returns {p : Prog μ σ ε β} {q : β → Prog μ σ ε α}
    (hp : Takes A J p) (hQ : Returns A Q p) (hq : ∀ b, Q b → Takes A J (q b)) :
    Takes A J (p >>= q) := by
  show Takes A J (p.bind q)
  induction p with
  | done r =>
      cases r with
      | ok b => exact hq b (hQ b rfl)
      | error e => trivial
  | act f k ih =>
      exact fun m s hA => ⟨(hp m s hA).1, ih _ (hp m s hA).2 (hQ m s hA)⟩

end Values

end Acts

-- =============================================================== frames

/-- A relation between states that steps can compose. -/
class Frame (R : σ → σ → Prop) : Prop where
  refl : ∀ s, R s s
  trans : ∀ {s t u}, R s t → R t u → R s u

/-- The act relates the state it finds to the one it leaves. -/
def Moves (R : σ → σ → Prop) : Condition μ σ := fun f m s => R s (f m s).2

/-- Every act of the program relates the state it acts on, whatever that
is, to the one it leaves, whatever the move. -/
def Along (R : σ → σ → Prop) (p : Prog μ σ ε α) : Prop :=
  p.Takes Anyhow (Moves R)

section Frames

variable {R : σ → σ → Prop}

theorem along_done (r : Except ε α) : Along R (done r : Prog μ σ ε α) :=
  trivial

theorem along_pure (a : α) : Along R (pure a : Prog μ σ ε α) := trivial

theorem along_throw (e : ε) : Along R (throw e : Prog μ σ ε α) := trivial

theorem along_atomic {f : μ → σ → Except ε α × σ}
    (h : ∀ m s, R s (f m s).2) : Along R (atomic f) :=
  takes_atomic fun m s _ => h m s

theorem along_bind {p : Prog μ σ ε α} {q : α → Prog μ σ ε β}
    (hp : Along R p) (hq : ∀ a, Along R (q a)) : Along R (p >>= q) :=
  takes_bind hp hq

theorem along_tryCatch {p : Prog μ σ ε α} {h : ε → Prog μ σ ε α}
    (hp : Along R p) (hh : ∀ e, Along R (h e)) :
    Along R (MonadExcept.tryCatch p h) :=
  takes_tryCatch hp hh

theorem along_ite {c : Prop} [Decidable c] {p q : Prog μ σ ε α}
    (hp : Along R p) (hq : Along R q) : Along R (if c then p else q) :=
  takes_ite hp hq

theorem along_discard {p : Prog μ σ ε α} (hp : Along R p) :
    Along R (discard p) :=
  takes_discard hp

/-- A coarser relation holds along the same programs. -/
theorem Along.mono {S : σ → σ → Prop} {p : Prog μ σ ε α} (h : Along R p)
    (hRS : ∀ s t, R s t → S s t) : Along S p :=
  Takes.mono h (fun _ _ _ hA => hA) fun _ _ s _ => hRS s _

/-- A frame as a specification: wherever the program is cut off or ends,
the state is related to the one it started from. -/
theorem Along.safe [Frame R] {p : Prog μ σ ε α} (h : Along R p)
    {C : μ → Prop} (s : σ) : p.Safe C (R s) s fun _ => R s := by
  suffices hfrom : ∀ t, R s t → p.Safe C (R s) t fun _ => R s from
    hfrom s (Frame.refl s)
  intro t hst
  induction p generalizing t with
  | done r => exact hst
  | act f k ih =>
      obtain hact := fun m => h m t trivial
      exact ⟨hst, fun m _ => ih _ (hact m).2 _ (Frame.trans hst (hact m).1)⟩

/-- What a run leaves is related to what it found. -/
theorem Along.after [Frame R] {p : Prog μ σ ε α} (h : Along R p)
    (ms : List μ) (s : σ) : R s (p.after ms s) :=
  (h.safe (C := fun _ => True) s).after fun _ _ => trivial

/-- `P` is kept. -/
def Stays (P : σ → Prop) (s t : σ) : Prop := P s → P t

instance (P : σ → Prop) : Frame (Stays P) where
  refl := fun _ h => h
  trans := fun h h' hs => h' (h hs)

theorem Along.stays {P : σ → Prop} {p : Prog μ σ ε α} (h : Along (Stays P) p)
    {C : μ → Prop} {s : σ} (hs : P s) : p.Safe C P s fun _ => P :=
  (h.safe s).imp (fun _ ht => ht hs) fun _ _ ht => ht hs

end Frames

-- ============================================================== results

/-- From a program whose last act left `s`: whatever states its acts find
and whatever the moves, a value it returns and the state its last act
left satisfy `P`. -/
def Assures (P : α → σ → Prop) : Prog μ σ ε α → σ → Prop
  | .done r, s => ∀ a, r = .ok a → P a s
  | .act f k, _ => ∀ m s, (k (f m s).1).Assures P (f m s).2

/-- A value the program returns and the state its last act left satisfy
`P`. -/
def Ensures (P : α → σ → Prop) (p : Prog μ σ ε α) : Prop :=
  ∀ s, p.Assures P s

section Results

variable {P : α → σ → Prop}

theorem ensures_pure {a : α} (h : ∀ s, P a s) :
    Ensures P (pure a : Prog μ σ ε α) := by
  intro s b hb
  cases hb
  exact h s

theorem ensures_throw (e : ε) : Ensures P (throw e : Prog μ σ ε α) := by
  intro s b hb
  cases hb

theorem ensures_true (p : Prog μ σ ε α) : Ensures (fun _ _ => True) p := by
  intro s
  induction p generalizing s with
  | done r => exact fun _ _ => trivial
  | act f k ih => exact fun m s => ih _ _

theorem assures_bind {p : Prog μ σ ε β} {q : β → Prog μ σ ε α}
    {R : β → σ → Prop} {s : σ} (hp : p.Assures R s)
    (hq : ∀ b s, R b s → (q b).Assures P s) : (p >>= q).Assures P s := by
  show (p.bind q).Assures P s
  induction p generalizing s with
  | done r =>
      cases r with
      | ok b => exact hq b s (hp b rfl)
      | error e => exact nofun
  | act f k ih => exact fun m s => ih _ (hp m s)

theorem ensures_bind {p : Prog μ σ ε β} {q : β → Prog μ σ ε α}
    {R : β → σ → Prop} (hp : Ensures R p)
    (hq : ∀ b s, R b s → (q b).Assures P s) : Ensures P (p >>= q) :=
  fun s => assures_bind (hp s) hq

/-- Only the last program of a sequence makes the value. -/
theorem ensures_last {p : Prog μ σ ε β} {q : β → Prog μ σ ε α}
    (hq : ∀ b, Ensures P (q b)) : Ensures P (p >>= q) :=
  ensures_bind (ensures_true p) fun b s _ => hq b s

theorem ensures_ite {c : Prop} [Decidable c] {p q : Prog μ σ ε α}
    (hp : Ensures P p) (hq : Ensures P q) :
    Ensures P (if c then p else q) := by
  split_ifs <;> assumption

/-- What a program ensures of its value, whatever its acts are under. -/
theorem Ensures.returns [Nonempty σ] {A : Condition μ σ} {P : α → Prop}
    {p : Prog μ σ ε α} (h : Ensures (fun a _ => P a) p) : p.Returns A P := by
  obtain ⟨s⟩ := ‹Nonempty σ›
  have hfrom := h s
  clear h
  induction p generalizing s with
  | done r => exact hfrom
  | act f k ih => exact fun m s _ => ih _ _ (hfrom m s)

/-- What a program ensures, as a specification of one run. -/
theorem Ensures.safe {p : Prog μ σ ε α} (h : Ensures P p) (s : σ) :
    p.Safe (fun _ => True) (fun _ => True) s fun r t =>
      ∀ a, r = .ok a → P a t := by
  suffices hfrom : p.Assures P s → p.Safe (fun _ => True) (fun _ => True) s
      fun r t => ∀ a, r = .ok a → P a t from hfrom (h s)
  clear h
  induction p generalizing s with
  | done r => exact fun hr => hr
  | act f k ih => exact fun hact => ⟨trivial, fun m _ => ih _ _ (hact m s)⟩

end Results

-- ============================================================= exceptions

/-- Every exception the program ends in satisfies `E`, whatever its acts
find. -/
def Raises (E : ε → Prop) : Prog μ σ ε α → Prop
  | .done r => ∀ e, r = .error e → E e
  | .act f k => ∀ m s, (k (f m s).1).Raises E

section Exceptions

variable {E : ε → Prop}

theorem raises_pure (a : α) : Raises E (pure a : Prog μ σ ε α) := nofun

theorem raises_throw {e : ε} (h : E e) :
    Raises E (throw e : Prog μ σ ε α) := by
  intro e' he'
  cases he'
  exact h

theorem raises_bind {p : Prog μ σ ε α} {q : α → Prog μ σ ε β}
    (hp : Raises E p) (hq : ∀ a, Raises E (q a)) : Raises E (p >>= q) := by
  show Raises E (p.bind q)
  induction p with
  | done r =>
      cases r with
      | ok a => exact hq a
      | error e =>
          intro e' he'
          cases he'
          exact hp e rfl
  | act f k ih => exact fun m s => ih _ (hp m s)

theorem raises_ite {c : Prop} [Decidable c] {p q : Prog μ σ ε α}
    (hp : Raises E p) (hq : Raises E q) :
    Raises E (if c then p else q) := by
  split_ifs <;> assumption

/-- What a program can raise, as a specification of one run. -/
theorem Raises.safe {p : Prog μ σ ε α} (h : Raises E p) {C : μ → Prop}
    (s : σ) : p.Safe C (fun _ => True) s fun r _ => ∀ e, r = .error e → E e := by
  induction p generalizing s with
  | done r => exact h
  | act f k ih => exact ⟨trivial, fun m _ => ih _ (h m s) _⟩

end Exceptions

end Prog

end Basis
