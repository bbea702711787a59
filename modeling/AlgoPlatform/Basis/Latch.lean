/-
Latches: a trigger over an observed stream that releases once each time
it is armed.

An input arms the latch with a fresh observation, disarms it, or is one
more thing to watch: the observation takes it in, and if the trigger
fires on what is then observed, the latch releases and is spent.

`FirstFiring` says which input releases an armed latch in terms of the
history alone, without a latch: the first one, since the last arming,
that the trigger fires on. `released_iff` is that the latch does
exactly this.
-/
import Mathlib.Data.List.Induction
import Mathlib.Tactic.Common

namespace Basis

variable {φ ε ρ : Type}

/-- What an input is to a latch. -/
inductive Effect (φ : Type)
  | arm (f : φ)
  | disarm
  | watch

/-- A trigger over an observed stream. -/
structure Latch (φ ε ρ : Type) where
  effect : ε → Effect φ
  /-- The observation with one more input taken in. -/
  observe : φ → ε → φ
  /-- Whether an input fires the trigger, given what is observed with
  it taken in. -/
  fires : φ → ε → Option ρ

namespace Latch

variable (l : Latch φ ε ρ)

/-- What an observation has taken in after a stretch of inputs. -/
def observed (f : φ) (es : List ε) : φ := es.foldl l.observe f

/-- One input: the observation an armed latch is left with, and what it
releases. -/
def step (s : Option φ) (e : ε) : Option φ × Option ρ :=
  match l.effect e, s with
  | .arm f, _ => (some f, none)
  | .disarm, _ => (none, none)
  | .watch, none => (none, none)
  | .watch, some f =>
      match l.fires (l.observe f e) e with
      | some r => (none, some r)
      | none => (some (l.observe f e), none)

/-- The latch after a history; it starts out spent. -/
def after (es : List ε) : Option φ :=
  es.foldl (fun s e => (l.step s e).1) none

/-- What the latch releases on an input, after a history. -/
def released (es : List ε) (e : ε) : Option ρ := (l.step (l.after es) e).2

-- ====================================================== specification

/-- No input of a stretch fires the trigger. -/
def Quiet (f : φ) (es : List ε) : Prop :=
  ∀ pre e post, es = pre ++ e :: post →
    l.fires (l.observed f (pre ++ [e])) e = none

/-- The history ends in a stretch `es` since the latch was last armed,
with `f`, that neither disarms it nor fires the trigger. -/
structure Holding (history : List ε) (f : φ) (es : List ε) : Prop where
  armed : ∃ pre e, history = pre ++ e :: es ∧ l.effect e = .arm f
  watching : ∀ e ∈ es, l.effect e = .watch
  quiet : l.Quiet f es

/-- The input is the first since the last arming that fires. -/
def FirstFiring (history : List ε) (e : ε) (r : ρ) : Prop :=
  l.effect e = .watch ∧ ∃ f es, l.Holding history f es
    ∧ l.fires (l.observed f (es ++ [e])) e = some r

-- ============================================================= theorems

variable {l}

@[simp] theorem observed_append (f : φ) (es : List ε) (e : ε) :
    l.observed f (es ++ [e]) = l.observe (l.observed f es) e := by
  simp [observed]

@[simp] theorem after_append (es : List ε) (e : ε) :
    l.after (es ++ [e]) = (l.step (l.after es) e).1 := by
  simp [after]

/-- An armed latch releases on an input that fires, and is spent. -/
theorem step_of_fires {f : φ} {e : ε} {r : ρ} (he : l.effect e = .watch)
    (hfires : l.fires (l.observe f e) e = some r) :
    l.step (some f) e = (none, some r) := by
  simp [step, he, hfires]

/-- An armed latch watches on if an input does not fire. -/
theorem step_of_quiet {f : φ} {e : ε} (he : l.effect e = .watch)
    (hquiet : l.fires (l.observe f e) e = none) :
    l.step (some f) e = (some (l.observe f e), none) := by
  simp [step, he, hquiet]

theorem quiet_nil (f : φ) : l.Quiet f [] := by
  intro pre e post h
  cases pre <;> cases h

/-- Where the last input of a history falls in a split of it. -/
private theorem split_snoc {pre es history : List ε} {a e : ε} :
    history ++ [e] = pre ++ a :: es
      ↔ (es = [] ∧ history = pre ∧ e = a)
        ∨ ∃ es', es = es' ++ [e] ∧ history = pre ++ a :: es' := by
  constructor
  · intro h
    rcases List.eq_nil_or_concat es with rfl | ⟨es', y, rfl⟩
    · obtain ⟨hpre, he⟩ := List.append_inj' h rfl
      cases he
      exact .inl ⟨rfl, hpre, rfl⟩
    · have hsplit : history ++ [e] = (pre ++ a :: es') ++ [y] := by
        rw [h]
        simp
      obtain ⟨hhistory, hy⟩ := List.append_inj' hsplit rfl
      cases hy
      exact .inr ⟨es', List.concat_eq_append, hhistory⟩
  · intro h
    rcases h with ⟨rfl, rfl, rfl⟩ | ⟨es', rfl, rfl⟩
    · rfl
    · simp

theorem quiet_append {f : φ} {es : List ε} {e : ε} :
    l.Quiet f (es ++ [e])
      ↔ l.Quiet f es ∧ l.fires (l.observe (l.observed f es) e) e = none := by
  constructor
  · intro h
    constructor
    · intro pre x post hes
      exact h pre x (post ++ [e]) (split_snoc.2 (.inr ⟨post, rfl, hes⟩))
    · have hlast := h es e [] rfl
      rwa [observed_append] at hlast
  · intro h pre x post hes
    obtain ⟨hquiet, hlast⟩ := h
    rcases split_snoc.1 hes with ⟨rfl, rfl, rfl⟩ | ⟨post', rfl, hes'⟩
    · rw [observed_append]
      exact hlast
    · exact hquiet pre x post' hes'

private theorem holding_watch {history : List ε} {e : ε}
    (he : l.effect e = .watch) {f : φ} {es : List ε} :
    l.Holding (history ++ [e]) f es
      ↔ ∃ es', es = es' ++ [e] ∧ l.Holding history f es'
          ∧ l.fires (l.observe (l.observed f es') e) e = none := by
  constructor
  · intro h
    obtain ⟨pre, a, hsplit, harm⟩ := h.armed
    rcases split_snoc.1 hsplit with ⟨rfl, rfl, rfl⟩ | ⟨es', rfl, hsplit'⟩
    · rw [he] at harm
      cases harm
    · obtain ⟨hquiet, hlast⟩ := quiet_append.1 h.quiet
      refine ⟨es', rfl, ⟨⟨pre, a, hsplit', harm⟩, ?_, hquiet⟩, hlast⟩
      intro x hx
      exact h.watching x (List.mem_append_left _ hx)
  · intro h
    obtain ⟨es', rfl, hold, hlast⟩ := h
    obtain ⟨pre, a, rfl, harm⟩ := hold.armed
    refine ⟨⟨pre, a, by simp, harm⟩, ?_, quiet_append.2 ⟨hold.quiet, hlast⟩⟩
    intro x hx
    rcases List.mem_append.1 hx with hx | hx
    · exact hold.watching x hx
    · rw [List.mem_singleton.1 hx]
      exact he

/-- Only an empty stretch follows an input that is not watched. -/
private theorem holding_unwatched {history : List ε} {e : ε}
    (he : l.effect e ≠ .watch) {f : φ} {es : List ε} :
    l.Holding (history ++ [e]) f es ↔ l.effect e = .arm f ∧ es = [] := by
  constructor
  · intro h
    obtain ⟨pre, a, hsplit, harm⟩ := h.armed
    rcases split_snoc.1 hsplit with ⟨rfl, rfl, rfl⟩ | ⟨es', rfl, -⟩
    · exact ⟨harm, rfl⟩
    · exact absurd (h.watching e (by simp)) he
  · intro h
    obtain ⟨harm, rfl⟩ := h
    refine ⟨⟨history, e, rfl, harm⟩, ?_, quiet_nil f⟩
    intro x hx
    cases hx

/-- An armed latch has observed what followed its arming, and nothing
there disarmed it or fired the trigger. -/
theorem after_eq_some {history : List ε} {g : φ} :
    l.after history = some g
      ↔ ∃ f es, l.Holding history f es ∧ g = l.observed f es := by
  induction history using List.reverseRecOn generalizing g with
  | nil =>
      constructor
      · intro h
        cases h
      · intro h
        obtain ⟨f, es, hold, -⟩ := h
        obtain ⟨pre, a, hsplit, -⟩ := hold.armed
        cases pre <;> cases hsplit
  | append_singleton history e ih =>
      rw [after_append]
      cases he : l.effect e with
      | arm f =>
          have hne : l.effect e ≠ .watch := by simp [he]
          simp only [holding_unwatched hne, he, step, Effect.arm.injEq,
            Option.some.injEq]
          constructor
          · intro h
            exact ⟨f, [], ⟨rfl, rfl⟩, h.symm⟩
          · intro h
            obtain ⟨f', es, ⟨rfl, rfl⟩, rfl⟩ := h
            rfl
      | disarm =>
          have hne : l.effect e ≠ .watch := by simp [he]
          simp [holding_unwatched hne, he, step]
      | watch =>
          constructor
          · intro h
            cases hs : l.after history with
            | none => simp [step, he, hs] at h
            | some g' =>
                obtain ⟨f, es, hold, rfl⟩ := ih.1 hs
                cases hfire : l.fires (l.observe (l.observed f es) e) e with
                | some r => simp [step, he, hs, hfire] at h
                | none =>
                    refine ⟨f, es ++ [e],
                      (holding_watch he).2 ⟨es, rfl, hold, hfire⟩, ?_⟩
                    rw [observed_append]
                    simpa [step, he, hs, hfire] using h.symm
          · intro h
            obtain ⟨f, es, hold, rfl⟩ := h
            obtain ⟨es', rfl, hold', hlast⟩ := (holding_watch he).1 hold
            have hs := ih.2 ⟨f, es', hold', rfl⟩
            simp [step, he, hs, hlast]

/-- The latch releases exactly on the first input since its last arming
that fires the trigger. -/
theorem released_iff {history : List ε} {e : ε} {r : ρ} :
    l.released history e = some r ↔ l.FirstFiring history e r := by
  unfold released FirstFiring
  cases he : l.effect e with
  | arm f => simp [step, he]
  | disarm => simp [step, he]
  | watch =>
      constructor
      · intro h
        cases hs : l.after history with
        | none => simp [step, he, hs] at h
        | some g =>
            obtain ⟨f, es, hold, rfl⟩ := after_eq_some.1 hs
            refine ⟨rfl, f, es, hold, ?_⟩
            rw [observed_append]
            cases hfire : l.fires (l.observe (l.observed f es) e) e with
            | none => simp [step, he, hs, hfire] at h
            | some r' => simpa [step, he, hs, hfire] using h
      · intro h
        obtain ⟨-, f, es, hold, hfire⟩ := h
        rw [observed_append] at hfire
        have hs := after_eq_some.2 ⟨f, es, hold, rfl⟩
        simp [step, he, hs, hfire]

/-- A spent latch stays spent until it is armed. -/
theorem after_of_spent {history es : List ε} (h : l.after history = none)
    (hes : ∀ e ∈ es, ∀ f, l.effect e ≠ .arm f) :
    l.after (history ++ es) = none := by
  induction es using List.reverseRecOn with
  | nil => simpa using h
  | append_singleton es e ih =>
      have hprev := ih fun x hx => hes x (List.mem_append_left _ hx)
      rw [← List.append_assoc, after_append, hprev]
      cases he : l.effect e with
      | arm f => exact absurd he (hes e (by simp) f)
      | disarm => simp [step, he]
      | watch => simp [step, he]

/-- A latch that has released is spent. -/
theorem after_of_released {history : List ε} {e : ε} {r : ρ}
    (h : l.released history e = some r) : l.after (history ++ [e]) = none := by
  unfold released at h
  rw [after_append]
  cases he : l.effect e with
  | arm f => simp [step, he] at h
  | disarm => simp [step, he]
  | watch =>
      cases hs : l.after history with
      | none => simp [step, he]
      | some f =>
          cases hfire : l.fires (l.observe f e) e with
          | none => simp [step, he, hs, hfire] at h
          | some r' => simp [step, he, hfire]

/-- A spent latch releases nothing. -/
theorem released_of_spent {history : List ε} (h : l.after history = none)
    (e : ε) : l.released history e = none := by
  unfold released
  rw [h]
  cases he : l.effect e <;> simp [step, he]

/-- A disarmed latch is spent. -/
theorem after_of_disarm {history : List ε} {e : ε} (he : l.effect e = .disarm) :
    l.after (history ++ [e]) = none := by
  simp [after_append, step, he]

end Latch

end Basis
