/-
What a history leaves standing.

A set of things that events switch on and off is, after a history, the
set of those switched on and not off again. `Since` says it of one thing,
by the events that switch it on (`p`) and off (`q`), and `since_snoc` is
how one more event changes it.

A reading is a value that some events leave and the others keep: `Latest`
is what the last event to leave one left. Whether an event leaves a
reading may depend on the events before it, so `g` is given those too.
-/
import Mathlib.Tactic.Common

namespace Basis

variable {ε : Type} {p q : ε → Prop}

/-- An event satisfied `p`, and no event after it satisfied `q`. -/
def Since (p q : ε → Prop) (history : List ε) : Prop :=
  ∃ pre e post, history = pre ++ e :: post ∧ p e ∧ ∀ e' ∈ post, ¬ q e'

theorem since_nil : ¬ Since p q [] := by
  intro ⟨pre, _, _, h, _⟩
  cases pre <;> cases h

/-- One more event switches it on, or leaves it on. -/
theorem since_snoc {history : List ε} {e : ε} :
    Since p q (history ++ [e]) ↔ p e ∨ Since p q history ∧ ¬ q e := by
  constructor
  · intro ⟨pre, e', post, h, hp, hq⟩
    rcases List.eq_nil_or_concat post with rfl | ⟨post', e'', rfl⟩
    · left
      obtain ⟨-, hlast⟩ := List.append_inj' h rfl
      cases hlast
      exact hp
    · right
      rw [List.concat_eq_append, ← List.cons_append, ← List.append_assoc] at h
      obtain ⟨rfl, htail⟩ := List.append_inj' h rfl
      cases htail
      simp only [List.concat_eq_append, List.mem_append, List.mem_singleton]
        at hq
      exact ⟨⟨pre, e', post', rfl, hp, fun x hx => hq x (.inl hx)⟩,
        hq _ (.inr rfl)⟩
  · intro h
    rcases h with hp | ⟨⟨pre, e', post, rfl, hp, hq⟩, he⟩
    · exact ⟨history, e, [], rfl, hp, fun _ h => absurd h List.not_mem_nil⟩
    · refine ⟨pre, e', post ++ [e], by simp, hp, fun x hx => ?_⟩
      rcases List.mem_append.1 hx with hx | hx
      · exact hq x hx
      · rw [List.mem_singleton.1 hx]
        exact he

/-- Fewer events that switch it off leave more of it on. -/
theorem Since.mono {q' : ε → Prop} {history : List ε}
    (h : Since p q history) (hq : ∀ e, q' e → q e) : Since p q' history := by
  obtain ⟨pre, e, post, rfl, hp, hquiet⟩ := h
  exact ⟨pre, e, post, rfl, hp, fun e' he hqe => hquiet e' he (hq e' hqe)⟩

-- ============================================================= readings

variable {α : Type} {g : List ε → ε → α → Prop} {es : List ε} {e : ε} {a b : α}

/-- The last event to leave a reading left this one. -/
def Latest (g : List ε → ε → α → Prop) (es : List ε) (a : α) : Prop :=
  ∃ pre e post, es = pre ++ e :: post ∧ g pre e a
    ∧ ∀ mid e' rest, post = mid ++ e' :: rest →
      ∀ b, ¬ g (pre ++ e :: mid) e' b

theorem latest_nil : ¬ Latest g [] a := by
  intro ⟨pre, _, _, h, _⟩
  cases pre <;> cases h

/-- One more event leaves the reading, or leaves none and keeps it. -/
theorem latest_snoc :
    Latest g (es ++ [e]) a
      ↔ g es e a ∨ (∀ b, ¬ g es e b) ∧ Latest g es a := by
  constructor
  · intro ⟨pre, e', post, h, hg, hquiet⟩
    rcases List.eq_nil_or_concat post with rfl | ⟨post', e'', rfl⟩
    · left
      obtain ⟨rfl, hlast⟩ := List.append_inj' h rfl
      cases hlast
      exact hg
    · right
      rw [List.concat_eq_append, ← List.cons_append, ← List.append_assoc] at h
      obtain ⟨rfl, htail⟩ := List.append_inj' h rfl
      cases htail
      refine ⟨hquiet post' _ [] List.concat_eq_append, pre, e', post', rfl, hg,
        fun mid x rest hmid => hquiet mid x (rest ++ [e]) ?_⟩
      rw [List.concat_eq_append, hmid]
      simp
  · intro h
    rcases h with hg | ⟨hnone, pre, e', post, rfl, hg, hquiet⟩
    · refine ⟨es, e, [], rfl, hg, fun mid x rest hmid => ?_⟩
      cases mid <;> cases hmid
    · refine ⟨pre, e', post ++ [e], by simp, hg, fun mid x rest hmid b => ?_⟩
      rcases List.eq_nil_or_concat rest with rfl | ⟨rest', y, rfl⟩
      · obtain ⟨rfl, hlast⟩ := List.append_inj' hmid rfl
        cases hlast
        exact hnone b
      · rw [List.concat_eq_append, ← List.cons_append, ← List.append_assoc]
          at hmid
        obtain ⟨rfl, -⟩ := List.append_inj' hmid rfl
        exact hquiet mid x rest' rfl b

/-- An event that leaves one reading. -/
theorem latest_snoc_of (h : ∀ a, g es e a ↔ a = b) :
    Latest g (es ++ [e]) a ↔ a = b := by
  rw [latest_snoc, h]
  exact or_iff_left fun hnone => hnone.1 b ((h b).2 rfl)

/-- An event that leaves none. -/
theorem latest_snoc_none (h : ∀ a, ¬ g es e a) :
    Latest g (es ++ [e]) a ↔ Latest g es a := by
  rw [latest_snoc]
  exact ⟨fun hor => (hor.resolve_left (h a)).2, fun hold => .inr ⟨h, hold⟩⟩

end Basis
