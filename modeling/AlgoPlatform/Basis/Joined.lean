/-
Texts put together from parts.

Parts joined by a separator none of them contains can be told apart
again (`joined_inj`), whatever their lengths; so can parts of known
lengths put next to each other (`append_inj_of_length`). A number's
decimal digits are one such part, and give the number back.
-/
import Mathlib.Algebra.Group.Nat.Defs
import Mathlib.Tactic.Common

namespace Basis

-- ================================================================ parts

/-- Parts without the separator, joined by it, can be told apart. -/
theorem joined_inj {sep : String} {c : Char} {parts parts' : List String}
    (hsep : sep.toList = [c]) (hparts : ∀ s ∈ parts, c ∉ s.toList)
    (hparts' : ∀ s ∈ parts', c ∉ s.toList) (hne : parts ≠ [])
    (hne' : parts' ≠ [])
    (h : sep.intercalate parts = sep.intercalate parts') : parts = parts' := by
  have hlists : [c].intercalate (parts.map String.toList)
      = [c].intercalate (parts'.map String.toList) := by
    have htexts := congrArg String.toList h
    rwa [String.toList_intercalate, String.toList_intercalate, hsep] at htexts
  have hsplit : ∀ {ps : List String}, (∀ s ∈ ps, c ∉ s.toList) → ps ≠ [] →
      ([c].intercalate (ps.map String.toList)).splitOn c
        = ps.map String.toList := by
    intro ps hps hnil
    refine List.splitOn_intercalate c (fun l hl => ?_) ?_
    · obtain ⟨s, hs, rfl⟩ := List.mem_map.1 hl
      exact hps s hs
    · rwa [ne_eq, List.map_eq_nil_iff]
  have hmaps : parts.map String.toList = parts'.map String.toList := by
    rw [← hsplit hparts hne, hlists, hsplit hparts' hne']
  exact List.map_inj_right (fun _ _ => String.toList_inj.1) |>.1 hmaps

/-- Parts of one length, put before others, can be told apart. -/
theorem append_inj_of_length {s s' t t' : String} (h : s ++ t = s' ++ t')
    (hlength : s.length = s'.length) : s = s' ∧ t = t' := by
  have hlists := congrArg String.toList h
  rw [String.toList_append, String.toList_append] at hlists
  obtain ⟨hs, ht⟩ := List.append_inj hlists (by rwa [String.length_toList, String.length_toList])
  exact ⟨String.toList_inj.1 hs, String.toList_inj.1 ht⟩

-- =============================================================== digits

/-- The number whose decimal digits a text shows. -/
def shown (s : String) : Nat := Nat.ofDigitChars 10 s.toList 0

/-- A number's digits show it. -/
theorem shown_toString (n : Nat) : shown (toString n) = n := by
  unfold shown
  rw [Nat.toString_eq_repr, Nat.toList_repr, Nat.ofDigitChars_ten_toDigits]

/-- A leading zero changes nothing. -/
theorem shown_zero_append (n : Nat) : shown ("0" ++ toString n) = n := by
  unfold shown
  rw [String.toList_append, Nat.ofDigitChars_append]
  exact shown_toString n

/-- A number is written in digits only. -/
theorem isDigit_of_mem_toString {n : Nat} {c : Char}
    (h : c ∈ (toString n).toList) : c.isDigit = true := by
  rw [Nat.toString_eq_repr, Nat.toList_repr] at h
  exact Nat.isDigit_of_mem_toDigits (by omega) (by omega) h

/-- How many digits a number has. -/
theorem length_toString_le_iff {n k : Nat} (hk : 0 < k) :
    (toString n).length ≤ k ↔ n < 10 ^ k := by
  rw [← String.length_toList, Nat.toString_eq_repr, Nat.toList_repr]
  exact Nat.length_toDigits_le_iff (by omega) hk

end Basis
