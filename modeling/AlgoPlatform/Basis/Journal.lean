/-
Journals: the days on which something was done, oldest first.

A program that wants to do a thing once a day keeps the last entry and
compares it with today. On a clock that does not run back that entry is
today exactly when some entry is (`last_today_iff`), and what is done only
where it is not leaves no day twice (`strict_snoc`).
-/
import Mathlib.Data.List.Nodup
import Mathlib.Data.List.Pairwise
import Mathlib.Order.Lattice

namespace Basis

namespace Journal

variable {δ : Type} [LinearOrder δ] {days : List δ} {today : δ}

/-- The last entry is today's exactly when there is one of today. -/
theorem last_today_iff (hordered : days.Pairwise (· ≤ ·))
    (hpast : ∀ day ∈ days, day ≤ today) :
    days.getLast? = some today ↔ today ∈ days := by
  refine ⟨List.mem_of_getLast?, fun hmem => ?_⟩
  have hne : days ≠ [] := List.ne_nil_of_mem hmem
  rw [List.getLast?_eq_some_getLast hne]
  congr 1
  exact le_antisymm (hpast _ (List.getLast_mem hne))
    (hordered.rel_getLast hmem)

/-- An entry for today where there is none keeps each day at most once. -/
theorem strict_snoc (hstrict : days.Pairwise (· < ·))
    (hpast : ∀ day ∈ days, day ≤ today) (hnew : today ∉ days) :
    (days ++ [today]).Pairwise (· < ·) := by
  rw [List.pairwise_append]
  refine ⟨hstrict, List.pairwise_singleton .., fun day hday t ht => ?_⟩
  rw [List.mem_singleton.mp ht]
  exact lt_of_le_of_ne (hpast day hday) fun heq => hnew (heq ▸ hday)

theorem count_le_one (hstrict : days.Pairwise (· < ·)) (day : δ) :
    days.count day ≤ 1 :=
  List.nodup_iff_count_le_one.mp (hstrict.imp fun h => h.ne) day

end Journal

end Basis
