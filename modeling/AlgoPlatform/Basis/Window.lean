/-
Sliding windows: how many of a sequence of times fall into a stretch of
a given length.

`Spaced n p ts` says that of any `n + 1` of the times, taken in the order
they came, the last is at least `p` after the first. Then no stretch that
holds no two times `p` apart, such as a half-open interval of length `p`,
holds more than `n` of them (`Spaced.count_le`), wherever it begins.

A list is kept spaced by the usual limiter: look at the times that a
window of length `p` ending now still holds, and add one only while they
are fewer than `n` (`Spaced.push`).
-/
import Mathlib.Algebra.Order.Group.Defs
import Mathlib.Data.List.Basic

namespace Basis

variable {α : Type} [AddCommGroup α] [LinearOrder α] [IsOrderedAddMonoid α]

/-- Of any `n + 1` of the times, the last is `p` or more after the
first. -/
def Spaced (n : Nat) (p : α) (ts : List α) : Prop :=
  ∀ first between last, (first :: between ++ [last]).Sublist ts →
    between.length + 1 = n → first + p ≤ last

/-- A stretch of times that is too short for two times `p` apart. -/
def Narrow (p : α) (I : α → Bool) : Prop :=
  ∀ a b, I a = true → I b = true → b < a + p

namespace Spaced

variable {n : Nat} {p : α} {ts : List α}

omit [IsOrderedAddMonoid α] in
theorem nil : Spaced n p ([] : List α) := by
  intro first between last h _
  exact absurd (List.sublist_nil.mp h) (by simp)

/-- One more time, when fewer than `n` of those before it are less than
`p` old. -/
theorem push {now : α} (h : Spaced n p ts) (hsorted : ts.Pairwise (· ≤ ·))
    (hroom : (ts.filter fun t => decide (now - p < t)).length < n) :
    Spaced n p (ts ++ [now]) := by
  intro first between last hsub hlength
  rcases List.sublist_append_iff.mp hsub with ⟨known, new, heq, hknown, hnew⟩
  rcases List.sublist_singleton.mp hnew with rfl | rfl
  · rw [List.append_nil] at heq
    exact h first between last (heq ▸ hknown) hlength
  · obtain ⟨hbefore, hlast⟩ := List.append_inj' heq rfl
    have hlast : last = now := by simpa using hlast
    rw [← hbefore] at hknown
    rw [hlast]
    -- the recent ones are too few to be all that came before
    have hold : ∃ t ∈ first :: between, t ≤ now - p := by
      by_contra hnone
      have hrecent : ∀ t ∈ first :: between, decide (now - p < t) = true :=
        fun t ht => decide_eq_true
          (not_le.mp fun hle => hnone ⟨t, ht, hle⟩)
      have hle := (List.filter_eq_self.mpr hrecent ▸
        hknown.filter fun t => decide (now - p < t)).length_le
      rw [List.length_cons] at hle
      omega
    obtain ⟨t, ht, hle⟩ := hold
    have hfirst : first ≤ t := by
      rcases List.mem_cons.mp ht with rfl | ht
      · exact le_refl _
      · exact List.rel_of_pairwise_cons (hsorted.sublist hknown) ht
    exact le_sub_iff_add_le.mp (hfirst.trans hle)

omit [IsOrderedAddMonoid α] in
/-- No narrow stretch holds more than `n` of the times. -/
theorem count_le (h : Spaced n p ts) (hn : 0 < n) {I : α → Bool}
    (hI : Narrow p I) : (ts.filter I).length ≤ n := by
  by_contra hlt
  have hlt : n + 1 ≤ (ts.filter I).length := by omega
  have hsub : ((ts.filter I).take (n + 1)).Sublist ts :=
    (List.take_sublist ..).trans List.filter_sublist
  have hin : ∀ t ∈ (ts.filter I).take (n + 1), I t = true := fun t ht =>
    (List.mem_filter.mp (List.mem_of_mem_take ht)).2
  have hlength : ((ts.filter I).take (n + 1)).length = n + 1 := by
    rw [List.length_take]
    omega
  generalize (ts.filter I).take (n + 1) = taken at hsub hin hlength
  cases taken with
  | nil => simp at hlength
  | cons first rest =>
      rcases List.eq_nil_or_concat rest with rfl | ⟨between, last, rfl⟩
      · simp only [List.length_cons, List.length_nil] at hlength
        omega
      · rw [List.concat_eq_append] at hsub hin hlength
        have hfar : first + p ≤ last := by
          refine h first between last hsub ?_
          simpa using hlength
        have hnear : last < first + p :=
          hI first last (hin _ List.mem_cons_self) (hin _ (by simp))
        exact absurd hfar (not_le.mpr hnear)

end Spaced

/-- A half-open interval, open above. -/
theorem narrow_Ico (p s : α) :
    Narrow p fun t => decide (s ≤ t ∧ t < s + p) := by
  intro a b ha hb
  simp only [decide_eq_true_eq] at ha hb
  exact hb.2.trans_le (by simpa using ha.1)

/-- A half-open interval, open below. -/
theorem narrow_Ioc (p s : α) :
    Narrow p fun t => decide (s < t ∧ t ≤ s + p) := by
  intro a b ha hb
  simp only [decide_eq_true_eq] at ha hb
  exact hb.2.trans_lt (by simpa using ha.1)

end Basis
