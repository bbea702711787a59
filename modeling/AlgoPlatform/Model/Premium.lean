/-
The money arithmetic of the straddle, over exact rationals: the entry
premium's two thresholds and a short leg's realized P&L.
-/
import Mathlib.Data.Rat.Defs
import Mathlib.Algebra.Order.Ring.Rat
import Mathlib.Tactic.Linarith
import AlgoPlatform.Model.Enums

namespace AlgoPlatform

/-- `_validate_fraction`. -/
def validateFraction (value : ℚ) (fieldName : String) : Except Exc Unit :=
  if 0 < value ∧ value < 1 then .ok ()
  else .error (.value (fieldName ++ " must be strictly between 0 and 1"))

/-- `_validate_positive_premium`. -/
def validatePositivePremium (value : ℚ) (fieldName : String) :
    Except Exc Unit :=
  if value ≤ 0 then .error (.value (fieldName ++ " must be positive"))
  else .ok ()

/-- `target_premium = entry_premium * (1 - target_pct)`. -/
def computeTargetPremium (entryPremium targetPct : ℚ) : Except Exc ℚ := do
  validateFraction targetPct "target_pct"
  validatePositivePremium entryPremium "entry_premium"
  pure (entryPremium * (1 - targetPct))

/-- `stoploss_premium = entry_premium * (1 + sl_pct)`. -/
def computeStoplossPremium (entryPremium slPct : ℚ) : Except Exc ℚ := do
  validateFraction slPct "sl_pct"
  validatePositivePremium entryPremium "entry_premium"
  pure (entryPremium * (1 + slPct))

/-- The entry premium and the two levels derived from it. -/
structure PremiumThresholds where
  entryPremium : ℚ
  targetPremium : ℚ
  stoplossPremium : ℚ
  targetPct : ℚ
  slPct : ℚ

def computeThresholds (entryPremium targetPct slPct : ℚ) :
    Except Exc PremiumThresholds := do
  let targetPremium ← computeTargetPremium entryPremium targetPct
  let stoplossPremium ← computeStoplossPremium entryPremium slPct
  pure { entryPremium, targetPremium, stoplossPremium, targetPct, slPct }

/-- Realized P&L of one short leg. -/
def computeLegRealizedPnl (entryPrice exitPrice : ℚ) (quantity : Nat) : ℚ :=
  (entryPrice - exitPrice) * quantity

-- ========================================================== thresholds

private theorem validateFraction_eq_ok {q : ℚ} {name : String} {u : Unit}
    (h : validateFraction q name = .ok u) : 0 < q ∧ q < 1 := by
  unfold validateFraction at h
  by_contra hno
  rw [if_neg hno] at h
  cases h

private theorem validatePositivePremium_eq_ok {q : ℚ} {name : String} {u : Unit}
    (h : validatePositivePremium q name = .ok u) : 0 < q := by
  unfold validatePositivePremium at h
  by_contra hno
  rw [if_pos (not_lt.1 hno)] at h
  cases h

/-- Both levels are computed the same way: a fraction, a positive
premium, and then the value. -/
private theorem level_eq_ok {q premium level x : ℚ} {name : String}
    (h : (do validateFraction q name
             validatePositivePremium premium "entry_premium"
             pure level : Except Exc ℚ) = .ok x) :
    (0 < q ∧ q < 1) ∧ 0 < premium ∧ x = level := by
  cases hf : validateFraction q name with
  | error e => rw [hf] at h; cases h
  | ok u =>
      cases hp : validatePositivePremium premium "entry_premium" with
      | error e => rw [hf, hp] at h; cases h
      | ok v =>
          rw [hf, hp] at h
          cases h
          exact ⟨validateFraction_eq_ok hf, validatePositivePremium_eq_ok hp, rfl⟩

/-- Thresholds exist only for a positive premium and fractions, and are
the premium less and plus its share. -/
theorem computeThresholds_levels {premium targetPct slPct : ℚ}
    {t : PremiumThresholds}
    (h : computeThresholds premium targetPct slPct = .ok t) :
    0 < premium ∧ (0 < targetPct ∧ targetPct < 1) ∧ (0 < slPct ∧ slPct < 1)
      ∧ t.targetPremium = premium * (1 - targetPct)
      ∧ t.stoplossPremium = premium * (1 + slPct) := by
  unfold computeThresholds at h
  cases htarget : computeTargetPremium premium targetPct with
  | error e => rw [htarget] at h; cases h
  | ok target =>
      cases hstop : computeStoplossPremium premium slPct with
      | error e => rw [htarget, hstop] at h; cases h
      | ok stop =>
          rw [htarget, hstop] at h
          cases h
          obtain ⟨ht, hpos, rfl⟩ := level_eq_ok htarget
          obtain ⟨hs, -, rfl⟩ := level_eq_ok hstop
          exact ⟨hpos, ht, hs, rfl, rfl⟩

/-- The target lies below the premium and the stoploss above it. -/
theorem computeThresholds_eq_ok {premium targetPct slPct : ℚ}
    {t : PremiumThresholds}
    (h : computeThresholds premium targetPct slPct = .ok t) :
    0 < premium ∧ t.targetPremium < premium ∧ premium < t.stoplossPremium := by
  obtain ⟨hpos, ht, hs, htarget, hstop⟩ := computeThresholds_levels h
  rw [htarget, hstop]
  refine ⟨hpos, ?_, ?_⟩
  · exact mul_lt_of_lt_one_right hpos (by linarith)
  · exact lt_mul_of_one_lt_right hpos (by linarith)

/-- Thresholds exist for every positive premium and valid fractions. -/
theorem computeThresholds_isOk {premium targetPct slPct : ℚ}
    (hpremium : 0 < premium) (ht : 0 < targetPct ∧ targetPct < 1)
    (hs : 0 < slPct ∧ slPct < 1) :
    ∃ t, computeThresholds premium targetPct slPct = .ok t := by
  have hfraction : ∀ {q : ℚ} (name : String), 0 < q ∧ q < 1 →
      validateFraction q name = .ok () := fun name hq => if_pos hq
  have hpositive : validatePositivePremium premium "entry_premium" = .ok () :=
    if_neg (not_le.2 hpremium)
  refine ⟨{ entryPremium := premium, targetPremium := premium * (1 - targetPct),
            stoplossPremium := premium * (1 + slPct), targetPct, slPct }, ?_⟩
  unfold computeThresholds computeTargetPremium computeStoplossPremium
  rw [hfraction "target_pct" ht, hfraction "sl_pct" hs, hpositive]
  rfl

end AlgoPlatform
