/-
Dates in calendar order.
-/
import Mathlib.Data.Prod.Lex
import AlgoPlatform.Model.Enums

namespace AlgoPlatform

/-- What `date`s compare by: year, month, day. -/
def Date.parts (d : Date) : Nat ×ₗ Nat ×ₗ Nat :=
  toLex (d.year, toLex (d.month, d.day))

theorem Date.parts_injective : Function.Injective Date.parts := by
  intro a b h
  obtain ⟨hyear, hrest⟩ := Prod.ext_iff.mp (toLex.injective h)
  obtain ⟨hmonth, hday⟩ := Prod.ext_iff.mp (toLex.injective hrest)
  cases a
  cases b
  cases hyear
  cases hmonth
  cases hday
  rfl

instance : LE Date := ⟨fun a b => a.parts ≤ b.parts⟩

instance : LT Date := ⟨fun a b => a.parts < b.parts⟩

instance (a b : Date) : Decidable (a ≤ b) :=
  inferInstanceAs (Decidable (a.parts ≤ b.parts))

instance (a b : Date) : Decidable (a < b) :=
  inferInstanceAs (Decidable (a.parts < b.parts))

instance : LinearOrder Date where
  le_refl a := le_refl a.parts
  le_trans a b c := le_trans (a := a.parts)
  lt_iff_le_not_ge a b := lt_iff_le_not_ge (a := a.parts)
  le_antisymm a b hab hba := Date.parts_injective (le_antisymm hab hba)
  le_total a b := le_total a.parts b.parts
  toDecidableLE := inferInstance
  toDecidableEq := inferInstance
  toDecidableLT := inferInstance

example : ({ year := 2026, month := 1, day := 31 } : Date)
    < { year := 2026, month := 2, day := 1 } := by decide

end AlgoPlatform
