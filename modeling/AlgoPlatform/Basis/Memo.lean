/-
Two caches of values that change from day to day.

`Once` loads a value the first time it is asked for and keeps it;
`Daily` loads it again when it is asked for on another day. After any
sequence of uses the first holds the value of the first use
(`Once.Holds.get`), and the second answers with the value of the day
(`Daily.Dated.get`).
-/
import Mathlib.Data.List.Induction

namespace Basis

variable {κ δ ν : Type} [DecidableEq κ] {load : δ → κ → ν}

/-- A cache filled on first use. -/
abbrev Once (κ ν : Type) : Type := κ → Option ν

/-- A cache that knows the day of each load. -/
abbrev Daily (κ δ ν : Type) : Type := κ → Option (δ × ν)

/-- Ask on a day: the value, and the cache after it. -/
def Once.get (load : δ → κ → ν) (c : Once κ ν) (today : δ) (key : κ) :
    ν × Once κ ν :=
  match c key with
  | some value => (value, c)
  | none =>
      (load today key, fun k => if k = key then some (load today key) else c k)

/-- Load on a day, whatever was there. -/
def Daily.store (load : δ → κ → ν) (c : Daily κ δ ν) (today : δ) (key : κ) :
    ν × Daily κ δ ν :=
  (load today key,
    fun k => if k = key then some (today, load today key) else c k)

/-- Ask on a day: the value, and the cache after it. -/
def Daily.get [DecidableEq δ] (load : δ → κ → ν) (c : Daily κ δ ν)
    (today : δ) (key : κ) :
    ν × Daily κ δ ν :=
  match c key with
  | some (day, value) =>
      if day = today then (value, c) else c.store load today key
  | none => c.store load today key

/-- The day of the first use of a key. -/
def firstUse (uses : List (δ × κ)) (key : κ) : Option δ :=
  (uses.find? fun use => use.2 = key).map Prod.fst

theorem firstUse_snoc (uses : List (δ × κ)) (today : δ) (key k : κ) :
    firstUse (uses ++ [(today, key)]) k
      = (firstUse uses k).or (if key = k then some today else none) := by
  unfold firstUse
  rw [List.find?_append]
  cases uses.find? fun use => use.2 = k with
  | some use => rfl
  | none => by_cases hk : key = k <;> simp [hk]

/-- A cache that holds the values of the first uses. -/
def Once.Holds (load : δ → κ → ν) (c : Once κ ν) (uses : List (δ × κ)) :
    Prop :=
  ∀ key, c key = (firstUse uses key).map (load · key)

theorem once_holds_nil : Once.Holds load (fun _ => none) [] := fun _ => rfl

/-- What is answered is the value of the first use, this one included. -/
theorem Once.Holds.get {c : Once κ ν} {uses : List (δ × κ)}
    (h : c.Holds load uses) (today : δ) (key : κ) :
    (c.get load today key).1 = load ((firstUse uses key).getD today) key
      ∧ (c.get load today key).2.Holds load (uses ++ [(today, key)]) := by
  have hkey := h key
  unfold Once.get
  cases hfirst : firstUse uses key with
  | some day =>
      rw [hfirst, Option.map_some] at hkey
      rw [hkey]
      refine ⟨rfl, fun k => ?_⟩
      show c k = _
      rw [firstUse_snoc, h k]
      by_cases hk : key = k
      · subst hk
        rw [hfirst]
        rfl
      · simp [hk]
  | none =>
      rw [hfirst, Option.map_none] at hkey
      rw [hkey]
      refine ⟨rfl, fun k => ?_⟩
      show (if k = key then some (load today key) else c k) = _
      rw [firstUse_snoc]
      by_cases hk : key = k
      · subst hk
        simp [hfirst]
      · simp [hk, Ne.symm hk, h k]

/-- Every entry is the value of the day it was loaded. -/
def Daily.Dated (load : δ → κ → ν) (c : Daily κ δ ν) : Prop :=
  ∀ key day value, c key = some (day, value) → value = load day key

theorem Daily.Dated.store {c : Daily κ δ ν} (h : c.Dated load) (today : δ)
    (key : κ) : (c.store load today key).2.Dated load := by
  intro k day value hk
  unfold Daily.store at hk
  dsimp only at hk
  split at hk
  · rename_i heq
    cases hk
    rw [heq]
  · exact h k day value hk

theorem Daily.Dated.get [DecidableEq δ] {c : Daily κ δ ν}
    (h : c.Dated load) (today : δ) (key : κ) : (c.get load today key).1 = load today key
      ∧ (c.get load today key).2.Dated load := by
  unfold Daily.get
  split
  · rename_i day value hkey
    split
    · rename_i heq
      exact ⟨heq ▸ h key day value hkey, h⟩
    · exact ⟨rfl, h.store today key⟩
  · exact ⟨rfl, h.store today key⟩

end Basis
