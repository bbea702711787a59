/-
A dict that keeps the order of insertion.

Putting a value under a key that is there replaces it where it stands;
a new key goes to the end.
-/
import Mathlib.Tactic.Common

namespace Basis

variable {κ ν : Type} [DecidableEq κ]

/-- Keys and values, oldest key first. -/
abbrev Dict (κ ν : Type) : Type := List (κ × ν)

namespace Dict

/-- `d.get(key)`. -/
def get (d : Dict κ ν) (key : κ) : Option ν :=
  (d.find? fun entry => entry.1 = key).map Prod.snd

/-- `d[key] = value`. -/
def put (d : Dict κ ν) (key : κ) (value : ν) : Dict κ ν :=
  match d with
  | [] => [(key, value)]
  | (k, v) :: d =>
      if k = key then (key, value) :: d else (k, v) :: put d key value

theorem get_put (d : Dict κ ν) (key : κ) (value : ν) (k : κ) :
    (d.put key value).get k = if k = key then some value else d.get k := by
  induction d with
  | nil => by_cases hk : key = k <;> simp [put, get, hk, eq_comm]
  | cons entry d ih =>
      obtain ⟨k', v'⟩ := entry
      unfold get at ih ⊢
      by_cases hkey : k' = key
      · subst hkey
        by_cases hk : k' = k
        · simp [put, hk]
        · simp [put, hk, Ne.symm hk]
      · by_cases hk : k' = k
        · subst hk
          simp [put, hkey]
        · simpa [put, hkey, hk] using ih

def keys (d : Dict κ ν) : List κ := d.map Prod.fst

theorem get_eq_none_iff {d : Dict κ ν} {key : κ} :
    d.get key = none ↔ key ∉ d.keys := by
  unfold get keys
  rw [Option.map_eq_none_iff, List.find?_eq_none]
  simp only [decide_eq_true_eq, List.mem_map, not_exists, not_and]

theorem mem_keys {d : Dict κ ν} {key : κ} :
    key ∈ d.keys ↔ ∃ value, d.get key = some value := by
  rw [← Option.ne_none_iff_exists', ne_eq, get_eq_none_iff, not_not]

theorem get_eq_some_iff {d : Dict κ ν} (h : d.keys.Nodup) {key : κ}
    {value : ν} : d.get key = some value ↔ (key, value) ∈ d := by
  unfold get
  induction d with
  | nil => simp
  | cons entry d ih =>
      obtain ⟨k, v⟩ := entry
      obtain ⟨hnew, hrest⟩ := List.nodup_cons.mp h
      by_cases hk : k = key
      · subst hk
        have hnot : (k, value) ∉ d := fun hmem =>
          hnew (List.mem_map.mpr ⟨_, hmem, rfl⟩)
        simp [hnot, eq_comm]
      · simpa [hk, Ne.symm hk] using ih hrest

theorem mem_keys_put {d : Dict κ ν} {key k : κ} {value : ν} :
    k ∈ (d.put key value).keys ↔ k = key ∨ k ∈ d.keys := by
  rw [mem_keys, mem_keys, get_put]
  by_cases hk : k = key <;> simp [hk]

theorem nodup_keys_put {d : Dict κ ν} (h : d.keys.Nodup) (key : κ)
    (value : ν) : (d.put key value).keys.Nodup := by
  induction d with
  | nil => simp [put, keys]
  | cons entry d ih =>
      obtain ⟨k, v⟩ := entry
      obtain ⟨hnew, hrest⟩ := List.nodup_cons.mp h
      unfold put
      split
      · rename_i hk
        subst hk
        exact List.nodup_cons.mpr ⟨hnew, hrest⟩
      · rename_i hk
        refine List.nodup_cons.mpr ⟨fun hmem => ?_, ih hrest⟩
        rcases mem_keys_put.mp hmem with heq | hmem
        · exact hk heq
        · exact hnew hmem

theorem put_of_new {d : Dict κ ν} {key : κ} (h : key ∉ d.keys) (value : ν) :
    d.put key value = d ++ [(key, value)] := by
  induction d with
  | nil => rfl
  | cons entry d ih =>
      obtain ⟨k, v⟩ := entry
      obtain ⟨hk, hrest⟩ := List.ne_and_not_mem_of_not_mem_cons h
      unfold put
      rw [if_neg (Ne.symm hk), ih hrest, List.cons_append]

theorem mem_of_get {d : Dict κ ν} {key : κ} {value : ν}
    (h : d.get key = some value) : (key, value) ∈ d := by
  obtain ⟨entry, hfind, hv⟩ := Option.map_eq_some_iff.1 h
  have hk := List.find?_some hfind
  obtain rfl := of_decide_eq_true hk
  subst hv
  exact List.mem_of_find?_eq_some hfind

/-- One value put under the keys of several items. -/
theorem get_foldl_put {α : Type} (key : α → κ) (value : ν) (items : List α)
    (d : Dict κ ν) (k : κ) :
    (items.foldl (fun d item => d.put (key item) value) d).get k
      = if k ∈ items.map key then some value else d.get k := by
  induction items generalizing d with
  | nil => simp
  | cons item items ih =>
      rw [List.foldl_cons, ih, get_put, List.map_cons]
      by_cases hitem : k = key item
      · simp [hitem]
      · simp [hitem]

omit [DecidableEq κ] in
/-- What the entries of a dict come to together, when all but one come to
nothing. -/
theorem flatMap_eq_at {β : Type} {d : Dict κ ν} (h : d.keys.Nodup)
    {key : κ} {value : ν} (hmem : (key, value) ∈ d) {f : κ × ν → List β}
    (hother : ∀ entry ∈ d, entry.1 ≠ key → f entry = []) :
    d.flatMap f = f (key, value) := by
  induction d with
  | nil => exact absurd hmem List.not_mem_nil
  | cons entry d ih =>
      obtain ⟨hnew, hrest⟩ := List.nodup_cons.mp h
      rw [List.flatMap_cons]
      rcases List.mem_cons.mp hmem with heq | hmem
      · have hnone : d.flatMap f = [] := List.flatMap_eq_nil_iff.mpr
          fun other hin => hother other (List.mem_cons_of_mem _ hin)
            fun hkey => hnew (List.mem_map.mpr ⟨other, hin, by
              rw [hkey, ← heq]⟩)
        rw [hnone, List.append_nil, heq]
      · have hkey : entry.1 ≠ key := fun hkey =>
          hnew (List.mem_map.mpr ⟨_, hmem, hkey.symm⟩)
        rw [hother entry List.mem_cons_self hkey, List.nil_append]
        exact ih hrest hmem fun other hin =>
          hother other (List.mem_cons_of_mem _ hin)

end Dict

end Basis
