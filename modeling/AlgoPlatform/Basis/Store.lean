/-
A constrained relational store and the sessions that write it.

Rows live in append-only lists, so a row's position IS its primary key:
an insert appends, an update modifies in place, nothing is deleted. A
`Store` carries the proof that its rows satisfy the schema, so a state
the constraints reject cannot be built; `flush` is the only way to
write, and a write the schema rejects is the integrity exception.

`Session.Meets` is the one judgment about a session: what holds if it
commits, what holds of the exception if it does not. It is an
equivalence at every constructor, so `simp` walks a session body from
its first statement to its last.
-/
import Mathlib.Data.List.Dedup

namespace Basis

-- ================================================================ rows

section Rows

variable {α : Type}

/-- The rows that satisfy `p`, each with its primary key, in key order. -/
def select (p : α → Bool) (rows : List α) : List (Nat × α) :=
  (rows.zipIdx.filter fun x => p x.1).map fun x => (x.2, x.1)

theorem mem_select {p : α → Bool} {rows : List α} {i : Nat} {r : α} :
    (i, r) ∈ select p rows ↔ rows[i]? = some r ∧ p r = true := by
  simp only [select, List.mem_map, List.mem_filter, Prod.mk.injEq, Prod.exists]
  constructor
  · rintro ⟨r', i', ⟨hmem, hp⟩, rfl, rfl⟩
    exact ⟨List.mk_mem_zipIdx_iff_getElem?.1 hmem, hp⟩
  · rintro ⟨hget, hp⟩
    exact ⟨r, i, ⟨List.mk_mem_zipIdx_iff_getElem?.2 hget, hp⟩, rfl, rfl⟩

/-- A selection lists each key once. -/
theorem select_keys_nodup (p : α → Bool) (rows : List α) :
    ((select p rows).map Prod.fst).Nodup := by
  have hkeys : (rows.zipIdx.map Prod.snd).Nodup := by
    rw [List.zipIdx_map_snd]
    exact List.nodup_range'
  have hmap : (select p rows).map Prod.fst
      = (rows.zipIdx.filter fun x => p x.1).map Prod.snd := by
    simp only [select, List.map_map]
    rfl
  rw [hmap]
  exact hkeys.sublist (List.filter_sublist.map _)

/-- Selecting by a predicate that holds of no row selects nothing. -/
theorem select_eq_nil {p : α → Bool} {rows : List α} :
    select p rows = [] ↔ ∀ r ∈ rows, p r = false := by
  rw [List.eq_nil_iff_forall_not_mem]
  constructor
  · intro h r hr
    obtain ⟨i, hi⟩ := List.getElem?_of_mem hr
    by_contra hp
    exact h (i, r) (mem_select.2 ⟨hi, by simpa using hp⟩)
  · rintro h ⟨i, r⟩ hmem
    obtain ⟨hi, hp⟩ := mem_select.1 hmem
    rw [h r (List.mem_of_getElem? hi)] at hp
    cases hp

/-- A key no two rows share identifies its row. -/
theorem key_inj {κ : Type} {key : α → κ} {rows : List α}
    (hnd : (rows.map key).Nodup) {i j : Nat} {x y : α}
    (hx : rows[i]? = some x) (hy : rows[j]? = some y) (hk : key x = key y) :
    i = j := by
  obtain ⟨hi, -⟩ := List.getElem?_eq_some_iff.1 hx
  refine (List.getElem?_inj (by rwa [List.length_map]) hnd).1 ?_
  rw [List.getElem?_map, List.getElem?_map, hx, hy, Option.map_some,
    Option.map_some, hk]

/-- Selecting by a key at most one row has finds that row. -/
theorem select_of_unique_key {κ : Type} [DecidableEq κ] {key : α → Option κ}
    {rows : List α} (hnd : (rows.filterMap key).Nodup) {i : Nat} {r : α}
    (hi : rows[i]? = some r) {k : κ} (hk : key r = some k) :
    select (fun r => key r = some k) rows = [(i, r)] := by
  have hunique : ∀ (j : Nat) (r' : α), rows[j]? = some r' → key r' = some k →
      j = i := by
    intro j r' hj hk'
    by_contra hne
    rw [List.Nodup, List.pairwise_filterMap] at hnd
    have hpair := List.pairwise_iff_getElem.1 hnd
    obtain ⟨hjl, hjr⟩ := List.getElem?_eq_some_iff.1 hj
    obtain ⟨hil, hir⟩ := List.getElem?_eq_some_iff.1 hi
    rcases Nat.lt_or_gt_of_ne hne with hlt | hlt
    · exact hpair j i hjl hil hlt k (hjr ▸ hk') k (hir ▸ hk) rfl
    · exact hpair i j hil hjl hlt k (hir ▸ hk) k (hjr ▸ hk') rfl
  have hmem : (i, r) ∈ select (fun r => key r = some k) rows :=
    mem_select.2 ⟨hi, by simpa using hk⟩
  have hall : ∀ x ∈ select (fun r => key r = some k) rows, x = (i, r) := by
    rintro ⟨j, r'⟩ hx
    obtain ⟨hj, hk'⟩ := mem_select.1 hx
    obtain rfl := hunique j r' hj (by simpa using hk')
    rw [hi] at hj
    cases hj
    rfl
  have hlen : (select (fun r => key r = some k) rows).length = 1 := by
    have hkeys := select_keys_nodup (fun r => decide (key r = some k)) rows
    match hsel : select (fun r => key r = some k) rows with
    | [] => rw [hsel] at hmem; cases hmem
    | [_] => rfl
    | a :: b :: l =>
        rw [hsel] at hall hkeys
        have hab : a = b := (hall a (by simp)).trans (hall b (by simp)).symm
        subst hab
        simp at hkeys
  obtain ⟨x, hx⟩ := List.length_eq_one_iff.1 hlen
  rw [hx] at hmem ⊢
  rw [List.mem_singleton.1 hmem]

/-- A key no two rows share selects at most one. -/
theorem select_of_nodup {κ : Type} [DecidableEq κ] {key : α → κ}
    {rows : List α} (hnd : (rows.map key).Nodup) (k : κ) :
    select (fun r => key r = k) rows = []
      ∨ ∃ i r, rows[i]? = some r ∧ key r = k
        ∧ select (fun r => key r = k) rows = [(i, r)] := by
  by_cases hnone : select (fun r => key r = k) rows = []
  · exact .inl hnone
  right
  obtain ⟨⟨i, r⟩, hmem⟩ := List.exists_mem_of_ne_nil _ hnone
  obtain ⟨hi, hk⟩ := mem_select.1 hmem
  have hk' : key r = k := of_decide_eq_true hk
  refine ⟨i, r, hi, hk', ?_⟩
  have hsome : (rows.filterMap fun r => some (key r)).Nodup := by
    rw [List.filterMap_eq_map']
    exact hnd
  have hone := select_of_unique_key hsome hi (congrArg some hk')
  simpa using hone

/-- A row update that keeps a column keeps the column's list. -/
theorem map_modify_of_eq {β : Type} {g : α → β} {f : α → α} {rows : List α}
    {i : Nat} (h : ∀ r, rows[i]? = some r → g (f r) = g r) :
    (rows.modify i f).map g = rows.map g := by
  refine List.ext_getElem? fun j => ?_
  rw [List.getElem?_map, List.getElem?_map, List.getElem?_modify]
  by_cases hij : i = j
  · subst hij
    cases hr : rows[i]? with
    | none => simp
    | some r => simp [h r hr]
  · simp [hij]

/-- A row update that keeps a nullable column keeps its non-null list. -/
theorem filterMap_modify_of_eq {β : Type} {g : α → Option β} {f : α → α}
    {rows : List α} {i : Nat} (h : ∀ r, rows[i]? = some r → g (f r) = g r) :
    (rows.modify i f).filterMap g = rows.filterMap g := by
  have hmap : ∀ l : List α, l.filterMap g = (l.map g).filterMap id := by
    intro l
    rw [List.filterMap_map]
    rfl
  rw [hmap, hmap, map_modify_of_eq h]

/-- The last row, written in place. -/
theorem modify_concat (rows : List α) (r : α) (f : α → α) :
    (rows ++ [r]).modify rows.length f = rows ++ [f r] := by
  induction rows with
  | nil => rfl
  | cons x rows ih => exact congrArg (x :: ·) ih

/-- What holds of every row and of the updated one holds of every row
after the update. -/
theorem forall_modify {P : α → Prop} {f : α → α} {rows : List α} {i : Nat}
    (h : ∀ r ∈ rows, P r) (hf : ∀ r, rows[i]? = some r → P (f r)) :
    ∀ r ∈ rows.modify i f, P r := by
  intro r hr
  obtain ⟨j, hj⟩ := List.getElem?_of_mem hr
  rw [List.getElem?_modify] at hj
  cases hrow : rows[j]? with
  | none => simp [hrow] at hj
  | some r' =>
      rw [hrow] at hj
      by_cases hij : i = j
      · subst hij
        simp only [Option.map_eq_map, Option.map_some, ite_true,
          Option.some.injEq] at hj
        exact hj ▸ hf r' hrow
      · simp only [Option.map_eq_map, Option.map_some, hij, ite_false,
          Option.some.injEq] at hj
        exact hj ▸ h r' (List.mem_of_getElem? hrow)

private theorem zipIdx_modify (f : α → α) (rows : List α) (i : Nat) :
    (rows.modify i f).zipIdx
      = rows.zipIdx.map fun x => if x.2 = i then (f x.1, x.2) else x := by
  refine List.ext_getElem? fun j => ?_
  rw [List.getElem?_zipIdx, List.getElem?_map, List.getElem?_zipIdx,
    List.getElem?_modify]
  cases rows[j]? with
  | none => rfl
  | some r =>
      by_cases hij : i = j
      · simp [hij]
      · simp [hij, Ne.symm hij]

/-- Updating a row updates it in every selection. -/
theorem select_modify {p : α → Bool} {f : α → α} {rows : List α} {i : Nat}
    (hp : ∀ r, p (f r) = p r) :
    select p (rows.modify i f)
      = (select p rows).map fun x => (x.1, if x.1 = i then f x.2 else x.2) := by
  unfold select
  rw [zipIdx_modify, List.filter_map, List.map_map, List.map_map]
  have hfilter : ((fun x : α × Nat => p x.1) ∘ fun x : α × Nat =>
      if x.2 = i then (f x.1, x.2) else x) = fun x => p x.1 := by
    funext x
    by_cases h : x.2 = i <;> simp [h, hp]
  rw [hfilter]
  refine List.map_congr_left fun x _ => ?_
  by_cases h : x.2 = i <;> simp [h]

/-- An inserted row is selected last. -/
theorem select_append (p : α → Bool) (rows : List α) (r : α) :
    select p (rows ++ [r])
      = select p rows ++ if p r then [(rows.length, r)] else [] := by
  unfold select
  rw [List.zipIdx_append, List.filter_append, List.map_append]
  by_cases h : p r <;> simp [h]

/-- A selection without its keys. -/
theorem select_map_snd (p : α → Bool) (rows : List α) :
    (select p rows).map Prod.snd = rows.filter p := by
  calc (select p rows).map Prod.snd
      = (rows.zipIdx.filter fun x => p x.1).map Prod.fst := by
        rw [select, List.map_map]
        rfl
    _ = (rows.zipIdx.map Prod.fst).filter p := List.filter_map.symm
    _ = rows.filter p := by rw [List.zipIdx_map_fst]

/-- A selection narrowed. -/
theorem select_and (p q : α → Bool) (rows : List α) :
    select (fun r => p r && q r) rows
      = (select p rows).filter fun x => q x.2 := by
  unfold select
  rw [List.filter_map, List.filter_filter]
  congr 1
  refine List.filter_congr fun x _ => ?_
  exact Bool.and_comm _ _

/-- A selection is in key order. -/
theorem select_sorted (p : α → Bool) (rows : List α) :
    (select p rows).Pairwise fun x y => x.1 < y.1 := by
  have hkeys : (rows.zipIdx.map Prod.snd).Pairwise (· < ·) := by
    rw [List.zipIdx_map_snd]
    exact List.pairwise_lt_range'
  unfold select
  rw [List.pairwise_map]
  exact (List.pairwise_map.1 hkeys).sublist List.filter_sublist

/-- Where the same keys have the same selected rows, the selections are
the same. -/
theorem select_congr {p : α → Bool} {rows rows' : List α}
    (h : ∀ (i : Nat) (r : α), p r = true →
      (rows'[i]? = some r ↔ rows[i]? = some r)) :
    select p rows' = select p rows := by
  have hmem : ∀ x, x ∈ select p rows' ↔ x ∈ select p rows := by
    intro x
    obtain ⟨i, r⟩ := x
    rw [mem_select, mem_select]
    exact and_congr_left (h i r)
  have hperm : (select p rows').Perm (select p rows) :=
    (List.perm_ext_iff_of_nodup (select_keys_nodup p rows').of_map
      (select_keys_nodup p rows).of_map).2 hmem
  refine hperm.eq_of_pairwise ?_ (select_sorted p rows') (select_sorted p rows)
  intro x y _ _ hxy hyx
  exact absurd hyx (Nat.lt_asymm hxy)
/-- A query without ORDER BY returns its keys in no promised order:
`scan` is the order the database happens to use, keys it does not name
come last. -/
def arrange (scan keys : List Nat) : List Nat :=
  (scan.dedup.filter (· ∈ keys)) ++ keys.filter (· ∉ scan)

/-- Whatever the order, a query returns the keys it selected. -/
theorem mem_arrange {scan keys : List Nat} {i : Nat} :
    i ∈ arrange scan keys ↔ i ∈ keys := by
  simp only [arrange, List.mem_append, List.mem_filter, List.mem_dedup,
    decide_eq_true_eq]
  tauto

/-- Whatever the order, a query returns each key once. -/
theorem arrange_nodup {scan keys : List Nat} (h : keys.Nodup) :
    (arrange scan keys).Nodup := by
  refine List.Nodup.append ((List.nodup_dedup _).filter _) (h.filter _) ?_
  intro i hi hi'
  simp only [List.mem_filter, List.mem_dedup, decide_eq_true_eq] at hi hi'
  exact hi'.2 hi.1

/-- A query in whatever order returns the selected keys. -/
theorem arrange_perm {scan keys : List Nat} (h : keys.Nodup) :
    (arrange scan keys).Perm keys := by
  rw [List.perm_ext_iff_of_nodup (arrange_nodup h) h]
  exact fun i => mem_arrange

end Rows

-- ============================================================== stores

/-- The constraints a database puts on its rows: CHECK, UNIQUE and
FOREIGN KEY, as one decidable predicate. -/
class Schema (ρ : Type) where
  Admits : ρ → Prop
  decAdmits : DecidablePred Admits

instance {ρ : Type} [Schema ρ] : DecidablePred (Schema.Admits (ρ := ρ)) :=
  Schema.decAdmits

/-- A database whose rows its schema admits. -/
@[ext]
structure Store (ρ : Type) [Schema ρ] where
  rows : ρ
  admitted : Schema.Admits rows

/-- The exceptions the database itself raises inside a session. -/
class StoreFault (ε : Type) where
  integrity : ε
  multipleResults : ε

-- ============================================================ sessions

/-- The body of one transaction: reads and flushes over a store. -/
abbrev Session (ρ ε : Type) [Schema ρ] (α : Type) : Type :=
  StateT (Store ρ) (Except ε) α

namespace Session

variable {ρ ε α β : Type} [Schema ρ]

/-- Read from the rows. -/
def fetch (f : ρ → α) : Session ρ ε α := fun db => .ok (f db.rows, db)

/-- Write the rows; a write the schema rejects raises. -/
def flush [StoreFault ε] (g : ρ → ρ) : Session ρ ε Unit := fun db =>
  if h : Schema.Admits (g db.rows) then .ok ((), ⟨g db.rows, h⟩)
  else .error StoreFault.integrity

/-- At most one row, or the multiple-results exception. -/
def scalarOneOrNone [StoreFault ε] : List α → Session ρ ε (Option α)
  | [] => pure none
  | [a] => pure (some a)
  | _ :: _ :: _ => throw StoreFault.multipleResults

/-- What a session guarantees from `db`: `Q` of its value and of the
store it commits, `E` of the exception that rolls it back. -/
def Meets (body : Session ρ ε α) (db : Store ρ) (Q : α → Store ρ → Prop)
    (E : ε → Prop) : Prop :=
  match body db with
  | .ok (a, db') => Q a db'
  | .error e => E e

section Rules

variable {db : Store ρ} {E : ε → Prop}

@[simp] theorem meets_pure (a : α) (Q : α → Store ρ → Prop) :
    Meets (pure a : Session ρ ε α) db Q E ↔ Q a db := Iff.rfl

@[simp] theorem meets_throw (e : ε) (Q : α → Store ρ → Prop) :
    Meets (throw e : Session ρ ε α) db Q E ↔ E e := Iff.rfl

@[simp] theorem meets_fetch (f : ρ → α) (Q : α → Store ρ → Prop) :
    Meets (fetch f : Session ρ ε α) db Q E ↔ Q (f db.rows) db := Iff.rfl

@[simp] theorem meets_flush [StoreFault ε] (g : ρ → ρ)
    (Q : Unit → Store ρ → Prop) :
    Meets (flush g : Session ρ ε Unit) db Q E
      ↔ (∀ h : Schema.Admits (g db.rows), Q () ⟨g db.rows, h⟩)
        ∧ (¬ Schema.Admits (g db.rows) → E StoreFault.integrity) := by
  unfold Meets flush
  by_cases h : Schema.Admits (g db.rows) <;> simp [h]

@[simp] theorem meets_bind (x : Session ρ ε α) (f : α → Session ρ ε β)
    (Q : β → Store ρ → Prop) :
    Meets (x >>= f) db Q E ↔ Meets x db (fun a db' => Meets (f a) db' Q E) E := by
  unfold Meets
  show (match (StateT.bind x f) db with | .ok (a, db') => Q a db' | .error e => E e)
    ↔ _
  unfold StateT.bind
  cases x db with
  | error e => exact Iff.rfl
  | ok r => exact Iff.rfl

theorem meets_map (x : Session ρ ε α) (f : α → β)
    (Q : β → Store ρ → Prop) :
    Meets (f <$> x) db Q E ↔ Meets x db (fun a db' => Q (f a) db') E := by
  rw [map_eq_pure_bind, meets_bind]
  rfl

@[simp] theorem meets_discard (x : Session ρ ε α)
    (Q : PUnit → Store ρ → Prop) :
    Meets (discard x) db Q E ↔ Meets x db (fun _ => Q ⟨⟩) E := by
  show Meets ((fun _ => PUnit.unit) <$> x) db Q E ↔ _
  rw [meets_map]

@[simp] theorem meets_lift (x : Except ε α) (Q : α → Store ρ → Prop) :
    Meets (liftM x : Session ρ ε α) db Q E
      ↔ (∀ a, x = .ok a → Q a db) ∧ (∀ e, x = .error e → E e) := by
  cases x with
  | error e => exact ⟨fun h => ⟨nofun, by rintro _ ⟨⟩; exact h⟩, fun h => h.2 e rfl⟩
  | ok a => exact ⟨fun h => ⟨by rintro _ ⟨⟩; exact h, nofun⟩, fun h => h.1 a rfl⟩

@[simp] theorem meets_scalarOneOrNone [StoreFault ε] (l : List α)
    (Q : Option α → Store ρ → Prop) :
    Meets (scalarOneOrNone l : Session ρ ε (Option α)) db Q E
      ↔ (l = [] → Q none db) ∧ (∀ a, l = [a] → Q (some a) db)
        ∧ (2 ≤ l.length → E StoreFault.multipleResults) := by
  match l with
  | [] => simp [scalarOneOrNone]
  | [a] => simp [scalarOneOrNone]
  | a :: b :: l => simp [scalarOneOrNone]

theorem meets_tryCatch (x : Session ρ ε α) (h : ε → Session ρ ε α)
    (Q : α → Store ρ → Prop) :
    Meets (tryCatch x h) db Q E ↔ Meets x db Q fun e => Meets (h e) db Q E := by
  unfold Meets
  show (match (tryCatch (x db) fun e => h e db) with
    | .ok (a, db') => Q a db' | .error e => E e) ↔ _
  cases x db with
  | error e => exact Iff.rfl
  | ok r => exact Iff.rfl

@[simp] theorem meets_ite (c : Prop) [Decidable c] (x y : Session ρ ε α)
    (Q : α → Store ρ → Prop) :
    Meets (if c then x else y) db Q E
      ↔ (c → Meets x db Q E) ∧ (¬ c → Meets y db Q E) := by
  by_cases h : c <;> simp [h]

/-- Consequence for sessions. -/
theorem Meets.imp {body : Session ρ ε α} {Q R : α → Store ρ → Prop}
    {F : ε → Prop} (h : Meets body db Q E) (hQ : ∀ a db', Q a db' → R a db')
    (hE : ∀ e, E e → F e) : Meets body db R F := by
  unfold Meets at h ⊢
  cases hb : body db with
  | error e => rw [hb] at h; exact hE e h
  | ok r => rw [hb] at h; exact hQ _ _ h

/-- A session that cannot raise commits. -/
theorem Meets.exists_ok {body : Session ρ ε α} {Q : α → Store ρ → Prop}
    (h : Meets body db Q fun _ => False) :
    ∃ a db', body db = .ok (a, db') ∧ Q a db' := by
  unfold Meets at h
  cases hb : body db with
  | error e => rw [hb] at h; exact h.elim
  | ok r => rw [hb] at h; exact ⟨r.1, r.2, rfl, h⟩

/-- Two facts about one session hold of the same commit. -/
theorem Meets.and {body : Session ρ ε α} {Q R : α → Store ρ → Prop}
    {F : ε → Prop} (h : Meets body db Q E) (h' : Meets body db R F) :
    Meets body db (fun a db' => Q a db' ∧ R a db') (fun e => E e ∧ F e) := by
  unfold Meets at h h' ⊢
  cases hb : body db with
  | error e => rw [hb] at h h'; exact ⟨h, h'⟩
  | ok r => rw [hb] at h h'; exact ⟨h, h'⟩

end Rules

-- ================================================================ frames

/-- A relation between the rows before and after that every session step
can compose. -/
class Frame (R : ρ → ρ → Prop) : Prop where
  refl : ∀ r, R r r
  trans : ∀ {r s t}, R r s → R s t → R r t

/-- Every commit of the session relates the rows before and after. -/
def Keeps (R : ρ → ρ → Prop) (body : Session ρ ε α) : Prop :=
  ∀ db, Meets body db (fun _ db' => R db.rows db'.rows) fun _ => True

section Frames

variable {R : ρ → ρ → Prop}

theorem keeps_pure [Frame R] (a : α) : Keeps R (pure a : Session ρ ε α) :=
  fun db => Frame.refl db.rows

theorem keeps_throw (e : ε) : Keeps R (throw e : Session ρ ε α) :=
  fun _ => trivial

theorem keeps_fetch [Frame R] (f : ρ → α) :
    Keeps R (fetch f : Session ρ ε α) :=
  fun db => Frame.refl db.rows

theorem keeps_lift [Frame R] (x : Except ε α) :
    Keeps R (liftM x : Session ρ ε α) :=
  fun db => (meets_lift x _).2
    ⟨fun _ _ => Frame.refl db.rows, fun _ _ => trivial⟩

theorem keeps_flush [StoreFault ε] {g : ρ → ρ} (h : ∀ r, R r (g r)) :
    Keeps R (flush g : Session ρ ε Unit) :=
  fun db => (meets_flush g _).2 ⟨fun _ => h db.rows, fun _ => trivial⟩

theorem keeps_scalarOneOrNone [Frame R] [StoreFault ε] (l : List α) :
    Keeps R (scalarOneOrNone l : Session ρ ε (Option α)) :=
  match l with
  | [] => keeps_pure _
  | [_] => keeps_pure _
  | _ :: _ :: _ => keeps_throw _

theorem keeps_bind [Frame R] {x : Session ρ ε α} {f : α → Session ρ ε β}
    (hx : Keeps R x) (hf : ∀ a, Keeps R (f a)) : Keeps R (x >>= f) := by
  intro db
  rw [meets_bind]
  refine (hx db).imp (fun a db' h => ?_) fun _ => id
  exact (hf a db').imp (fun _ _ => Frame.trans h) fun _ => id

theorem keeps_discard {x : Session ρ ε α} (hx : Keeps R x) :
    Keeps R (discard x) :=
  fun db => (meets_discard x _).2 (hx db)

theorem keeps_ite {c : Prop} [Decidable c] {x y : Session ρ ε α}
    (hx : Keeps R x) (hy : Keeps R y) : Keeps R (if c then x else y) := by
  split_ifs <;> assumption

theorem keeps_tryCatch {x : Session ρ ε α} {h : ε → Session ρ ε α}
    (hx : Keeps R x) (hh : ∀ e, Keeps R (h e)) : Keeps R (tryCatch x h) := by
  intro db
  rw [meets_tryCatch]
  unfold Meets
  have hxdb := hx db
  unfold Meets at hxdb
  cases hrun : x db with
  | error e => exact hh e db
  | ok r => rw [hrun] at hxdb; exact hxdb

end Frames

-- =============================================================== values

/-- Every value the session commits with satisfies `P`. -/
def Yields (P : α → Prop) (body : Session ρ ε α) : Prop :=
  ∀ db, Meets body db (fun a _ => P a) fun _ => True

section Values

variable {P : α → Prop}

theorem yields_pure {a : α} (h : P a) : Yields P (pure a : Session ρ ε α) :=
  fun _ => h

theorem yields_throw (e : ε) : Yields P (throw e : Session ρ ε α) :=
  fun _ => trivial

/-- Only the last statement of a session makes its value. -/
theorem yields_bind {x : Session ρ ε β} {f : β → Session ρ ε α}
    (hf : ∀ b, Yields P (f b)) : Yields P (x >>= f) := by
  intro db
  rw [meets_bind]
  unfold Meets
  cases x db with
  | error e => trivial
  | ok r => exact hf r.1 r.2

theorem yields_ite {c : Prop} [Decidable c] {x y : Session ρ ε α}
    (hx : Yields P x) (hy : Yields P y) : Yields P (if c then x else y) := by
  split_ifs <;> assumption

end Values

-- ============================================================= exceptions

/-- Every exception that rolls the session back satisfies `E`. -/
def Raises (E : ε → Prop) (body : Session ρ ε α) : Prop :=
  ∀ db, Meets body db (fun _ _ => True) E

section Exceptions

variable {E : ε → Prop}

theorem raises_pure (a : α) : Raises E (pure a : Session ρ ε α) :=
  fun _ => trivial

theorem raises_throw {e : ε} (h : E e) :
    Raises E (throw e : Session ρ ε α) := fun _ => h

theorem raises_fetch (f : ρ → α) : Raises E (fetch f : Session ρ ε α) :=
  fun _ => trivial

theorem raises_flush [StoreFault ε] (h : E StoreFault.integrity) (g : ρ → ρ) :
    Raises E (flush g : Session ρ ε Unit) :=
  fun _ => (meets_flush _ _).2 ⟨fun _ => trivial, fun _ => h⟩

theorem raises_lift {x : Except ε α} (h : ∀ e, x = .error e → E e) :
    Raises E (liftM x : Session ρ ε α) :=
  fun _ => (meets_lift _ _).2 ⟨fun _ _ => trivial, h⟩

theorem raises_scalarOneOrNone [StoreFault ε]
    (h : E StoreFault.multipleResults) (l : List α) :
    Raises E (scalarOneOrNone l : Session ρ ε (Option α)) :=
  fun _ => (meets_scalarOneOrNone _ _).2
    ⟨fun _ => trivial, fun _ _ => trivial, fun _ => h⟩

theorem raises_bind {x : Session ρ ε α} {f : α → Session ρ ε β}
    (hx : Raises E x) (hf : ∀ a, Raises E (f a)) : Raises E (x >>= f) :=
  fun db => (meets_bind _ _ _).2 ((hx db).imp (fun a db' _ => hf a db')
    fun _ h => h)

theorem raises_discard {x : Session ρ ε α} (hx : Raises E x) :
    Raises E (discard x) :=
  fun db => (meets_discard _ _).2 ((hx db).imp (fun _ _ _ => trivial)
    fun _ h => h)

theorem raises_ite {c : Prop} [Decidable c] {x y : Session ρ ε α}
    (hx : Raises E x) (hy : Raises E y) : Raises E (if c then x else y) := by
  split_ifs <;> assumption

end Exceptions

end Session

end Basis
