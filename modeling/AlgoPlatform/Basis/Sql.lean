/-
Transactions on one table, side by side, at READ COMMITTED.

# The table

A row's position is its primary key. A `Slot` holds what is committed of
the row and the one uncommitted write on it, with the connection that
made the write and so holds the row's lock. Nobody else sees the write
until that connection commits; a connection sees its own.

# The statements

`Sql` is what a connection does: SELECT, INSERT, UPDATE under an
optimistic version, COMMIT, ROLLBACK. An INSERT the constraints refuse
and an UPDATE whose version is out of date answer so; a statement that
needs a row or a key another connection has written and not committed
waits.

# The server

Connections are opened, act one statement at a time, and can be cut off;
any order of these is a run. `Sql.alone` is the special case of a
connection that has the table to itself.
-/
import Mathlib.Data.Option.Basic
import Mathlib.Tactic.Common

namespace Basis

variable {ι ρ ε α β : Type}

-- =============================================================== table

/-- A row and the version its optimistic lock compares. -/
structure Versioned (ρ : Type) where
  value : ρ
  version : Nat
  deriving DecidableEq

/-- One row: what is committed, and the write that is not. -/
structure Slot (ρ : Type) where
  committed : Option (Versioned ρ)
  pending : Option (Nat × Versioned ρ)
  deriving DecidableEq

/-- The constraints on the rows: CHECK and FOREIGN KEY by row, UNIQUE by
pairs of rows. -/
structure Constraints (ρ : Type) where
  Admits : ρ → Prop
  Clash : ρ → ρ → Prop
  decAdmits : DecidablePred Admits
  decClash : ∀ r r', Decidable (Clash r r')

instance Constraints.admitsDecidable (c : Constraints ρ) :
    DecidablePred c.Admits := c.decAdmits

instance Constraints.clashDecidable (c : Constraints ρ) (r r' : ρ) :
    Decidable (c.Clash r r') := c.decClash r r'

namespace Slot

/-- The row as connection `t` sees it. -/
def seenBy (t : Nat) (s : Slot ρ) : Option (Versioned ρ) :=
  match s.pending with
  | some (u, v) => if u = t then some v else s.committed
  | none => s.committed

/-- Another connection holds the row's lock. -/
def heldFrom (t : Nat) (s : Slot ρ) : Bool := s.pending.any (·.1 ≠ t)

/-- COMMIT of connection `t`, at one row. -/
def commit (t : Nat) (s : Slot ρ) : Slot ρ :=
  match s.pending with
  | some (u, v) => if u = t then ⟨some v, none⟩ else s
  | none => s

/-- ROLLBACK of connection `t`, at one row. -/
def rollback (t : Nat) (s : Slot ρ) : Slot ρ :=
  match s.pending with
  | some (u, _) => if u = t then ⟨s.committed, none⟩ else s
  | none => s

end Slot

/-- The rows connection `t` sees, with their primary keys. -/
def selectAll (t : Nat) (table : List (Slot ρ)) : List (Nat × Versioned ρ) :=
  table.zipIdx.filterMap fun (s, i) => (s.seenBy t).map (i, ·)

/-- INSERT: the new key, or `none` where a constraint refuses the row.
Waits for an uncommitted row it may clash with. -/
def insertRow (c : Constraints ρ) (t : Nat) (value : ρ)
    (table : List (Slot ρ)) : Option (Option Nat × List (Slot ρ)) :=
  if ¬ c.Admits value
      ∨ ∃ s ∈ table, ∃ v ∈ s.seenBy t, c.Clash value v.value then
    some (none, table)
  else if ∃ s ∈ table, ∃ w ∈ s.pending, c.Clash value w.2.value then none
  else some (some table.length, table ++ [⟨none, some (t, ⟨value, 1⟩)⟩])

/-- UPDATE … WHERE id AND version: whether a row matched. Waits for the
row's lock. -/
def updateRow (t id version : Nat) (value : ρ) (table : List (Slot ρ)) :
    Option (Bool × List (Slot ρ)) :=
  match table[id]? with
  | none => some (false, table)
  | some s =>
      if s.heldFrom t then none
      else if (s.seenBy t).any (·.version = version) then
        some (true, table.set id
          { s with pending := some (t, ⟨value, version + 1⟩) })
      else some (false, table)

/-- The committed row under a key. -/
def rowAt (table : List (Slot ρ)) (id : Nat) : Option (Versioned ρ) :=
  (table[id]?).bind (·.committed)

/-- The uncommitted write of connection `t` on a row. -/
def writeOf (t : Nat) (table : List (Slot ρ)) (id : Nat) :
    Option (Versioned ρ) :=
  (table[id]?).bind fun s =>
    s.pending.bind fun (u, v) => if u = t then some v else none

/-- A table nobody is writing. -/
def Quiet (table : List (Slot ρ)) : Prop := ∀ s ∈ table, s.pending = none

section Rows

variable {table : List (Slot ρ)} {t i : Nat} {v : Versioned ρ}

theorem mem_selectAll :
    (i, v) ∈ selectAll t table
      ↔ ∃ s, table[i]? = some s ∧ s.seenBy t = some v := by
  unfold selectAll
  rw [List.mem_filterMap]
  constructor
  · intro ⟨⟨s, j⟩, hs, hv⟩
    obtain ⟨w, hw, heq⟩ := Option.map_eq_some_iff.1 hv
    cases heq
    exact ⟨s, List.mk_mem_zipIdx_iff_getElem?.1 hs, hw⟩
  · intro ⟨s, hs, hv⟩
    exact ⟨(s, i), List.mk_mem_zipIdx_iff_getElem?.2 hs,
      Option.map_eq_some_iff.2 ⟨v, hv, rfl⟩⟩

theorem selectAll_keys_nodup (t : Nat) (table : List (Slot ρ)) :
    ((selectAll t table).map Prod.fst).Nodup := by
  have hkeys : (table.zipIdx.map Prod.snd).Nodup := by
    rw [List.zipIdx_map_snd]
    exact List.nodup_range'
  refine hkeys.sublist ?_
  unfold selectAll
  generalize table.zipIdx = rows
  induction rows with
  | nil => exact List.Sublist.refl _
  | cons x rows ih =>
      obtain ⟨s, i⟩ := x
      rw [List.filterMap_cons, List.map_cons]
      cases hs : s.seenBy t with
      | none => simpa only [hs, Option.map_none] using ih.cons i
      | some v =>
          simpa only [hs, Option.map_some, List.map_cons] using ih.cons_cons i

/-- A row has one writer. -/
theorem writeOf_inj {u : Nat} {w : Versioned ρ} (hv : writeOf t table i = some v)
    (hw : writeOf u table i = some w) : t = u := by
  unfold writeOf at hv hw
  cases hs : table[i]? with
  | none =>
      rw [hs] at hv
      cases hv
  | some s =>
      rw [hs] at hv hw
      obtain ⟨_, _ | ⟨x, y⟩⟩ := s
      · cases hv
      · by_cases hx : x = t
        · by_cases hx' : x = u
          · exact hx.symm.trans hx'
          · simp [hx'] at hw
        · simp [hx] at hv

/-- A connection that has written nothing sees the committed rows. -/
theorem mem_selectAll_of_unwritten (h : ∀ j, writeOf t table j = none) :
    (i, v) ∈ selectAll t table ↔ rowAt table i = some v := by
  have hnone := h i
  rw [mem_selectAll, rowAt, Option.bind_eq_some_iff]
  refine exists_congr fun s => and_congr_right fun hs => ?_
  unfold writeOf at hnone
  rw [hs] at hnone
  obtain ⟨_, _ | ⟨x, y⟩⟩ := s
  · exact Iff.rfl
  · by_cases hx : x = t
    · simp [hx] at hnone
    · simp [Slot.seenBy, hx]

/-- Where nobody writes, everybody sees the committed rows. -/
theorem Quiet.mem_selectAll (h : Quiet table) :
    (i, v) ∈ selectAll t table ↔ rowAt table i = some v := by
  rw [Basis.mem_selectAll, rowAt, Option.bind_eq_some_iff]
  constructor
  · intro ⟨s, hs, hv⟩
    rw [Slot.seenBy, h s (List.mem_of_getElem? hs)] at hv
    exact ⟨s, hs, hv⟩
  · intro ⟨s, hs, hv⟩
    refine ⟨s, hs, ?_⟩
    rw [Slot.seenBy, h s (List.mem_of_getElem? hs)]
    exact hv

/-- Where nobody writes, a commit commits nothing. -/
theorem Quiet.commit (h : Quiet table) : table.map (·.commit t) = table := by
  refine (List.map_congr_left fun s hs => ?_).trans (List.map_id table)
  rw [Slot.commit, h s hs]
  rfl

/-- A commit makes the connection's writes the committed rows. -/
theorem rowAt_commit :
    rowAt (table.map (·.commit t)) i
      = (writeOf t table i).or (rowAt table i) := by
  unfold rowAt writeOf
  rw [List.getElem?_map]
  cases table[i]? with
  | none => rfl
  | some s =>
      obtain ⟨_, _ | ⟨u, v⟩⟩ := s
      · rfl
      · by_cases hu : u = t <;> simp [Slot.commit, hu]

theorem rowAt_rollback :
    rowAt (table.map (·.rollback t)) i = rowAt table i := by
  unfold rowAt
  rw [List.getElem?_map]
  cases table[i]? with
  | none => rfl
  | some s =>
      obtain ⟨_, _ | ⟨u, v⟩⟩ := s
      · rfl
      · by_cases hu : u = t <;> simp [Slot.rollback, hu]

/-- After a commit the connection has no writes; the others keep theirs. -/
theorem writeOf_commit {u : Nat} :
    writeOf u (table.map (·.commit t)) i
      = if u = t then none else writeOf u table i := by
  unfold writeOf
  rw [List.getElem?_map]
  cases table[i]? with
  | none => exact (ite_self _).symm
  | some s =>
      obtain ⟨_, _ | ⟨x, v⟩⟩ := s
      · exact (ite_self _).symm
      · by_cases hx : x = t
        · by_cases hu : u = t <;> simp [Slot.commit, hx, hu]
          exact fun h => hu h.symm
        · by_cases hu : u = t <;> simp [Slot.commit, hx, hu]

/-- After a rollback the connection has no writes; the others keep
theirs. -/
theorem writeOf_rollback {u : Nat} :
    writeOf u (table.map (·.rollback t)) i
      = if u = t then none else writeOf u table i := by
  unfold writeOf
  rw [List.getElem?_map]
  cases table[i]? with
  | none => exact (ite_self _).symm
  | some s =>
      obtain ⟨_, _ | ⟨x, v⟩⟩ := s
      · exact (ite_self _).symm
      · by_cases hx : x = t
        · by_cases hu : u = t <;> simp [Slot.rollback, hx, hu]
          exact fun h => hu h.symm
        · by_cases hu : u = t <;> simp [Slot.rollback, hx, hu]

/-- What an INSERT leaves: nothing new, or a row only its connection
sees. -/
theorem insertRow_cases {c : Constraints ρ} {value : ρ} {r : Option Nat}
    {table' : List (Slot ρ)}
    (h : insertRow c t value table = some (r, table')) :
    r = none ∧ table' = table
      ∨ r = some table.length
        ∧ (∀ i, rowAt table' i = rowAt table i)
        ∧ ∀ u i, writeOf u table' i
          = if u = t ∧ i = table.length then some ⟨value, 1⟩
            else writeOf u table i := by
  unfold insertRow at h
  split_ifs at h
  · cases h
    exact .inl ⟨rfl, rfl⟩
  · cases h
    refine .inr ⟨rfl, fun i => ?_, fun u i => ?_⟩
    · unfold rowAt
      rcases Nat.lt_trichotomy i table.length with hi | rfl | hi
      · rw [List.getElem?_append_left hi]
      · simp
      · rw [List.getElem?_eq_none (by simp; omega),
          List.getElem?_eq_none (by omega)]
    · unfold writeOf
      rcases Nat.lt_trichotomy i table.length with hi | rfl | hi
      · rw [List.getElem?_append_left hi, if_neg (by omega)]
      · by_cases hu : t = u <;> simp [hu, eq_comm]
      · rw [List.getElem?_eq_none (by simp; omega),
          List.getElem?_eq_none (by omega), if_neg (by omega)]

/-- An INSERT that goes through clashes with no row, seen or unseen. -/
theorem insertRow_unclashed {c : Constraints ρ} {value : ρ} {id : Nat}
    {table' : List (Slot ρ)}
    (h : insertRow c t value table = some (some id, table')) :
    (∀ u i w, writeOf u table i = some w → ¬ c.Clash value w.value)
      ∧ ∀ x ∈ selectAll t table, ¬ c.Clash value x.2.value := by
  unfold insertRow at h
  split_ifs at h with hrefused hheld
  · cases h
  · refine ⟨fun u i w hw hclash => hheld ?_, fun x hx hclash =>
      hrefused (.inr ?_)⟩
    · obtain ⟨s, hs, hpending⟩ := Option.bind_eq_some_iff.1 hw
      obtain ⟨⟨y, v⟩, hv, heq⟩ := Option.bind_eq_some_iff.1 hpending
      dsimp only at heq
      split_ifs at heq
      cases heq
      exact ⟨s, List.mem_of_getElem? hs, _, hv, hclash⟩
    · obtain ⟨s, hs, hseen⟩ := mem_selectAll.1 (show (x.1, x.2) ∈ _ from hx)
      exact ⟨s, List.mem_of_getElem? hs, x.2, hseen, hclash⟩

/-- What an UPDATE leaves: nothing new, or its write on a row nobody else
is writing, over the version it names. -/
theorem updateRow_cases {version : Nat} {value : ρ} {r : Bool}
    {table' : List (Slot ρ)}
    (h : updateRow t i version value table = some (r, table')) :
    r = false ∧ table' = table
      ∨ r = true
        ∧ (∃ v, (writeOf t table i).or (rowAt table i) = some v
            ∧ v.version = version)
        ∧ (∀ u, u ≠ t → writeOf u table i = none)
        ∧ (∀ j, rowAt table' j = rowAt table j)
        ∧ ∀ u j, writeOf u table' j
          = if u = t ∧ j = i then some ⟨value, version + 1⟩
            else writeOf u table j := by
  unfold updateRow at h
  split at h
  · cases h
    exact .inl ⟨rfl, rfl⟩
  · rename_i s hs
    split_ifs at h with hheld hseen
    · cases h
      have hlt := (List.getElem?_eq_some_iff.1 hs).1
      obtain ⟨v, hv, hversion⟩ := (Option.any_eq_true _ _).1 hseen
      have hlock : ∀ u w, s.pending = some (u, w) → u = t := by
        intro u w hw
        by_contra hu
        exact hheld (by simp [Slot.heldFrom, hw, hu])
      refine .inr ⟨rfl, ⟨v, ?_, of_decide_eq_true hversion⟩, fun u hu => ?_,
        fun j => ?_, fun u j => ?_⟩
      · rw [← hv]
        unfold writeOf rowAt Slot.seenBy
        rw [hs]
        cases hp : s.pending with
        | none => simp [hp]
        | some x =>
            obtain ⟨u, w⟩ := x
            simp [hlock u w hp, hp]
      · unfold writeOf
        rw [hs]
        cases hp : s.pending with
        | none => simp [hp]
        | some x =>
            obtain ⟨x, w⟩ := x
            have hx : x ≠ u := fun h => hu (h ▸ hlock x w hp)
            simp [hp, hx]
      · unfold rowAt
        by_cases hj : i = j
        · rw [← hj, List.getElem?_set_self hlt, hs]
          rfl
        · rw [List.getElem?_set_ne hj]
      · unfold writeOf
        by_cases hj : i = j
        · rw [← hj, List.getElem?_set_self hlt, hs]
          by_cases hu : t = u
          · simp [hu]
          · cases hp : s.pending with
            | none => simp [hp, hu, Ne.symm hu]
            | some x =>
                obtain ⟨x, w⟩ := x
                simp [hp, hu, Ne.symm hu, hlock x w hp]
        · rw [List.getElem?_set_ne hj, if_neg (fun h => hj h.2.symm)]
    · cases h
      exact .inl ⟨rfl, rfl⟩

end Rows

-- ========================================================== statements

/-- What is left for a connection to do. -/
inductive Sql (ρ ε α : Type)
  | done (r : Except ε α)
  | select (k : List (Nat × Versioned ρ) → Sql ρ ε α)
  | insert (value : ρ) (k : Option Nat → Sql ρ ε α)
  | update (id version : Nat) (value : ρ) (k : Bool → Sql ρ ε α)
  | commit (k : Sql ρ ε α)
  | rollback (k : Sql ρ ε α)

namespace Sql

/-- Sequencing: an exception of the first part skips the second. -/
def bind : Sql ρ ε α → (α → Sql ρ ε β) → Sql ρ ε β
  | .done (.ok a), q => q a
  | .done (.error e), _ => .done (.error e)
  | .select k, q => .select fun rows => (k rows).bind q
  | .insert value k, q => .insert value fun r => (k r).bind q
  | .update id version value k, q =>
      .update id version value fun r => (k r).bind q
  | .commit k, q => .commit (k.bind q)
  | .rollback k, q => .rollback (k.bind q)

/-- Exception handling. -/
def tryCatch : Sql ρ ε α → (ε → Sql ρ ε α) → Sql ρ ε α
  | .done (.ok a), _ => .done (.ok a)
  | .done (.error e), h => h e
  | .select k, h => .select fun rows => (k rows).tryCatch h
  | .insert value k, h => .insert value fun r => (k r).tryCatch h
  | .update id version value k, h =>
      .update id version value fun r => (k r).tryCatch h
  | .commit k, h => .commit (k.tryCatch h)
  | .rollback k, h => .rollback (k.tryCatch h)

instance : Monad (Sql ρ ε) where
  pure a := .done (.ok a)
  bind := bind

instance : MonadExceptOf ε (Sql ρ ε) where
  throw e := .done (.error e)
  tryCatch := tryCatch

/-- Lift a pure computation that may raise. -/
instance : MonadLift (Except ε) (Sql ρ ε) := ⟨.done⟩

/-- COMMIT on success, ROLLBACK and raise again on an exception. -/
def unitOfWork (body : Sql ρ ε α) : Sql ρ ε α :=
  MonadExcept.tryCatch (do let a ← body; .commit (pure a))
    fun e => .rollback (throw e)

theorem bind_assoc {γ : Type} (p : Sql ρ ε α) (q : α → Sql ρ ε β)
    (q' : β → Sql ρ ε γ) :
    (p.bind q).bind q' = p.bind fun a => (q a).bind q' := by
  induction p with
  | done r => cases r <;> rfl
  | select k ih => exact congrArg Sql.select (funext ih)
  | insert value k ih => exact congrArg (Sql.insert value) (funext ih)
  | update id version value k ih =>
      exact congrArg (Sql.update id version value) (funext ih)
  | commit k ih => exact congrArg Sql.commit ih
  | rollback k ih => exact congrArg Sql.rollback ih

/-- One statement of connection `t`: `none` while it waits. -/
def step (c : Constraints ρ) (t : Nat) :
    Sql ρ ε α → List (Slot ρ) → Option (Sql ρ ε α × List (Slot ρ))
  | .done r, table => some (.done r, table)
  | .select k, table => some (k (selectAll t table), table)
  | .insert value k, table =>
      (insertRow c t value table).map fun x => (k x.1, x.2)
  | .update id version value k, table =>
      (updateRow t id version value table).map fun x => (k x.1, x.2)
  | .commit k, table => some (k, table.map (·.commit t))
  | .rollback k, table => some (k, table.map (·.rollback t))

theorem step_insert (c : Constraints ρ) (t : Nat) (value : ρ)
    (k : Option Nat → Sql ρ ε α) (table : List (Slot ρ)) :
    (insert value k).step c t table
      = (insertRow c t value table).map fun x => (k x.1, x.2) := rfl

theorem step_update (c : Constraints ρ) (t id version : Nat) (value : ρ)
    (k : Bool → Sql ρ ε α) (table : List (Slot ρ)) :
    (update id version value k).step c t table
      = (updateRow t id version value table).map fun x => (k x.1, x.2) := rfl

/-- The whole of a connection nobody else interrupts; `none` if it waits
for ever. -/
def alone (c : Constraints ρ) (t : Nat) :
    Sql ρ ε α → List (Slot ρ) → Option (Except ε α × List (Slot ρ))
  | .done r, table => some (r, table)
  | .select k, table => (k (selectAll t table)).alone c t table
  | .insert value k, table =>
      (insertRow c t value table).bind fun x => (k x.1).alone c t x.2
  | .update id version value k, table =>
      (updateRow t id version value table).bind fun x =>
        (k x.1).alone c t x.2
  | .commit k, table => k.alone c t (table.map (·.commit t))
  | .rollback k, table => k.alone c t (table.map (·.rollback t))

end Sql

-- ============================================================== server

/-- A connection: the job it was opened for, and what is left of it;
`none` once it has returned or was cut off. -/
structure Connection (ι ρ ε α : Type) where
  job : ι
  left : Option (Sql ρ ε α)

/-- What a connection returned. -/
structure Answer (ι ε α : Type) where
  connection : Nat
  job : ι
  result : Except ε α

/-- The table, the connections in the order they were opened, and what
has been returned, in order. -/
structure Server (ι ρ ε α : Type) where
  table : List (Slot ρ)
  connections : List (Connection ι ρ ε α)
  answers : List (Answer ι ε α)

namespace Server

/-- What may happen next. -/
inductive Event (ι : Type)
  | start (job : ι)
  | acts (connection : Nat)
  | cutOff (connection : Nat)

/-- A server nobody is connected to. -/
def idle (table : List (Slot ρ)) : Server ι ρ ε α := ⟨table, [], []⟩

/-- Connection `t` goes on with `prog`, or returns. A connection that
ends gives up its locks. -/
def proceed (s : Server ι ρ ε α) (t : Nat) (job : ι) (prog : Sql ρ ε α)
    (table : List (Slot ρ)) : Server ι ρ ε α :=
  match prog with
  | .done r =>
      { table := table.map (·.rollback t)
        connections := s.connections.set t ⟨job, none⟩
        answers := s.answers ++ [⟨t, job, r⟩] }
  | prog => { s with table
                     connections := s.connections.set t ⟨job, some prog⟩ }

variable (c : Constraints ρ) (script : ι → Sql ρ ε α)

/-- One event. A connection that is not there, or waits, does nothing. -/
def step (s : Server ι ρ ε α) : Event ι → Server ι ρ ε α
  | .start job =>
      proceed { s with connections := s.connections ++ [⟨job, none⟩] }
        s.connections.length job (script job) s.table
  | .acts t =>
      match s.connections[t]? with
      | some ⟨job, some prog⟩ =>
          match prog.step c t s.table with
          | some (prog', table) => s.proceed t job prog' table
          | none => s
      | _ => s
  | .cutOff t =>
      match s.connections[t]? with
      | some ⟨job, some _⟩ =>
          { s with table := s.table.map (·.rollback t)
                   connections := s.connections.set t ⟨job, none⟩ }
      | _ => s

/-- A run: events, one after the other. -/
def run (s : Server ι ρ ε α) (es : List (Event ι)) : Server ι ρ ε α :=
  es.foldl (step c script) s

/-- Connection `t` has `prog` left of its job. -/
def Runs (s : Server ι ρ ε α) (t : Nat) (job : ι) (prog : Sql ρ ε α) :
    Prop :=
  s.connections[t]? = some ⟨job, some prog⟩

variable {c script} {s : Server ι ρ ε α} {t u : Nat} {job job' : ι}
  {prog prog' : Sql ρ ε α} {table : List (Slot ρ)}

theorem run_snoc (es : List (Event ι)) (e : Event ι) :
    run c script s (es ++ [e]) = step c script (run c script s es) e := by
  unfold run
  rw [List.foldl_append]
  rfl

/-- What an act leaves: nothing new while it waits, and what the
connection goes on with once it does not. -/
theorem step_acts (h : s.Runs t job prog) :
    step c script s (.acts t) = match prog.step c t s.table with
      | some (prog', table) => s.proceed t job prog' table
      | none => s := by
  unfold step
  dsimp only
  rw [show s.connections[t]? = _ from h]

/-- Only what runs acts. -/
theorem step_acts_gone (h : ∀ job prog, ¬ s.Runs t job prog) :
    step c script s (.acts t) = s := by
  unfold step
  dsimp only
  split
  · rename_i job prog hrun
    exact absurd hrun (h job prog)
  · rfl

theorem step_cutOff (h : s.Runs t job prog) :
    step c script s (.cutOff t)
      = { s with table := s.table.map (·.rollback t)
                 connections := s.connections.set t ⟨job, none⟩ } := by
  unfold step
  dsimp only
  rw [show s.connections[t]? = _ from h]

theorem step_cutOff_gone (h : ∀ job prog, ¬ s.Runs t job prog) :
    step c script s (.cutOff t) = s := by
  unfold step
  dsimp only
  split
  · rename_i job prog hrun
    exact absurd hrun (h job prog)
  · rfl

/-- A connection goes on. -/
theorem proceed_open (h : ∀ r, prog ≠ .done r) :
    s.proceed t job prog table
      = { s with table
                 connections := s.connections.set t ⟨job, some prog⟩ } := by
  cases prog with
  | done r => exact absurd rfl (h r)
  | _ => rfl

/-- A connection returns. -/
theorem proceed_done (r : Except ε α) :
    s.proceed t job (.done r) table
      = { table := table.map (·.rollback t)
          connections := s.connections.set t ⟨job, none⟩
          answers := s.answers ++ [⟨t, job, r⟩] } := rfl

theorem runs_proceed_self (ht : t < s.connections.length) :
    (s.proceed t job prog table).Runs t job' prog'
      ↔ job = job' ∧ prog = prog' ∧ ∀ r, prog ≠ .done r := by
  unfold Runs
  cases prog with
  | done r => simp [proceed_done, ht]
  | _ => simp [proceed, ht]

theorem runs_lt (h : s.Runs t job prog) : t < s.connections.length :=
  (List.getElem?_eq_some_iff.1 h).1

theorem runs_proceed_other (hu : u ≠ t) :
    (s.proceed t job prog table).Runs u job' prog'
      ↔ s.Runs u job' prog' := by
  unfold Runs
  cases prog with
  | _ => simp [proceed, List.getElem?_set_ne (Ne.symm hu)]

/-- Connections are opened, and never forgotten. -/
theorem connections_step (e : Event ι) :
    s.connections.length ≤ (step c script s e).connections.length := by
  cases e with
  | start job =>
      unfold step
      dsimp only
      cases script job with
      | _ => simp [proceed]
  | acts t =>
      unfold step
      dsimp only
      split
      · split
        · rename_i prog' table _
          cases prog' with
          | _ => simp [proceed]
        · exact Nat.le_refl _
      · exact Nat.le_refl _
  | cutOff t =>
      unfold step
      dsimp only
      split
      · simp
      · exact Nat.le_refl _

/-- What was answered stays answered. -/
theorem answers_step (e : Event ι) :
    s.answers <+: (step c script s e).answers := by
  cases e with
  | start job =>
      unfold step
      dsimp only
      cases script job with
      | done r => exact List.prefix_append _ _
      | _ => exact List.prefix_refl _
  | acts t =>
      unfold step
      dsimp only
      split
      · split
        · rename_i prog' table _
          cases prog' with
          | done r => exact List.prefix_append _ _
          | _ => exact List.prefix_refl _
        · exact List.prefix_refl _
      · exact List.prefix_refl _
  | cutOff t =>
      unfold step
      dsimp only
      split <;> exact List.prefix_refl _

theorem answers_run (es : List (Event ι)) :
    s.answers <+: (run c script s es).answers := by
  induction es generalizing s with
  | nil => exact List.prefix_refl _
  | cons e es ih => exact (answers_step e).trans ih

theorem run_append (es es' : List (Event ι)) :
    run c script s (es ++ es')
      = run c script (run c script s es) es' := List.foldl_append

/-- A start opens one connection. -/
theorem connections_start (job : ι) :
    (step c script s (.start job)).connections.length
      = s.connections.length + 1 := by
  unfold step
  dsimp only
  cases script job with
  | _ => simp [proceed]

end Server

end Basis
