/-
The body of a transaction that uses savepoints, at READ COMMITTED.

# The statements

`Txn` is what a connection does between its BEGIN and its COMMIT: SELECT,
INSERT, UPDATE under an optimistic version, SAVEPOINT, RELEASE, ROLLBACK
TO. A statement the server refuses leaves the transaction failed, and
everything in a failed transaction is refused until it goes back to a
savepoint. Rows, locks and visibility are those of `Basis.Sql`.

# What one statement does

`Performed` is the one inversion of a statement (`performed_of_exec`): every
invariant of a transaction is read off it. What a savepoint remembers is
covered by what the transaction has written since (`Stacked`), so going
back to it gives exactly the writes it remembers (`writeOf_restore`).
-/
import AlgoPlatform.Basis.Sql

namespace Basis

variable {ρ ε α β κ : Type}

-- ========================================================== statements

/-- Why the server refuses a statement. -/
inductive Refusal
  | constraint
  | failed
  deriving DecidableEq

/-- The statements of a transaction. An update sets columns of the row
under a key, where the row has the version. -/
inductive Statement (ρ : Type)
  | select
  | insert (value : ρ)
  | update (id version : Nat) (change : ρ → ρ)
  | savepoint
  | release
  | rollbackTo

/-- What a statement answers: the visible rows, the new key, whether a row
matched. -/
def Statement.Reply : Statement ρ → Type
  | .select => List (Nat × Versioned ρ)
  | .insert _ => Nat
  | .update .. => Bool
  | .savepoint | .release | .rollbackTo => Unit

/-- What is left of a transaction: it is done, or makes a statement. -/
inductive Txn (ρ ε α : Type)
  | done (r : Except ε α)
  | call (stmt : Statement ρ) (k : Except Refusal stmt.Reply → Txn ρ ε α)

namespace Txn

/-- Sequencing: an exception of the first part skips the second. -/
def bind : Txn ρ ε α → (α → Txn ρ ε β) → Txn ρ ε β
  | .done (.ok a), q => q a
  | .done (.error e), _ => .done (.error e)
  | .call stmt k, q => .call stmt fun r => (k r).bind q

/-- Exception handling. -/
def tryCatch : Txn ρ ε α → (ε → Txn ρ ε α) → Txn ρ ε α
  | .done (.ok a), _ => .done (.ok a)
  | .done (.error e), h => h e
  | .call stmt k, h => .call stmt fun r => (k r).tryCatch h

instance : Monad (Txn ρ ε) where
  pure a := .done (.ok a)
  bind := bind

instance : MonadExceptOf ε (Txn ρ ε) where
  throw e := .done (.error e)
  tryCatch := tryCatch

end Txn

-- ============================================================= backend

/-- What the server keeps of a transaction: whether a statement was
refused, and at each open savepoint, innermost first, what the
transaction had written. -/
structure Backend (ρ : Type) where
  failed : Bool
  saves : List (Nat → Option (Versioned ρ))

/-- A transaction that has just begun. -/
def Backend.fresh : Backend ρ := ⟨false, []⟩

/-- Give connection `t` the writes a savepoint remembers. -/
def restore (t : Nat) (snap : Nat → Option (Versioned ρ))
    (table : List (Slot ρ)) : List (Slot ρ) :=
  table.mapIdx fun i s => match s.pending with
    | some (u, _) =>
        if u = t then ⟨s.committed, (snap i).map (t, ·)⟩ else s
    | none => s

/-- A row breaks a constraint: CHECK, FOREIGN KEY, or UNIQUE against a row
other than `self` that connection `t` sees. -/
def Breaks (c : Constraints ρ) (t : Nat) (self : Nat) (value : ρ)
    (table : List (Slot ρ)) : Prop :=
  ¬ c.Admits value
    ∨ ∃ x ∈ selectAll t table, x.1 ≠ self ∧ c.Clash value x.2.value

instance (c : Constraints ρ) (t self : Nat) (value : ρ)
    (table : List (Slot ρ)) : Decidable (Breaks c t self value table) := by
  unfold Breaks
  infer_instance

/-- An uncommitted row other than `self` may clash with the value. -/
def Contends (c : Constraints ρ) (self : Nat) (value : ρ)
    (table : List (Slot ρ)) : Prop :=
  ∃ x ∈ table.zipIdx, x.2 ≠ self ∧ ∃ w ∈ x.1.pending, c.Clash value w.2.value

instance (c : Constraints ρ) (self : Nat) (value : ρ)
    (table : List (Slot ρ)) : Decidable (Contends c self value table) := by
  unfold Contends
  infer_instance

namespace Statement

/-- A statement of a transaction that has not failed: `none` while it
waits. -/
def perform (c : Constraints ρ) (t : Nat) (b : Backend ρ)
    (table : List (Slot ρ)) : (stmt : Statement ρ) →
    Option (Except Refusal stmt.Reply × Backend ρ × List (Slot ρ))
  | .select => some (.ok (selectAll t table), b, table)
  | .insert value =>
      (insertRow c t value table).map fun
        | (some id, table') => (.ok id, b, table')
        | (none, table') => (.error .constraint, ⟨true, b.saves⟩, table')
  | .update id version change =>
      match (table[id]?).bind (·.seenBy t) with
      | none => some (.ok false, b, table)
      | some v =>
          if Breaks c t id (change v.value) table then
            some (.error .constraint, ⟨true, b.saves⟩, table)
          else if Contends c id (change v.value) table then none
          else (updateRow t id version (change v.value) table).map fun x =>
            (.ok x.1, b, x.2)
  | .savepoint => some (.ok (), ⟨b.failed, writeOf t table :: b.saves⟩, table)
  | .release =>
      match b.saves with
      | [] => some (.error .failed, ⟨true, []⟩, table)
      | _ :: saves => some (.ok (), ⟨b.failed, saves⟩, table)
  | .rollbackTo =>
      match b.saves with
      | [] => some (.error .failed, ⟨true, []⟩, table)
      | snap :: saves => some (.ok (), ⟨false, saves⟩, restore t snap table)

theorem perform_update (c : Constraints ρ) (t : Nat) (b : Backend ρ)
    (table : List (Slot ρ)) (id version : Nat) (change : ρ → ρ) :
    perform c t b table (.update id version change)
      = match (table[id]?).bind (·.seenBy t) with
        | none => some (.ok false, b, table)
        | some v =>
            if Breaks c t id (change v.value) table then
              some (.error .constraint, ⟨true, b.saves⟩, table)
            else if Contends c id (change v.value) table then none
            else (updateRow t id version (change v.value) table).map fun x =>
              (.ok x.1, b, x.2) := rfl

/-- A statement of connection `t`: a failed transaction is refused all but
ROLLBACK TO. -/
def exec (c : Constraints ρ) (t : Nat) (b : Backend ρ)
    (table : List (Slot ρ)) (stmt : Statement ρ) :
    Option (Except Refusal stmt.Reply × Backend ρ × List (Slot ρ)) :=
  match stmt with
  | .rollbackTo => perform c t b table .rollbackTo
  | stmt =>
      if b.failed then some (.error .failed, b, table)
      else stmt.perform c t b table

end Statement

-- ============================================================ snapshots

/-- A write that took the place of another: the same, or of the same kind
and a later version. -/
structure Supersedes (kind : ρ → κ) (w' w : Versioned ρ) : Prop where
  kind : kind w'.value = kind w.value
  version : w' = w ∨ w.version < w'.version

/-- Every write of `old` is in `new`, or one that took its place. -/
def Covers (kind : ρ → κ) (new old : Nat → Option (Versioned ρ)) : Prop :=
  ∀ i w, old i = some w → ∃ w', new i = some w' ∧ Supersedes kind w' w

variable {kind : ρ → κ}

theorem Supersedes.refl (w : Versioned ρ) : Supersedes kind w w :=
  ⟨rfl, .inl rfl⟩

theorem Supersedes.trans {w w' w'' : Versioned ρ}
    (h' : Supersedes kind w'' w') (h : Supersedes kind w' w) :
    Supersedes kind w'' w := by
  refine ⟨h'.kind.trans h.kind, ?_⟩
  rcases h'.version with rfl | hlt
  · exact h.version
  · rcases h.version with rfl | hlt'
    · exact .inr hlt
    · exact .inr (Nat.lt_trans hlt' hlt)

namespace Covers

variable {f g h : Nat → Option (Versioned ρ)}

theorem refl (f : Nat → Option (Versioned ρ)) : Covers kind f f :=
  fun _ w hw => ⟨w, hw, .refl w⟩

theorem trans (hfg : Covers kind f g) (hgh : Covers kind g h) :
    Covers kind f h := by
  intro i w hw
  obtain ⟨w', hw', hlater⟩ := hgh i w hw
  obtain ⟨w'', hw'', hlater'⟩ := hfg i w' hw'
  exact ⟨w'', hw'', hlater'.trans hlater⟩

/-- Nothing written is covered by anything. -/
theorem nothing (f : Nat → Option (Versioned ρ)) :
    Covers kind f fun _ => none := nofun

end Covers

/-- Each snapshot of the list is covered by those before it. -/
abbrev Stacked (kind : ρ → κ) (snaps : List (Nat → Option (Versioned ρ))) :
    Prop :=
  snaps.Pairwise (Covers kind)

/-- A newer top covers what the old one covered. -/
theorem Stacked.push {f g : Nat → Option (Versioned ρ)}
    {snaps : List (Nat → Option (Versioned ρ))} (hfg : Covers kind f g)
    (h : Stacked kind (g :: snaps)) : Stacked kind (f :: g :: snaps) := by
  refine List.Pairwise.cons (fun x hx => ?_) h
  rcases List.mem_cons.1 hx with rfl | hx
  · exact hfg
  · exact hfg.trans ((List.pairwise_cons.1 h).1 x hx)

/-- The second from the top can be dropped. -/
theorem Stacked.drop {f g : Nat → Option (Versioned ρ)}
    {snaps : List (Nat → Option (Versioned ρ))}
    (h : Stacked kind (f :: g :: snaps)) : Stacked kind (f :: snaps) :=
  h.sublist ((List.sublist_cons_self g snaps).cons_cons f)

theorem Stacked.replace {f g : Nat → Option (Versioned ρ)}
    {snaps : List (Nat → Option (Versioned ρ))} (hfg : Covers kind f g)
    (h : Stacked kind (g :: snaps)) : Stacked kind (f :: snaps) :=
  (h.push hfg).drop

theorem Stacked.top {f g : Nat → Option (Versioned ρ)}
    {snaps : List (Nat → Option (Versioned ρ))}
    (h : Stacked kind (f :: snaps)) (hg : g ∈ snaps) : Covers kind f g :=
  (List.pairwise_cons.1 h).1 g hg

-- ============================================================== effects

section Effects

variable {c : Constraints ρ} {t i : Nat} {b b' : Backend ρ}
  {table table' : List (Slot ρ)} {snap : Nat → Option (Versioned ρ)}

theorem rowAt_restore : rowAt (restore t snap table) i = rowAt table i := by
  unfold rowAt restore
  rw [List.getElem?_mapIdx]
  cases table[i]? with
  | none => rfl
  | some s =>
      obtain ⟨_, _ | ⟨u, v⟩⟩ := s
      · rfl
      · by_cases hu : u = t <;> simp [hu]

/-- The others keep their writes. -/
theorem writeOf_restore_other {u : Nat} (hu : u ≠ t) :
    writeOf u (restore t snap table) i = writeOf u table i := by
  unfold writeOf restore
  rw [List.getElem?_mapIdx]
  cases table[i]? with
  | none => rfl
  | some s =>
      obtain ⟨_, _ | ⟨x, v⟩⟩ := s
      · rfl
      · by_cases hx : x = t
        · subst hx
          cases snap i <;> simp [Ne.symm hu]
        · simp [hx]

/-- A savepoint the writes cover is restored exactly. -/
theorem writeOf_restore (h : Covers kind (writeOf t table) snap) :
    writeOf t (restore t snap table) = snap := by
  funext i
  cases hsnap : snap i with
  | some w =>
      obtain ⟨w', hw', -⟩ := h i w hsnap
      unfold writeOf restore at *
      rw [List.getElem?_mapIdx]
      cases hs : table[i]? with
      | none =>
          rw [hs] at hw'
          cases hw'
      | some s =>
          rw [hs] at hw'
          obtain ⟨_, _ | ⟨u, v⟩⟩ := s
          · cases hw'
          · by_cases hu : u = t
            · simp [hu, hsnap]
            · simp [hu] at hw'
  | none =>
      unfold writeOf restore
      rw [List.getElem?_mapIdx]
      cases hs : table[i]? with
      | none => rfl
      | some s =>
          obtain ⟨_, _ | ⟨u, v⟩⟩ := s
          · rfl
          · by_cases hu : u = t <;> simp [hu, hsnap]

@[simp] theorem writeOf_length (t : Nat) (table : List (Slot ρ)) :
    writeOf t table table.length = none := by
  unfold writeOf
  rw [List.getElem?_eq_none (Nat.le_refl _)]
  rfl

@[simp] theorem rowAt_length (table : List (Slot ρ)) :
    rowAt table table.length = none := by
  unfold rowAt
  rw [List.getElem?_eq_none (Nat.le_refl _)]
  rfl

theorem Quiet.writeOf (h : Quiet table) (t i : Nat) :
    writeOf t table i = none := by
  unfold Basis.writeOf
  cases hs : table[i]? with
  | none => rfl
  | some s =>
      rw [Option.bind_some, h s (List.mem_of_getElem? hs)]
      rfl

/-- A connection sees its own write, or else the committed row. -/
private theorem seenBy_eq (s : Slot ρ) :
    s.seenBy t = (s.pending.bind fun (u, v) =>
      if u = t then some v else none).or s.committed := by
  obtain ⟨_, _ | ⟨u, w⟩⟩ := s
  · rfl
  · by_cases hu : u = t <;> simp [Slot.seenBy, hu]

theorem mem_selectAll_iff {v : Versioned ρ} :
    (i, v) ∈ selectAll t table
      ↔ (writeOf t table i).or (rowAt table i) = some v := by
  rw [mem_selectAll]
  unfold writeOf rowAt
  cases table[i]? with
  | none => simp
  | some s =>
      simp only [Option.some.injEq, exists_eq_left', Option.bind_some,
        seenBy_eq]

/-- Why a statement is refused. -/
def Statement.Refused (c : Constraints ρ) (t : Nat) (b : Backend ρ)
    (table : List (Slot ρ)) (e : Refusal) : Statement ρ → Prop
  | .insert value => b.failed = true
      ∨ e = .constraint ∧ (¬ c.Admits value
        ∨ ∃ x ∈ selectAll t table, c.Clash value x.2.value)
  | .update .. => True
  | .release => b.failed = true ∨ b.saves = []
  | .rollbackTo => b.saves = []
  | .select | .savepoint => b.failed = true

/-- What a statement that does not wait does. -/
inductive Performed (c : Constraints ρ) (t : Nat) (b : Backend ρ)
    (table : List (Slot ρ)) : (stmt : Statement ρ) →
    Except Refusal stmt.Reply → Backend ρ → List (Slot ρ) → Prop
  | refused (stmt : Statement ρ) (e : Refusal)
      (why : stmt.Refused c t b table e) :
      Performed c t b table stmt (.error e) ⟨true, b.saves⟩ table
  | selected (healthy : b.failed = false) :
      Performed c t b table .select (.ok (selectAll t table)) b table
  | inserted (value : ρ) (table' : List (Slot ρ))
      (healthy : b.failed = false)
      (free : ∀ u i w, writeOf u table i = some w → ¬ c.Clash value w.value)
      (unseen : ∀ x ∈ selectAll t table, ¬ c.Clash value x.2.value)
      (rows : ∀ i, rowAt table' i = rowAt table i)
      (writes : ∀ u i, writeOf u table' i
        = if u = t ∧ i = table.length then some ⟨value, 1⟩
          else writeOf u table i) :
      Performed c t b table (.insert value) (.ok table.length) b table'
  | missed (id version : Nat) (change : ρ → ρ) :
      Performed c t b table (.update id version change) (.ok false) b table
  | updated (id : Nat) (change : ρ → ρ) (v : Versioned ρ)
      (table' : List (Slot ρ))
      (seen : (writeOf t table id).or (rowAt table id) = some v)
      (unlocked : ∀ u, u ≠ t → writeOf u table id = none)
      (rows : ∀ i, rowAt table' i = rowAt table i)
      (writes : ∀ u i, writeOf u table' i
        = if u = t ∧ i = id then some ⟨change v.value, v.version + 1⟩
          else writeOf u table i) :
      Performed c t b table (.update id v.version change) (.ok true) b table'
  | saved (healthy : b.failed = false) :
      Performed c t b table .savepoint (.ok ())
        ⟨false, writeOf t table :: b.saves⟩ table
  | released (snap : Nat → Option (Versioned ρ))
      (saves : List (Nat → Option (Versioned ρ)))
      (healthy : b.failed = false) (top : b.saves = snap :: saves) :
      Performed c t b table .release (.ok ()) ⟨false, saves⟩ table
  | restored (snap : Nat → Option (Versioned ρ))
      (saves : List (Nat → Option (Versioned ρ)))
      (top : b.saves = snap :: saves) :
      Performed c t b table .rollbackTo (.ok ()) ⟨false, saves⟩
        (restore t snap table)

/-- An INSERT is refused for the row alone, or for a row seen. -/
theorem insertRow_refused {value : ρ}
    (h : insertRow c t value table = some (none, table')) :
    ¬ c.Admits value ∨ ∃ x ∈ selectAll t table, c.Clash value x.2.value := by
  unfold insertRow at h
  split_ifs at h with hrefused
  · refine hrefused.imp_right fun ⟨s, hs, v, hv, hclash⟩ => ?_
    obtain ⟨i, hi⟩ := List.mem_iff_getElem?.1 hs
    exact ⟨(i, v), mem_selectAll.2 ⟨s, hi, hv⟩, hclash⟩
  · cases h

private theorem effect_of_insert {value : ρ}
    {r : Except Refusal (Statement.insert value).Reply}
    (healthy : b.failed = false)
    (h : Statement.perform c t b table (.insert value)
      = some (r, b', table')) :
    Performed c t b table (.insert value) r b' table' := by
  unfold Statement.perform at h
  obtain ⟨⟨o, table₁⟩, hinsert, heq⟩ := Option.map_eq_some_iff.1 h
  have hcases := insertRow_cases hinsert
  cases o with
  | none =>
      obtain ⟨-, rfl⟩ | ⟨hsome, -⟩ := hcases
      · cases heq
        exact .refused _ _ (.inr ⟨rfl, insertRow_refused hinsert⟩)
      · cases hsome
  | some id =>
      obtain ⟨hnone, -⟩ | ⟨hsome, hrows, hwrites⟩ := hcases
      · cases hnone
      · cases hsome
        cases heq
        obtain ⟨hfree, hunseen⟩ := insertRow_unclashed hinsert
        exact .inserted value _ healthy hfree hunseen hrows hwrites

private theorem effect_of_update {id version : Nat} {change : ρ → ρ}
    {r : Except Refusal (Statement.update id version change).Reply}
    (h : Statement.perform c t b table (.update id version change)
      = some (r, b', table')) :
    Performed c t b table (.update id version change) r b' table' := by
  rw [Statement.perform_update] at h
  split at h
  · cases h
    exact .missed ..
  · rename_i v hseen
    split_ifs at h
    · cases h
      exact .refused _ _ trivial
    · obtain ⟨⟨ok, table₁⟩, hupdate, heq⟩ := Option.map_eq_some_iff.1 h
      cases heq
      obtain ⟨rfl, rfl⟩ | ⟨rfl, ⟨v', hv', rfl⟩, hunlocked, hrows, hwrites⟩ :=
        updateRow_cases hupdate
      · exact .missed ..
      · -- the row the version is compared with is the row that is changed
        have hsame : v' = v := by
          obtain ⟨s, hs, hsv⟩ := Option.bind_eq_some_iff.1 hseen
          unfold writeOf rowAt at hv'
          rw [hs] at hv'
          unfold Slot.seenBy at hsv
          obtain ⟨_, _ | ⟨u, w⟩⟩ := s
          · exact Option.some.inj (hv'.symm.trans hsv)
          · by_cases hu : u = t
            · simp only [hu, if_true] at hsv
              simp [hu, hsv] at hv'
              exact hv'.symm
            · simp only [hu, if_false] at hsv
              simp [hu, hsv] at hv'
              exact hv'.symm
        subst hsame
        exact .updated id change v' _ hv' hunlocked hrows hwrites

/-- What a statement does, by cases. -/
theorem performed_of_exec {stmt : Statement ρ}
    {r : Except Refusal stmt.Reply}
    (h : stmt.exec c t b table = some (r, b', table')) :
    Performed c t b table stmt r b' table' := by
  obtain ⟨failed, saves⟩ := b
  cases stmt with
  | rollbackTo =>
      unfold Statement.exec Statement.perform at h
      cases saves with
      | nil =>
          cases h
          exact .refused _ _ rfl
      | cons snap saves =>
          cases h
          exact .restored snap saves rfl
  | select =>
      cases failed with
      | true =>
          cases h
          exact .refused _ _ rfl
      | false =>
          cases h
          exact .selected rfl
  | insert value =>
      cases failed with
      | true =>
          cases h
          exact .refused _ _ (.inl rfl)
      | false => exact effect_of_insert rfl h
  | update id version change =>
      cases failed with
      | true =>
          cases h
          exact .refused _ _ trivial
      | false => exact effect_of_update h
  | savepoint =>
      cases failed with
      | true =>
          cases h
          exact .refused _ _ rfl
      | false =>
          cases h
          exact .saved rfl
  | release =>
      cases failed with
      | true =>
          cases h
          exact .refused _ _ (.inl rfl)
      | false =>
          cases saves with
          | nil =>
              cases h
              exact .refused _ _ (.inr rfl)
          | cons snap saves =>
              cases h
              exact .released snap saves rfl rfl

-- ============================================== what a statement keeps

namespace Statement

/-- No row changes its kind. -/
def Steady (kind : ρ → κ) : Statement ρ → Prop
  | .update _ _ change => ∀ r, kind (change r) = kind r
  | _ => True

/-- No row of kind `k` is inserted. -/
def Avoids (kind : ρ → κ) (k : κ) : Statement ρ → Prop
  | .insert value => kind value ≠ k
  | _ => True

/-- The statement closes a savepoint. -/
def Pops : Statement ρ → Prop
  | .release | .rollbackTo => True
  | _ => False

/-- How many of `n` savepoints are open after the statement. -/
def depth (n : Nat) : (stmt : Statement ρ) → Except Refusal stmt.Reply → Nat
  | .savepoint, .ok _ => n + 1
  | .release, .ok _ | .rollbackTo, .ok _ => n - 1
  | _, _ => n

end Statement

/-- Every write is of the kind of the committed row it is on. -/
def Uniform (kind : ρ → κ) (table : List (Slot ρ)) : Prop :=
  ∀ i u v w, rowAt table i = some v → writeOf u table i = some w →
    kind w.value = kind v.value

/-- A row that is committed or written is of kind `k`. -/
def HasKind (kind : ρ → κ) (k : κ) (table : List (Slot ρ)) (i : Nat) : Prop :=
  (∃ v, rowAt table i = some v ∧ kind v.value = k)
    ∨ ∃ u v, writeOf u table i = some v ∧ kind v.value = k

namespace Performed

variable {stmt : Statement ρ} {r : Except Refusal stmt.Reply} {k : κ}

/-- No statement commits. -/
theorem rows (h : Performed c t b table stmt r b' table') (i : Nat) :
    rowAt table' i = rowAt table i := by
  cases h with
  | inserted _ _ _ _ _ rows _ => exact rows i
  | updated _ _ _ _ _ _ rows => exact rows i
  | restored => exact rowAt_restore
  | _ => rfl

/-- The others keep their writes. -/
theorem others (h : Performed c t b table stmt r b' table') {u : Nat}
    (hu : u ≠ t) (i : Nat) : writeOf u table' i = writeOf u table i := by
  cases h with
  | inserted _ _ _ _ _ _ writes =>
      rw [writes, if_neg fun h => hu h.1]
  | updated _ _ _ _ _ _ _ writes =>
      rw [writes, if_neg fun h => hu h.1]
  | restored => exact writeOf_restore_other hu
  | _ => rfl

/-- Writes are only added to, or superseded. -/
private theorem covers_inserted {value : ρ}
    (writes : ∀ i, writeOf t table' i
      = if i = table.length then some ⟨value, 1⟩ else writeOf t table i) :
    Covers kind (writeOf t table') (writeOf t table) := by
  intro i w hw
  refine ⟨w, ?_, .refl w⟩
  rw [writes i, if_neg, hw]
  intro hi
  rw [hi, writeOf_length] at hw
  cases hw

private theorem covers_updated {id : Nat} {change : ρ → ρ} {v : Versioned ρ}
    (hkind : kind (change v.value) = kind v.value)
    (seen : (writeOf t table id).or (rowAt table id) = some v)
    (writes : ∀ i, writeOf t table' i
      = if i = id then some ⟨change v.value, v.version + 1⟩
        else writeOf t table i) :
    Covers kind (writeOf t table') (writeOf t table) := by
  intro i w hw
  rw [writes i]
  by_cases hi : i = id
  · rw [if_pos hi]
    rw [hi] at hw
    rw [hw] at seen
    cases seen
    exact ⟨_, rfl, hkind, .inr (Nat.lt_succ_self _)⟩
  · rw [if_neg hi]
    exact ⟨w, hw, .refl w⟩

/-- What the open savepoints remember stays covered by what the
transaction has written. -/
theorem stacked {own below tail : List (Nat → Option (Versioned ρ))}
    (h : Performed c t b table stmt r b' table') (hsteady : stmt.Steady kind)
    (hsaves : b.saves = own ++ below)
    (hpops : own = [] → stmt.Pops → below = [])
    (hstack : Stacked kind (writeOf t table :: (own ++ tail))) :
    ∃ own', b'.saves = own' ++ below ∧ own'.length = stmt.depth own.length r
      ∧ Stacked kind (writeOf t table' :: (own' ++ tail)) := by
  cases h with
  | refused e why =>
      refine ⟨own, hsaves, ?_, hstack⟩
      cases stmt <;> rfl
  | selected => exact ⟨own, hsaves, rfl, hstack⟩
  | missed => exact ⟨own, hsaves, rfl, hstack⟩
  | inserted value _ _ _ _ _ writes =>
      have hwrites : ∀ i, writeOf t table' i
          = if i = table.length then some ⟨value, 1⟩
            else writeOf t table i := by
        intro i
        rw [writes]
        simp only [true_and]
      exact ⟨own, hsaves, rfl, hstack.replace (covers_inserted hwrites)⟩
  | updated id change v _ seen _ _ writes =>
      refine ⟨own, hsaves, rfl, hstack.replace (covers_updated
        (hsteady v.value) seen fun i => ?_)⟩
      rw [writes]
      simp only [true_and]
  | saved =>
      refine ⟨writeOf t table :: own, ?_, rfl, hstack.push (.refl _)⟩
      rw [List.cons_append, ← hsaves]
  | released snap saves _ top =>
      cases own with
      | nil =>
          rw [hsaves, hpops rfl trivial] at top
          cases top
      | cons f own =>
          obtain ⟨-, heq⟩ := List.cons.inj (top.symm.trans hsaves)
          exact ⟨own, heq, rfl, hstack.drop⟩
  | restored snap saves top =>
      cases own with
      | nil =>
          rw [hsaves, hpops rfl trivial] at top
          cases top
      | cons f own =>
          obtain ⟨rfl, heq⟩ := List.cons.inj (top.symm.trans hsaves)
          refine ⟨own, heq, rfl, ?_⟩
          rw [writeOf_restore (hstack.top List.mem_cons_self)]
          exact (List.pairwise_cons.1 hstack).2

theorem stacked_saves (h : Performed c t b table stmt r b' table')
    (hsteady : stmt.Steady kind)
    (hstack : Stacked kind (writeOf t table :: b.saves)) :
    Stacked kind (writeOf t table' :: b'.saves) := by
  rw [← List.append_nil b.saves] at hstack
  obtain ⟨own, hsaves, -, hstack'⟩ := h.stacked hsteady
    (List.append_nil b.saves).symm (fun _ _ => rfl) hstack
  rw [List.append_nil] at hsaves hstack'
  exact hsaves ▸ hstack'

/-- A write on a committed row stays of its kind. -/
theorem uniform (h : Performed c t b table stmt r b' table')
    (hsteady : stmt.Steady kind)
    (hcovers : ∀ snap ∈ b.saves, Covers kind (writeOf t table) snap)
    (huniform : Uniform kind table) : Uniform kind table' := by
  intro i u v w hv hw
  rw [h.rows] at hv
  by_cases hu : u = t
  · subst hu
    cases h with
    | inserted value _ _ _ _ _ writes =>
        rw [writes] at hw
        by_cases hi : i = table.length
        · rw [hi, rowAt_length] at hv
          cases hv
        · rw [if_neg fun h => hi h.2] at hw
          exact huniform i u v w hv hw
    | updated id change x _ seen _ _ writes =>
        rw [writes] at hw
        by_cases hi : i = id
        · rw [if_pos ⟨rfl, hi⟩] at hw
          cases hw
          refine (hsteady x.value).trans ?_
          rw [← hi] at seen
          cases hown : writeOf u table i with
          | none =>
              rw [hown, hv] at seen
              cases seen
              rfl
          | some y =>
              rw [hown] at seen
              cases seen
              exact huniform i u v x hv hown
        · rw [if_neg fun h => hi h.2] at hw
          exact huniform i u v w hv hw
    | restored snap saves top =>
        have hsnap : snap ∈ b.saves := top ▸ List.mem_cons_self
        rw [writeOf_restore (hcovers snap hsnap)] at hw
        obtain ⟨w', hw', hlater⟩ := hcovers snap hsnap i w hw
        exact hlater.kind.symm.trans (huniform i u v w' hv hw')
    | _ => exact huniform i u v w hv hw
  · rw [h.others hu] at hw
    exact huniform i u v w hv hw

/-- A statement that inserts no row of a kind makes none. -/
theorem hasKind (h : Performed c t b table stmt r b' table')
    (hsteady : stmt.Steady kind) (havoids : stmt.Avoids kind k)
    (hcovers : ∀ snap ∈ b.saves, Covers kind (writeOf t table) snap)
    (hkind : HasKind kind k table' i) : HasKind kind k table i := by
  rcases hkind with ⟨v, hv, hk⟩ | ⟨u, v, hv, hk⟩
  · rw [h.rows] at hv
    exact .inl ⟨v, hv, hk⟩
  by_cases hu : u = t
  · subst hu
    cases h with
    | inserted value _ _ _ _ _ writes =>
        rw [writes] at hv
        by_cases hi : i = table.length
        · rw [if_pos ⟨rfl, hi⟩] at hv
          cases hv
          exact absurd hk havoids
        · rw [if_neg fun h => hi h.2] at hv
          exact .inr ⟨u, v, hv, hk⟩
    | updated id change x _ seen _ _ writes =>
        rw [writes] at hv
        by_cases hi : i = id
        · rw [if_pos ⟨rfl, hi⟩] at hv
          cases hv
          have hkx : kind x.value = k := (hsteady x.value).symm.trans hk
          rw [← hi] at seen
          rcases Option.or_eq_some_iff.1 seen with hown | ⟨-, hrow⟩
          · exact .inr ⟨u, x, hown, hkx⟩
          · exact .inl ⟨x, hrow, hkx⟩
        · rw [if_neg fun h => hi h.2] at hv
          exact .inr ⟨u, v, hv, hk⟩
    | restored snap saves top =>
        have hsnap : snap ∈ b.saves := top ▸ List.mem_cons_self
        rw [writeOf_restore (hcovers snap hsnap)] at hv
        obtain ⟨w, hw, hlater⟩ := hcovers snap hsnap i v hv
        exact .inr ⟨u, w, hw, hlater.kind.trans hk⟩
    | _ => exact .inr ⟨u, v, hv, hk⟩
  · rw [h.others hu] at hv
    exact .inr ⟨u, v, hv, hk⟩

end Performed

end Effects

end Basis
