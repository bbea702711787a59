/-
Optimistic locking: what a version column buys the transactions of
`Sql`.

Every connection keeps a copy of the row it looked up and writes over it
with `UPDATE … WHERE id AND version`. If each of them writes only values
its copy may grow into (`R`, a preorder the constraints cannot tell
apart), then so does the table: a committed row is only ever replaced by
a later version it grew into, and a copy whose version is still current
is the row.
-/
import AlgoPlatform.Basis.Sql

namespace Basis

variable {ρ : Type} {c : Constraints ρ} {R : ρ → ρ → Prop}
  {table table' : List (Slot ρ)} {t u i j : Nat} {v w : Versioned ρ}

-- =============================================== statement vocabulary

/-- How a row may grow: a preorder that decides no UNIQUE constraint. -/
structure Growth (c : Constraints ρ) (R : ρ → ρ → Prop) : Prop where
  refl : ∀ r, R r r
  trans : ∀ {r s q}, R r s → R s q → R r q
  symm : ∀ {r s}, c.Clash r s → c.Clash s r
  clash : ∀ {r s}, R r s → ∀ q, c.Clash r q ↔ c.Clash s q

/-- Somebody sees `v` as row `i`. -/
def Version (table : List (Slot ρ)) (i : Nat) (v : Versioned ρ) : Prop :=
  rowAt table i = some v ∨ ∃ t, writeOf t table i = some v

/-- What is written is newer than what it replaces and grew out of it,
and no two rows clash. -/
structure Orderly (c : Constraints ρ) (R : ρ → ρ → Prop)
    (table : List (Slot ρ)) : Prop where
  newer : ∀ {t i v w}, rowAt table i = some v → writeOf t table i = some w →
    v.version < w.version ∧ R v.value w.value
  unique : ∀ {i j v w}, Version table i v → Version table j w →
    c.Clash v.value w.value → i = j

/-- What a step of connection `t` is to the others: their writes stand,
and a committed row stays or is replaced by a later version. -/
structure Moves (R : ρ → ρ → Prop) (t : Nat) (table table' : List (Slot ρ)) :
    Prop where
  writes : ∀ u, u ≠ t → ∀ i, writeOf u table' i = writeOf u table i
  rows : ∀ {i v}, rowAt table i = some v → ∃ v', rowAt table' i = some v'
    ∧ R v.value v'.value ∧ (v' = v ∨ v.version < v'.version)

/-- Connection `t` holds `w` as its copy of row `i`: its own write, or
the committed row as it once was. -/
def Copy (R : ρ → ρ → Prop) (t : Nat) (table : List (Slot ρ)) (i : Nat)
    (w : Versioned ρ) : Prop :=
  writeOf t table i = some w
    ∨ writeOf t table i = none ∧ ∃ v, rowAt table i = some v
        ∧ R w.value v.value ∧ (w = v ∨ w.version < v.version)

/-- Connection `t` has written nothing. -/
def Unwritten (t : Nat) (table : List (Slot ρ)) : Prop :=
  ∀ i, writeOf t table i = none

-- ============================================================== copies

theorem Unwritten.moves (h : Unwritten u table) (hu : u ≠ t)
    (hmoves : Moves R t table table') : Unwritten u table' :=
  fun i => (hmoves.writes u hu i).trans (h i)

/-- What is read is a copy. -/
theorem copy_of_select (hgrowth : Growth c R) (hun : Unwritten t table)
    (h : (i, v) ∈ selectAll t table) : Copy R t table i v :=
  .inr ⟨hun i, v, (mem_selectAll_of_unwritten hun).1 h, hgrowth.refl _,
    .inl rfl⟩

/-- A copy stays a copy, whatever the others do. -/
theorem Copy.moves (h : Copy R u table i w) (hgrowth : Growth c R)
    (hu : u ≠ t) (hmoves : Moves R t table table') : Copy R u table' i w := by
  rcases h with hown | ⟨hnone, v, hrow, hgrown, hage⟩
  · exact .inl ((hmoves.writes u hu i).trans hown)
  · obtain ⟨v', hrow', hgrown', hage'⟩ := hmoves.rows hrow
    refine .inr ⟨(hmoves.writes u hu i).trans hnone, v', hrow',
      hgrowth.trans hgrown hgrown', ?_⟩
    rcases hage with rfl | hlt
    · exact hage'.imp_left Eq.symm
    · rcases hage' with rfl | hlt'
      · exact .inr hlt
      · exact .inr (Nat.lt_trans hlt hlt')

-- =============================================================== steps

/-- A step that commits nothing. -/
theorem Moves.of_rows (hgrowth : Growth c R)
    (hrows : ∀ i, rowAt table' i = rowAt table i)
    (hwrites : ∀ u, u ≠ t → ∀ i, writeOf u table' i = writeOf u table i) :
    Moves R t table table' :=
  ⟨hwrites, fun {i v} h => ⟨v, (hrows i).trans h, hgrowth.refl _, .inl rfl⟩⟩

theorem Moves.refl (hgrowth : Growth c R) : Moves R t table table :=
  .of_rows hgrowth (fun _ => rfl) fun _ _ _ => rfl

theorem Moves.trans {table'' : List (Slot ρ)} (hgrowth : Growth c R)
    (h : Moves R t table table') (h' : Moves R t table' table'') :
    Moves R t table table'' := by
  refine ⟨fun u hu i => (h'.writes u hu i).trans (h.writes u hu i),
    fun {i v} hrow => ?_⟩
  obtain ⟨v', hrow', hgrown, hage⟩ := h.rows hrow
  obtain ⟨v'', hrow'', hgrown', hage'⟩ := h'.rows hrow'
  refine ⟨v'', hrow'', hgrowth.trans hgrown hgrown', ?_⟩
  rcases hage with rfl | hlt
  · exact hage'
  · rcases hage' with rfl | hlt'
    · exact .inr hlt
    · exact .inr (Nat.lt_trans hlt hlt')

theorem Moves.rollback (hgrowth : Growth c R) :
    Moves R t table (table.map (·.rollback t)) := by
  refine .of_rows hgrowth (fun i => rowAt_rollback) fun u hu i => ?_
  rw [writeOf_rollback, if_neg hu]

theorem Orderly.moves_commit (h : Orderly c R table) (hgrowth : Growth c R) :
    Moves R t table (table.map (·.commit t)) := by
  refine ⟨fun u hu i => ?_, fun {i v} hrow => ?_⟩
  · rw [writeOf_commit, if_neg hu]
  · rw [rowAt_commit, hrow]
    cases hwrite : writeOf t table i with
    | none => exact ⟨v, rfl, hgrowth.refl _, .inl rfl⟩
    | some w =>
        obtain ⟨hnew, hgrown⟩ := h.newer hrow hwrite
        exact ⟨w, rfl, hgrown, .inr hnew⟩

theorem orderly_nil : Orderly c R [] where
  newer h _ := nomatch h
  unique
    | .inl h, _, _ => nomatch h
    | .inr ⟨_, h⟩, _, _ => nomatch h

/-- A table whose rows and writes were there before is orderly. -/
private theorem Orderly.of_versions (h : Orderly c R table)
    (hversions : ∀ i v, Version table' i v → Version table i v)
    (hnewer : ∀ {t i v w}, rowAt table' i = some v →
      writeOf t table' i = some w → v.version < w.version
        ∧ R v.value w.value) : Orderly c R table' :=
  ⟨hnewer, fun hv hw => h.unique (hversions _ _ hv) (hversions _ _ hw)⟩

theorem Orderly.commit (h : Orderly c R table) :
    Orderly c R (table.map (·.commit t)) := by
  refine h.of_versions (fun i v hv => ?_) fun {u i v w} hrow hwrite => ?_
  · rcases hv with hrow | ⟨u, hwrite⟩
    · rw [rowAt_commit] at hrow
      cases hown : writeOf t table i with
      | none =>
          rw [hown] at hrow
          exact .inl hrow
      | some w =>
          rw [hown] at hrow
          exact .inr ⟨t, hown.trans hrow⟩
    · rw [writeOf_commit] at hwrite
      split at hwrite
      · cases hwrite
      · exact .inr ⟨u, hwrite⟩
  · rw [writeOf_commit] at hwrite
    split at hwrite
    · cases hwrite
    · rename_i hu
      rw [rowAt_commit] at hrow
      cases hown : writeOf t table i with
      | none =>
          rw [hown] at hrow
          exact h.newer hrow hwrite
      | some x => exact absurd (writeOf_inj hwrite hown) hu

theorem Orderly.rollback (h : Orderly c R table) :
    Orderly c R (table.map (·.rollback t)) := by
  refine h.of_versions (fun i v hv => ?_) fun {u i v w} hrow hwrite => ?_
  · rcases hv with hrow | ⟨u, hwrite⟩
    · exact .inl (rowAt_rollback.symm.trans hrow)
    · rw [writeOf_rollback] at hwrite
      split at hwrite
      · cases hwrite
      · exact .inr ⟨u, hwrite⟩
  · rw [writeOf_rollback] at hwrite
    split at hwrite
    · cases hwrite
    · exact h.newer (rowAt_rollback.symm.trans hrow) hwrite

/-- An INSERT goes through where the row clashes with none. -/
private theorem insertRow_free {value : ρ} (hun : Unwritten t table)
    (hinsert : insertRow c t value table = some (some i, table'))
    (hv : Version table j v) : ¬ c.Clash value v.value := by
  obtain ⟨hpending, hseen⟩ := insertRow_unclashed hinsert
  rcases hv with hrow | ⟨u, hwrite⟩
  · exact hseen (j, v) ((mem_selectAll_of_unwritten hun).2 hrow)
  · exact hpending u j v hwrite

/-- What an INSERT that went through leaves. -/
theorem Orderly.insert {value : ρ} (h : Orderly c R table)
    (hgrowth : Growth c R) (hun : Unwritten t table)
    (hinsert : insertRow c t value table = some (some i, table')) :
    Orderly c R table' ∧ Moves R t table table'
      ∧ ∀ j, writeOf t table' j = if j = i then some ⟨value, 1⟩ else none := by
  rcases insertRow_cases hinsert with ⟨hr, _⟩ | ⟨hr, hrows, hwrites⟩
  · cases hr
  have hi : i = table.length := Option.some.inj hr
  subst hi
  have hother : ∀ u, u ≠ t → ∀ j, writeOf u table' j = writeOf u table j :=
    fun u hu j => (hwrites u j).trans (if_neg fun h => hu h.1)
  have hfree : ∀ j v, Version table j v → ¬ c.Clash value v.value :=
    fun j v hv => insertRow_free hun hinsert hv
  have hversions : ∀ j v, Version table' j v →
      Version table j v ∨ j = table.length ∧ v = ⟨value, 1⟩ := by
    intro j v hv
    rcases hv with hrow | ⟨u, hwrite⟩
    · exact .inl (.inl ((hrows j).symm.trans hrow))
    · rw [hwrites] at hwrite
      split at hwrite
      · rename_i hnew
        exact .inr ⟨hnew.2, (Option.some.inj hwrite).symm⟩
      · exact .inl (.inr ⟨u, hwrite⟩)
  refine ⟨⟨fun {u j v w} hrow hwrite => ?_, fun {j k v w} hv hw hclash => ?_⟩,
    .of_rows hgrowth hrows hother, fun j => ?_⟩
  · rw [hrows] at hrow
    rw [hwrites] at hwrite
    split at hwrite
    · rename_i hnew
      rw [hnew.2, rowAt, List.getElem?_eq_none (Nat.le_refl _)] at hrow
      cases hrow
    · exact h.newer hrow hwrite
  · rcases hversions j v hv with hv | ⟨rfl, rfl⟩
    · rcases hversions k w hw with hw | ⟨rfl, rfl⟩
      · exact h.unique hv hw hclash
      · exact absurd (hgrowth.symm hclash) (hfree j v hv)
    · rcases hversions k w hw with hw | ⟨rfl, rfl⟩
      · exact absurd hclash (hfree k w hw)
      · rfl
  · rw [hwrites, hun j]
    by_cases hj : j = table.length <;> simp [hj]

/-- What an UPDATE that matched its row leaves. -/
theorem Orderly.update {value : ρ} (h : Orderly c R table)
    (hgrowth : Growth c R) (hcopy : Copy R t table i w)
    (hgrown : R w.value value)
    (hupdate : updateRow t i w.version value table = some (true, table')) :
    Orderly c R table' ∧ Moves R t table table'
      ∧ ∀ j, writeOf t table' j
        = if j = i then some ⟨value, w.version + 1⟩
          else writeOf t table j := by
  rcases updateRow_cases hupdate with ⟨hr, _⟩ | ⟨_, hseen, hlock, hrows, hwrites⟩
  · cases hr
  have hother : ∀ u, u ≠ t → ∀ j, writeOf u table' j = writeOf u table j :=
    fun u hu j => (hwrites u j).trans (if_neg fun h => hu h.1)
  obtain ⟨x, hversion, hgrowth'⟩ :
      ∃ x, Version table i x ∧ R w.value x.value := by
    rcases hcopy with hown | ⟨_, v, hrow, hold, _⟩
    · exact ⟨w, .inr ⟨t, hown⟩, hgrowth.refl _⟩
    · exact ⟨v, .inl hrow, hold⟩
  -- the copy is what the table has, so what is written grew out of it
  have hcommitted : ∀ v, rowAt table i = some v →
      v.version < w.version + 1 ∧ R v.value value := by
    intro v hrow
    rcases hcopy with hown | ⟨hnone, v', hrow', _, hage⟩
    · obtain ⟨hlt, hold⟩ := h.newer hrow hown
      exact ⟨by omega, hgrowth.trans hold hgrown⟩
    · rw [hrow] at hrow'
      cases hrow'
      obtain ⟨y, hy, hyv⟩ := hseen
      rw [hnone, hrow] at hy
      cases hy
      rcases hage with rfl | hlt
      · exact ⟨by omega, hgrown⟩
      · omega
  have hversions : ∀ j v, Version table' j v →
      Version table j v ∨ j = i ∧ v = ⟨value, w.version + 1⟩ := by
    intro j v hv
    rcases hv with hrow | ⟨u, hwrite⟩
    · exact .inl (.inl ((hrows j).symm.trans hrow))
    · rw [hwrites] at hwrite
      split at hwrite
      · rename_i hnew
        exact .inr ⟨hnew.2, (Option.some.inj hwrite).symm⟩
      · exact .inl (.inr ⟨u, hwrite⟩)
  have hclash : ∀ q, c.Clash value q ↔ c.Clash x.value q := fun q =>
    (hgrowth.clash hgrown q).symm.trans (hgrowth.clash hgrowth' q)
  refine ⟨⟨fun {u j v y} hrow hwrite => ?_, fun {j k v y} hv hy hvy => ?_⟩,
    .of_rows hgrowth hrows hother, fun j => ?_⟩
  · rw [hrows] at hrow
    rw [hwrites] at hwrite
    split at hwrite
    · rename_i hnew
      cases hwrite
      exact hcommitted v (hnew.2 ▸ hrow)
    · exact h.newer hrow hwrite
  · rcases hversions j v hv with hv | ⟨rfl, rfl⟩
    · rcases hversions k y hy with hy | ⟨rfl, rfl⟩
      · exact h.unique hv hy hvy
      · exact (h.unique hversion hv ((hclash _).1 (hgrowth.symm hvy))).symm
    · rcases hversions k y hy with hy | ⟨rfl, rfl⟩
      · exact h.unique hversion hy ((hclash _).1 hvy)
      · rfl
  · rw [hwrites]
    by_cases hj : j = i <;> simp [hj]

end Basis
