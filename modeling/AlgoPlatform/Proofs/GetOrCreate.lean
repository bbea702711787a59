/-
`_get_or_create` makes one row.

# The call

A call that looks its key up, finds nothing and inserts holds a savepoint
around the insert. The insert goes through only where no row of the key
is committed or written (`add_holds`); a refused one is taken back with
the savepoint, and the transaction is left with exactly what it had
written before the call (`beginNested_holds`). So a call that returns has
made the row, still uncommitted, or has found it committed
(`getOrCreate_holds`).

# The callers

The table has at most one row of the key, committed or not
(`Regime.single`), and the first caller to commit a new one is the only
one (`oneCreator`, a contract of `Basis.Cluster`).
-/
import AlgoPlatform.Model.GetOrCreate

open Basis

namespace AlgoPlatform.BaseRepository

variable {ρ α : Type} {wanted : ρ → Bool} {c : Constraints ρ}
  {t i : Nat} {b b' : Backend ρ} {table table' : List (Slot ρ)}
  {snap : Nat → Option (Versioned ρ)}
  {snaps : List (Nat → Option (Versioned ρ))} {value : ρ}

-- =============================================== statement vocabulary

/-- A row the lookup selects is committed. -/
def RowAt (wanted : ρ → Bool) (table : List (Slot ρ)) (i : Nat) : Prop :=
  ∃ v, rowAt table i = some v ∧ wanted v.value = true

/-- The transaction committed, and its call had created the row. -/
def Creates (x : Ended (Caller ρ wanted) Exc ((Nat × Versioned ρ) × Bool)) :
    Prop :=
  ∃ row, x.ending = .committed (row, true)

/-- One row of the key, one caller that created it, that row for every
caller, and whatever a caller has written is committed. -/
structure MadeOnce (key : UniqueKey ρ) (table : List (Slot ρ))
    (es : List (Cluster.Event key.Caller)) : Prop where
  row : ∃! i, RowAt key.wanted (callers key table es).table i
  creator : ∃! t, ∃ x ∈ (callers key table es).ended,
    x.connection = t ∧ Creates x
  same : ∀ x ∈ (callers key table es).ended, ∀ row created,
    x.ending = .committed (row, created) →
      RowAt key.wanted (callers key table es).table row.1
  kept : ∀ x ∈ (callers key table es).ended, ∀ got,
    x.ending = .committed got → ∃ mid,
      Cluster.CommitsAll key.constraints Caller.body table es x.connection mid

-- =========================================================== assertions

/-- Every write a snapshot has on a row of the key is on a committed
row. -/
def Grounded (wanted : ρ → Bool) (snap : Nat → Option (Versioned ρ))
    (table : List (Slot ρ)) : Prop :=
  ∀ i w, snap i = some w → wanted w.value = true → rowAt table i ≠ none

/-- A transaction that has made no row of the key. -/
structure Ready (wanted : ρ → Bool) (t : Nat)
    (snaps : List (Nat → Option (Versioned ρ))) (b : Backend ρ)
    (table : List (Slot ρ)) : Prop where
  saves : b.saves = snaps
  stack : Stacked wanted (writeOf t table :: snaps)
  grounded : Grounded wanted (writeOf t table) table

/-- A transaction in a savepoint that it set before it made one. -/
structure Inside (wanted : ρ → Bool) (t : Nat)
    (snap : Nat → Option (Versioned ρ))
    (snaps : List (Nat → Option (Versioned ρ))) (b : Backend ρ)
    (table : List (Slot ρ)) : Prop where
  saves : b.saves = snap :: snaps
  stack : Stacked wanted (writeOf t table :: snap :: snaps)
  grounded : Grounded wanted snap table

/-- What a call that returns has done about row `i`: it is among the
writes and not committed, or committed. -/
inductive Got (wanted : ρ → Bool) (writes : Nat → Option (Versioned ρ))
    (table : List (Slot ρ)) (i : Nat) : Bool → Prop
  | created (v : Versioned ρ) (written : writes i = some v)
      (selected : wanted v.value = true) (fresh : rowAt table i = none) :
      Got wanted writes table i true
  | found (row : RowAt wanted table i) : Got wanted writes table i false

theorem rowAt_congr (hrows : ∀ j, rowAt table' j = rowAt table j) :
    RowAt wanted table' i ↔ RowAt wanted table i := by
  unfold RowAt
  rw [hrows i]

theorem RowAt.undisturbed (h : RowAt wanted table i)
    (hothers : Undisturbed wanted t table table') :
    RowAt wanted table' i := by
  obtain ⟨v, hv, hwanted⟩ := h
  obtain ⟨v', hv', hkind⟩ := hothers.rows i v hv
  exact ⟨v', hv', hkind.trans hwanted⟩

theorem Grounded.undisturbed (h : Grounded wanted snap table)
    (hothers : Undisturbed wanted t table table') :
    Grounded wanted snap table' := by
  intro i w hw hwanted
  obtain ⟨v, hv⟩ := Option.ne_none_iff_exists'.1 (h i w hw hwanted)
  obtain ⟨v', hv', -⟩ := hothers.rows i v hv
  exact hv' ▸ Option.some_ne_none v'

theorem Ready.undisturbed (h : Ready wanted t snaps b table)
    (hothers : Undisturbed wanted t table table') :
    Ready wanted t snaps b table' := by
  obtain ⟨hsaves, hstack, hgrounded⟩ := h
  refine ⟨hsaves, ?_, ?_⟩
  · rw [hothers.writeOf_eq]
    exact hstack
  · rw [hothers.writeOf_eq]
    exact hgrounded.undisturbed hothers

theorem Inside.undisturbed (h : Inside wanted t snap snaps b table)
    (hothers : Undisturbed wanted t table table') :
    Inside wanted t snap snaps b table' := by
  refine ⟨h.saves, ?_, h.grounded.undisturbed hothers⟩
  rw [hothers.writeOf_eq]
  exact h.stack

theorem Got.undisturbed {created : Bool} (h : Got wanted snap table i created)
    (hcovers : Covers wanted (writeOf t table) snap)
    (hothers : Undisturbed wanted t table table') :
    Got wanted snap table' i created := by
  cases h with
  | created v written selected fresh =>
      obtain ⟨w, hw, -⟩ := hcovers i v written
      refine .created v written selected ?_
      rw [hothers.locked i (hw ▸ Option.some_ne_none w), fresh]
  | found row => exact .found (row.undisturbed hothers)

theorem Got.stays {created : Bool}
    (h : Got wanted (writeOf t table) table i created)
    (hothers : Undisturbed wanted t table table') :
    Got wanted (writeOf t table') table' i created := by
  rw [hothers.writeOf_eq]
  exact h.undisturbed (.refl _) hothers

/-- A row that was made is not lost to later writes. -/
theorem Got.covered {created : Bool} {writes : Nat → Option (Versioned ρ)}
    (h : Got wanted snap table i created)
    (hcovers : Covers wanted writes snap) :
    Got wanted writes table i created := by
  cases h with
  | created v written selected fresh =>
      obtain ⟨w, hw, hlater⟩ := hcovers i v written
      exact .created w hw (hlater.kind.trans selected) fresh
  | found row => exact .found row

theorem Got.congr {created : Bool} (h : Got wanted snap table i created)
    (hrows : ∀ j, rowAt table' j = rowAt table j) :
    Got wanted snap table' i created := by
  cases h with
  | created v written selected fresh =>
      exact .created v written selected ((hrows i).trans fresh)
  | found row => exact .found ((rowAt_congr hrows).2 row)

-- ============================================================= the call

/-- What holds of every caller's table. -/
abbrev oneRow (c : Constraints ρ) (wanted : ρ → Bool) : Regime ρ Bool :=
  .single c wanted true

/-- The lookup finds a committed row, or none. -/
theorem lookup_holds (h : Ready wanted t snaps b table) :
    (lookup wanted).Holds (oneRow c wanted) t (fun r b' table' => match r with
      | .ok none => Ready wanted t snaps b' table'
      | .ok (some row) => Ready wanted t snaps b' table'
          ∧ RowAt wanted table' row.1
      | .error _ => True) b table := by
  intro table' hothers hinv r b' table'' heffect
  have hready := h.undisturbed hothers
  cases heffect with
  | refused => exact ⟨hinv, fun _ _ _ => trivial⟩
  | selected =>
      refine ⟨hinv, ?_⟩
      dsimp only
      split
      · exact fun _ h' _ => hready.undisturbed h'
      · rename_i row hrow
        refine fun _ h' _ => ⟨hready.undisturbed h', RowAt.undisturbed ?_ h'⟩
        have hmem : row ∈ (selectAll t table').filter fun x =>
            wanted x.2.value := hrow ▸ List.mem_singleton_self row
        obtain ⟨hseen, hwanted⟩ := List.mem_filter.1 hmem
        rcases Option.or_eq_some_iff.1 (mem_selectAll_iff.1 hseen) with
          hown | ⟨-, hcommitted⟩
        · obtain ⟨v, hv⟩ := Option.ne_none_iff_exists'.1
            (hready.grounded row.1 row.2 hown hwanted)
          exact ⟨v, hv, (hinv.1 _ _ _ _ hv hown).symm.trans hwanted⟩
        · exact ⟨row.2, hcommitted, hwanted⟩
      · exact fun _ _ _ => trivial

/-- An insert that goes through found no row of the key anywhere. -/
theorem add_holds
    (hunique : ∀ r r', wanted r = true → wanted r' = true → c.Clash r r')
    (hvalue : wanted value = true)
    (h : Inside wanted t snap snaps b table) :
    (add value).Holds (oneRow c wanted) t (fun r b' table' =>
      Inside wanted t snap snaps b' table'
        ∧ ∀ row, r = .ok row → Got wanted (writeOf t table') table' row.1 true) b table := by
  intro table' hothers hinv r b' table'' heffect
  have hinside := h.undisturbed hothers
  have hstack : Stacked wanted (writeOf t table' :: b.saves) :=
    hinside.saves ▸ hinside.stack
  have huniform : Uniform wanted table'' := heffect.uniform trivial
    (fun _ hsnap => hstack.top hsnap) hinv.1
  have hstack' : Stacked wanted (writeOf t table'' :: b'.saves) :=
    heffect.stacked_saves trivial hstack
  cases heffect with
  | refused =>
      exact ⟨hinv, fun _ h' _ => ⟨Inside.undisturbed ⟨hinside.saves,
        hinside.stack, hinside.grounded⟩ h', nofun⟩⟩
  | inserted _ _ healthy free unseen rows writes =>
      have hnone : ∀ j, ¬ HasKind wanted true table' j := by
        intro j hj
        rcases hj with ⟨v, hv, hk⟩ | ⟨u, v, hv, hk⟩
        · cases hown : writeOf t table' j with
          | none =>
              refine unseen (j, v) (mem_selectAll_iff.2 ?_)
                (hunique _ _ hvalue hk)
              rw [hown, hv]
              rfl
          | some w =>
              exact free t j w hown (hunique _ _ hvalue
                ((hinv.1 j t v w hv hown).trans hk))
        · exact free u j v hv (hunique _ _ hvalue hk)
      have honly : ∀ j, HasKind wanted true table'' j →
          j = table'.length := by
        intro j hj
        by_contra hne
        refine hnone j ?_
        rcases hj with ⟨v, hv, hk⟩ | ⟨u, v, hv, hk⟩
        · exact .inl ⟨v, (rows j).symm.trans hv, hk⟩
        · rw [writes, if_neg fun h => hne h.2] at hv
          exact .inr ⟨u, v, hv, hk⟩
      refine ⟨⟨huniform, fun j j' hj hj' =>
        (honly j hj).trans (honly j' hj').symm⟩, fun _ h' _ => ?_⟩
      refine ⟨Inside.undisturbed ⟨hinside.saves, ?_, ?_⟩ h', fun row hrow => ?_⟩
      · exact hinside.saves ▸ hstack'
      · intro j w hw hwanted
        rw [rows]
        exact hinside.grounded j w hw hwanted
      · cases hrow
        refine Got.stays (.created ⟨value, 1⟩ ?_ hvalue ?_) h'
        · rw [writes, if_pos ⟨rfl, rfl⟩]
        · rw [rows, rowAt_length]

/-- Going back to the savepoint makes no row. -/
private theorem rollback_inv
    {r : Except Refusal (Statement.rollbackTo : Statement ρ).Reply}
    (h : Inside wanted t snap snaps b table)
    (hinv : (oneRow c wanted).Inv table)
    (heffect : Performed c t b table .rollbackTo r b' table') :
    (oneRow c wanted).Inv table' := by
  have hstack : Stacked wanted (writeOf t table :: b.saves) :=
    h.saves ▸ h.stack
  exact heffect.single trivial trivial (fun _ hsnap => hstack.top hsnap) hinv

/-- In a savepoint, what goes wrong is taken back with it. -/
theorem beginNested_holds {body : Txn ρ Exc α}
    {Q : α → List (Slot ρ) → Prop}
    (hbody : ∀ snap b table, Inside wanted t snap snaps b table →
      body.Holds (oneRow c wanted) t (fun r b' table' =>
        Inside wanted t snap snaps b' table'
          ∧ ∀ a, r = .ok a → Q a table') b table)
    (hQ : ∀ a table table', Q a table → Undisturbed wanted t table table' →
      Q a table')
    (h : Ready wanted t snaps b table) :
    (beginNested body).Holds (oneRow c wanted) t (fun r b' table' =>
      match r with
      | .ok a => b'.saves = snaps
          ∧ Stacked wanted (writeOf t table' :: snaps) ∧ Q a table'
      | .error _ => Ready wanted t snaps b' table') b table := by
  have hrollback : ∀ e snap b table, Inside wanted t snap snaps b table →
      Txn.Holds (oneRow c wanted) t (fun r b' table' => match r with
        | .ok a => b'.saves = snaps
            ∧ Stacked wanted (writeOf t table' :: snaps) ∧ Q a table'
        | .error _ => Ready wanted t snaps b' table')
        (do execute .rollbackTo; throw e : Txn ρ Exc α) b table := by
    intro e snap b table hinside table' hothers hinv r b' table'' heffect
    have hinside' := hinside.undisturbed hothers
    refine ⟨rollback_inv hinside' hinv heffect, ?_⟩
    cases heffect with
    | refused _ _ why =>
        have hnil : b.saves = [] := why
        rw [hinside.saves] at hnil
        cases hnil
    | restored _ _ top =>
        obtain ⟨rfl, rfl⟩ := List.cons.inj (top.symm.trans hinside.saves)
        have hwrites := writeOf_restore (hinside'.stack.top List.mem_cons_self)
        refine fun _ h' _ => Ready.undisturbed ⟨rfl, ?_, ?_⟩ h'
        · rw [hwrites]
          exact (List.pairwise_cons.1 hinside'.stack).2
        · rw [hwrites]
          intro i w hw hwanted
          rw [rowAt_restore]
          exact hinside'.grounded i w hw hwanted
  intro table' hothers hinv r b' table'' heffect
  have hready := h.undisturbed hothers
  cases heffect with
  | refused =>
      exact ⟨hinv, fun _ h' _ => Ready.undisturbed ⟨hready.saves,
        hready.stack, hready.grounded⟩ h'⟩
  | saved =>
      refine ⟨hinv, Txn.Holds.tryCatch (Txn.Holds.bind ((hbody _ _ _ ⟨?_,
        hready.stack.push (.refl _), hready.grounded⟩).mono ?_))⟩
      · rw [hready.saves]
      intro r b₁ table₁ _ ⟨hinside, hok⟩
      cases r with
      | error e => exact hrollback e _ b₁ table₁ hinside
      | ok a =>
          intro table₂ hothers₂ hinv₂ r b₂ table₃ heffect₂
          have hinside₂ := hinside.undisturbed hothers₂
          have hq := hQ a _ _ (hok a rfl) hothers₂
          cases heffect₂ with
          | refused =>
              refine ⟨hinv₂, fun _ h' _ => hrollback _ (writeOf t table') _ _ ?_⟩
              exact Inside.undisturbed ⟨hinside₂.saves, hinside₂.stack,
                hinside₂.grounded⟩ h'
          | released _ _ _ top =>
              obtain ⟨rfl, rfl⟩ := List.cons.inj (top.symm.trans hinside₂.saves)
              refine ⟨hinv₂, fun table₄ h' _ => ⟨rfl, ?_, hQ a _ _ hq h'⟩⟩
              rw [h'.writeOf_eq]
              exact hinside₂.stack.drop

/-- What a call that returns leaves of the transaction. -/
structure Returned (wanted : ρ → Bool) (t : Nat)
    (snaps : List (Nat → Option (Versioned ρ)))
    (got : (Nat × Versioned ρ) × Bool) (b : Backend ρ)
    (table : List (Slot ρ)) : Prop where
  saves : b.saves = snaps
  stack : Stacked wanted (writeOf t table :: snaps)
  row : Got wanted (writeOf t table) table got.1.1 got.2

/-- A call that returns has made the row or found it committed. -/
theorem getOrCreate_holds
    (hunique : ∀ r r', wanted r = true → wanted r' = true → c.Clash r r')
    (hvalue : wanted value = true) (h : Ready wanted t snaps b table) :
    (getOrCreate wanted value).Holds (oneRow c wanted) t (fun r b' table' =>
      ∀ got, r = .ok got → Returned wanted t snaps got b' table')
      b table := by
  have hfound : ∀ row b table, Ready wanted t snaps b table →
      RowAt wanted table row.1 →
      (Txn.done (.ok (row, false)) : Txn ρ Exc _).Holds (oneRow c wanted) t
        (fun r b' table' =>
          ∀ got, r = .ok got → Returned wanted t snaps got b' table')
        b table := by
    intro row b table hready hrow table' hothers _ got hgot
    cases hgot
    have hready' := hready.undisturbed hothers
    exact ⟨hready'.saves, hready'.stack, .found (hrow.undisturbed hothers)⟩
  refine Txn.Holds.bind ((lookup_holds h).mono ?_)
  intro r b₁ table₁ _ hr
  cases r with
  | error e => exact nofun
  | ok existing =>
  cases existing with
  | some row => exact hfound row b₁ table₁ hr.1 hr.2
  | none =>
  refine Txn.Holds.tryCatch (Txn.Holds.bind ((beginNested_holds
    (Q := fun (row : Nat × Versioned ρ) table' =>
      Got wanted (writeOf t table') table' row.1 true)
    (fun _ _ _ hinside => add_holds hunique hvalue hinside)
    (fun _ _ _ hgot hothers => hgot.stays hothers) hr).mono ?_))
  intro r b₂ table₂ _ hr₂
  cases r with
  | ok obj =>
      obtain ⟨hsaves, hstack, hgot⟩ := hr₂
      intro table₃ hothers _ got heq
      cases heq
      refine ⟨hsaves, ?_, hgot.stays hothers⟩
      rw [hothers.writeOf_eq]
      exact hstack
  | error e =>
  cases e with
  | integrity =>
      -- the row is in the way: look it up again
      refine Txn.Holds.bind ((lookup_holds hr₂).mono ?_)
      intro r b₃ table₃ _ hr₃
      cases r with
      | error e => exact nofun
      | ok existing =>
      cases existing with
      | some row => exact hfound row b₃ table₃ hr₃.1 hr₃.2
      | none => exact fun _ _ _ => nofun
  | _ => exact fun _ _ _ => nofun

-- ====================================================== the transaction

/-- Before its call a transaction makes no row of the key. -/
private theorem elsewhere_grounded {stmt : Statement ρ}
    {r : Except Refusal stmt.Reply} {n : Nat}
    (hstmt : Elsewhere wanted n stmt)
    (hcovers : ∀ snap ∈ b.saves, Covers wanted (writeOf t table) snap)
    (heffect : Performed c t b table stmt r b' table')
    (h : Grounded wanted (writeOf t table) table) :
    Grounded wanted (writeOf t table') table' := by
  obtain ⟨hsteady, havoids, -⟩ := hstmt
  intro i w hw hwanted
  rw [heffect.rows]
  cases heffect with
  | inserted value _ _ _ _ _ writes =>
      rw [writes] at hw
      by_cases hi : i = table.length
      · rw [if_pos ⟨rfl, hi⟩] at hw
        cases hw
        exact absurd hwanted havoids
      · rw [if_neg fun h => hi h.2] at hw
        exact h i w hw hwanted
  | updated id change v _ seen _ _ writes =>
      rw [writes] at hw
      by_cases hi : i = id
      · rw [if_pos ⟨rfl, hi⟩] at hw
        cases hw
        have hv : wanted v.value = true := (hsteady v.value).symm.trans hwanted
        rw [← hi] at seen
        rcases Option.or_eq_some_iff.1 seen with hown | ⟨-, hrow⟩
        · exact h i v hown hv
        · exact hrow ▸ Option.some_ne_none v
      · rw [if_neg fun h => hi h.2] at hw
        exact h i w hw hwanted
  | restored snap saves top =>
      have hsnap := hcovers snap (top ▸ List.mem_cons_self)
      rw [writeOf_restore hsnap] at hw
      obtain ⟨w', hw', hlater⟩ := hsnap i w hw
      exact h i w' hw' (hlater.kind.trans hwanted)
  | _ => exact h i w hw hwanted

theorem before_holds {p : Txn ρ Exc α}
    (hp : p.Within (Elsewhere wanted) 0)
    (h : Ready wanted t b.saves b table) :
    p.Holds (oneRow c wanted) t (fun _ b' table' =>
      Ready wanted t b'.saves b' table') b table := by
  refine (hp.holds (P := fun _ b table => Ready wanted t b.saves b table)
    (fun _ _ _ _ hready hothers => hready.undisturbed hothers)
    (fun n stmt b table r b' table' hstmt hinv hready heffect => ?_)
    h).mono fun _ _ _ _ ⟨_, hready⟩ => hready
  have hcovers : ∀ snap ∈ b.saves, Covers wanted (writeOf t table) snap :=
    fun _ hsnap => hready.stack.top hsnap
  exact ⟨heffect.single hstmt.1 hstmt.2.1 hcovers hinv, rfl,
    heffect.stacked_saves hstmt.1 hready.stack,
    elsewhere_grounded hstmt hcovers heffect hready.grounded⟩

/-- After the call, with the writes it left as a floor under the
transaction's own savepoints. -/
structure Beside (wanted : ρ → Bool) (t : Nat)
    (floor : Nat → Option (Versioned ρ))
    (snaps : List (Nat → Option (Versioned ρ))) (i : Nat) (created : Bool)
    (n : Nat) (b : Backend ρ) (table : List (Slot ρ)) : Prop where
  own : ∃ own, b.saves = own ++ snaps ∧ own.length = n
    ∧ Stacked wanted (writeOf t table :: (own ++ floor :: snaps))
  row : Got wanted floor table i created

theorem after_holds {p : Txn ρ Exc α} {created : Bool}
    (hp : p.Within (Elsewhere wanted) 0) (hsaves : b.saves = snaps)
    (hstack : Stacked wanted (writeOf t table :: snaps))
    (hrow : Got wanted (writeOf t table) table i created) :
    p.Holds (oneRow c wanted) t (fun _ _ table' =>
      Got wanted (writeOf t table') table' i created) b table := by
  refine (hp.holds (P := Beside wanted t (writeOf t table) snaps i created)
    (fun n b table' table'' hbeside hothers => ?_)
    (fun n stmt b table' r b' table'' hstmt hinv hbeside heffect => ?_)
    ⟨⟨[], hsaves, rfl, hstack.push (.refl _)⟩, hrow⟩).mono
    fun _ _ table' _ ⟨_, hbeside⟩ => ?_
  · obtain ⟨⟨own, hown, hlength, hstack'⟩, hgot⟩ := hbeside
    refine ⟨⟨own, hown, hlength, ?_⟩, hgot.undisturbed (hstack'.top
      (List.mem_append_right _ List.mem_cons_self)) hothers⟩
    rw [hothers.writeOf_eq]
    exact hstack'
  · obtain ⟨⟨own, hown, hlength, hstack'⟩, hgot⟩ := hbeside
    have hcovers : ∀ snap ∈ b.saves, Covers wanted (writeOf t table') snap := by
      intro snap hsnap
      refine hstack'.top ?_
      rw [hown] at hsnap
      rcases List.mem_append.1 hsnap with hsnap | hsnap
      · exact List.mem_append_left _ hsnap
      · exact List.mem_append_right _ (List.mem_cons_of_mem _ hsnap)
    obtain ⟨own', hown', hlength', hstack''⟩ := heffect.stacked hstmt.1 hown
      (fun hnil hpops => absurd (hlength.symm.trans (hnil ▸ rfl))
        (hstmt.2.2 hpops)) hstack'
    exact ⟨heffect.single hstmt.1 hstmt.2.1 hcovers hinv,
      ⟨own', hown', hlength ▸ hlength', hstack''⟩, hgot.congr heffect.rows⟩
  · obtain ⟨⟨own, -, -, hstack'⟩, hgot⟩ := hbeside
    exact hgot.covered (hstack'.top
      (List.mem_append_right _ List.mem_cons_self))

/-- The whole body. -/
theorem body_holds
    (hunique : ∀ r r', wanted r = true → wanted r' = true → c.Clash r r')
    (caller : Caller ρ wanted) (hnew : ∀ i, writeOf t table i = none) :
    caller.body.Holds (oneRow c wanted) t (fun r _ table' =>
      ∀ row created, r = .ok (row, created) →
        Got wanted (writeOf t table') table' row.1 created)
      .fresh table := by
  have hready : Ready wanted t Backend.fresh.saves .fresh table :=
    ⟨rfl, List.pairwise_singleton _ _, fun i w hw => by
      rw [hnew] at hw
      cases hw⟩
  refine Txn.Holds.bind ((before_holds caller.elsewhere_before hready).mono ?_)
  intro r b₁ table₁ _ hready₁
  cases r with
  | error e => exact nofun
  | ok value =>
  refine Txn.Holds.bind ((getOrCreate_holds hunique value.2 hready₁).mono ?_)
  intro r b₂ table₂ _ hreturned
  cases r with
  | error e => exact nofun
  | ok got =>
  obtain ⟨hsaves, hstack, hrow⟩ := hreturned got rfl
  refine Txn.Holds.bind ((after_holds (caller.elsewhere_after got.1 got.2)
    hsaves hstack hrow).mono ?_)
  intro r b₃ table₃ _ hgot
  cases r with
  | error e => exact nofun
  | ok _ =>
      intro table₄ hothers _ row created heq
      cases heq
      exact hgot.stays hothers

-- ========================================================== the callers

/-- What the callers that ended say of the table: those that committed
name its row, and one of them, once it is there, has created it. -/
structure Answered (wanted : ρ → Bool)
    (ended : List (Ended (Caller ρ wanted) Exc ((Nat × Versioned ρ) × Bool)))
    (table : List (Slot ρ)) : Prop where
  named : ∀ x ∈ ended, ∀ row created, x.ending = .committed (row, created) →
    RowAt wanted table row.1
  created : ∀ i, RowAt wanted table i → ∃ x ∈ ended, Creates x
  once : ∀ x ∈ ended, ∀ y ∈ ended, Creates x → Creates y → x = y

private theorem Answered.snoc
    {ended : List (Ended (Caller ρ wanted) Exc ((Nat × Versioned ρ) × Bool))}
    {x : Ended (Caller ρ wanted) Exc ((Nat × Versioned ρ) × Bool)}
    (h : Answered wanted ended table)
    (hkept : ∀ j, RowAt wanted table j → RowAt wanted table' j)
    (hnamed : ∀ row created, x.ending = .committed (row, created) →
      RowAt wanted table' row.1)
    (hcreated : ∀ i, RowAt wanted table' i → RowAt wanted table i ∨ Creates x)
    (honce : Creates x → ∀ y ∈ ended, ¬ Creates y) :
    Answered wanted (ended ++ [x]) table' := by
  refine ⟨fun y hy row created heq => ?_, fun i hi => ?_,
    fun y hy z hz hcy hcz => ?_⟩
  · rcases List.mem_append.1 hy with hy | hy
    · exact hkept _ (h.named y hy row created heq)
    · obtain rfl := List.mem_singleton.1 hy
      exact hnamed row created heq
  · rcases hcreated i hi with hi | hx
    · obtain ⟨y, hy, hcreates⟩ := h.created i hi
      exact ⟨y, List.mem_append_left _ hy, hcreates⟩
    · exact ⟨x, List.mem_append_right _ List.mem_cons_self, hx⟩
  · rcases List.mem_append.1 hy with hold | hnew
    · rcases List.mem_append.1 hz with hold' | hnew'
      · exact h.once y hold z hold' hcy hcz
      · obtain rfl := List.mem_singleton.1 hnew'
        exact absurd hcy (honce hcz y hold)
    · obtain rfl := List.mem_singleton.1 hnew
      rcases List.mem_append.1 hz with hold' | hnew'
      · exact absurd hcz (honce hcy z hold')
      · exact (List.mem_singleton.1 hnew').symm

theorem rowAt_of_commit {j : Nat}
    (h : RowAt wanted (table.map (·.commit t)) j) :
    RowAt wanted table j
      ∨ ∃ w, writeOf t table j = some w ∧ wanted w.value = true := by
  obtain ⟨v, hv, hwanted⟩ := h
  rw [rowAt_commit] at hv
  rcases Option.or_eq_some_iff.1 hv with hw | ⟨-, hrow⟩
  · exact .inr ⟨v, hw, hwanted⟩
  · exact .inl ⟨v, hrow, hwanted⟩

theorem RowAt.commit (huniform : Uniform wanted table) {j : Nat}
    (h : RowAt wanted table j) :
    RowAt wanted (table.map (·.commit t)) j := by
  obtain ⟨v, hv, hwanted⟩ := h
  unfold RowAt
  rw [rowAt_commit]
  cases hw : writeOf t table j with
  | none => exact ⟨v, hv, hwanted⟩
  | some w => exact ⟨w, rfl, (huniform j t v w hv hw).trans hwanted⟩

private theorem answered_commit
    {ended : List (Ended (Caller ρ wanted) Exc ((Nat × Versioned ρ) × Bool))}
    {caller : Caller ρ wanted} {row : Nat × Versioned ρ} {created : Bool}
    (hinv : (oneRow c wanted).Inv table) (h : Answered wanted ended table)
    (hgot : Got wanted (writeOf t table) table row.1 created) :
    Answered wanted (ended ++ [⟨t, caller, .committed (row, created)⟩])
      (table.map (·.commit t)) := by
  obtain ⟨huniform, hsingle⟩ := hinv
  cases hgot with
  | created v written selected fresh =>
      have hnone : ∀ j, ¬ RowAt wanted table j := by
        intro j ⟨w, hw, hwanted⟩
        obtain rfl := hsingle _ _ (.inl ⟨w, hw, hwanted⟩)
          (.inr ⟨t, v, written, selected⟩)
        rw [fresh] at hw
        cases hw
      refine h.snoc (fun j hj => absurd hj (hnone j)) (fun row' created' heq =>
        ?_) (fun _ _ => .inr ⟨row, rfl⟩) fun _ y hy hcy => ?_
      · cases heq
        refine ⟨v, ?_, selected⟩
        rw [rowAt_commit, written]
        rfl
      · obtain ⟨row', hrow'⟩ := hcy
        exact hnone _ (h.named y hy row' true hrow')
  | found hrow =>
      refine h.snoc (fun j hj => hj.commit huniform) (fun row' created' heq =>
        ?_) (fun j hj => .inl ?_) fun hx => ?_
      · cases heq
        exact hrow.commit huniform
      · rcases rowAt_of_commit hj with hj | ⟨w, hw, hwanted⟩
        · exact hj
        · obtain ⟨v, hv, hrowwanted⟩ := id hrow
          obtain rfl := hsingle _ _ (.inr ⟨t, w, hw, hwanted⟩)
            (.inl ⟨v, hv, hrowwanted⟩)
          exact hrow
      · obtain ⟨row', hrow'⟩ := hx
        cases hrow'

/-- What the callers promise each other. -/
def oneCreator
    (hunique : ∀ r r', wanted r = true → wanted r' = true → c.Clash r r') :
    Contract (oneRow c wanted) (ι := Caller ρ wanted) Caller.body where
  post t _ r _ table := ∀ row created, r = .ok (row, created) →
    Got wanted (writeOf t table) table row.1 created
  Answers := Answered wanted
  begins _ caller _ _ hnew := body_holds hunique caller hnew
  commits _ _ _ _ got _ hinv h hpost :=
    ⟨Regime.single_commit hinv,
      answered_commit hinv h (hpost got.1 got.2 rfl)⟩
  aborts _ _ _ _ _ h hending :=
    h.snoc (fun _ hj => hj) (fun row created heq =>
      absurd heq (hending (row, created))) (fun _ hi => .inl hi)
      fun ⟨row, hrow⟩ => absurd hrow (hending (row, true))
  steady _ _ _ h hrows :=
    ⟨fun x hx row created heq =>
      (rowAt_congr hrows).2 (h.named x hx row created heq),
      fun i hi => h.created i ((rowAt_congr hrows).1 hi), h.once⟩

/-- Over any interleaving of callers of a key, on a table without a row of
it: if every caller that started has committed, and one did, then there is
exactly one row of the key, exactly one caller created it, every caller
got that row, and what a caller had written outside its savepoints, before
its call too, is committed with it. -/
theorem getOrCreate_once (key : UniqueKey ρ) (table : List (Slot ρ))
    (es : List (Cluster.Event key.Caller)) (hquiet : Quiet table)
    (hnone : ∀ i, ¬ RowAt key.wanted table i)
    (hstarted : (callers key table es).links ≠ [])
    (hcommitted : ∀ t < (callers key table es).links.length,
      ∃ x ∈ (callers key table es).ended, x.connection = t
        ∧ ∃ got, x.ending = .committed got) : MadeOnce key table es := by
  have hstart : (Cluster.idle table : Cluster key.Caller ρ Exc _).Sound
      (oneCreator key.unique) :=
    Cluster.sound_idle hquiet
      (Regime.single_quiet hquiet fun i v hv hk => hnone i ⟨v, hv, hk⟩)
      ⟨nofun, fun i hi => absurd hi (hnone i), nofun⟩
  obtain ⟨⟨-, hsingle⟩, -, -, hnamed, hcreated, honce⟩ := hstart.run es
  obtain ⟨x, hx, -, got, hgot⟩ := hcommitted 0 (List.length_pos_iff.2 hstarted)
  have hrow := hnamed x hx got.1 got.2 hgot
  obtain ⟨y, hy, hcreates⟩ := hcreated _ hrow
  refine ⟨⟨got.1.1, hrow, fun j hj => hsingle _ _ (.inl hj) (.inl hrow)⟩,
    ⟨y.connection, ⟨y, hy, rfl, hcreates⟩, fun t ⟨z, hz, hzt, hzcreates⟩ => ?_⟩,
    hnamed, fun z hz got hgot => Cluster.commitsAll hz hgot⟩
  rw [← hzt, honce z hz y hy hzcreates hcreates]

namespace Race

/-- The day both callers enter on. -/
def day : Date := { year := 2025, month := 1, day := 2 }

/-- A position of an instance's day. -/
def position (strategyInstanceId : Nat) : Position where
  strategyInstanceId := strategyInstanceId
  tradeDate := day
  state := .entryPending

/-- The key they race for: instance 1 on the day. -/
def key : UniqueKey Position := PositionRepository.dayKey [1, 2] 1 day

/-- A caller that does nothing but the call. -/
def bare : key.Caller where
  before := pure ⟨position 1, by decide +kernel⟩
  after _ _ := pure ()
  elsewhere_before := trivial
  elsewhere_after _ _ := trivial

/-- A caller that has made another instance's position first. -/
def busy : key.Caller where
  before := .call (.insert (position 2)) fun _ =>
    pure ⟨position 1, by decide +kernel⟩
  after _ _ := pure ()
  elsewhere_before := ⟨⟨trivial, show key.wanted (position 2) ≠ true by
    decide +kernel, nofun⟩, fun _ => trivial⟩
  elsewhere_after _ _ := trivial

/-- Both look up and find nothing; the second waits on the first's insert,
loses, goes back to its savepoint and looks up again. -/
def race : List (Cluster.Event key.Caller) :=
  [.start bare, .start busy, .acts 1, .acts 0, .acts 1, .acts 0, .acts 1,
    .acts 0, .acts 1, .acts 0, .acts 0, .acts 1, .acts 1, .acts 1, .acts 1]

/-- Who got what. -/
private theorem race_ended :
    (callers key [] race).ended.map (fun x => (x.connection, x.ending))
      = [(0, .committed ((1, ⟨position 1, 1⟩), true)),
        (1, .committed ((1, ⟨position 1, 1⟩), false))] := by
  decide +kernel

private theorem race_links : (callers key [] race).links.length = 2 := by
  decide +kernel

end Race

/-- A run both of whose callers committed, from its list of answers. -/
private theorem both_committed {key : UniqueKey ρ}
    {s : Cluster key.Caller ρ Exc ((Nat × Versioned ρ) × Bool)}
    {got got' : (Nat × Versioned ρ) × Bool} (hlinks : s.links.length = 2)
    (hended : s.ended.map (fun x => (x.connection, x.ending))
      = [(0, .committed got), (1, .committed got')]) :
    s.links ≠ [] ∧ ∀ t < s.links.length, ∃ x ∈ s.ended, x.connection = t
      ∧ ∃ got, x.ending = .committed got := by
  have hmem : ∀ p ∈ [(0, Txn.Ending.committed got), (1, .committed got')],
      ∃ x ∈ s.ended, x.connection = p.1 ∧ x.ending = p.2 := by
    intro p hp
    rw [← hended] at hp
    obtain ⟨x, hx, rfl⟩ := List.mem_map.1 hp
    exact ⟨x, hx, rfl, rfl⟩
  refine ⟨fun hnil => ?_, fun t ht => ?_⟩
  · rw [hnil] at hlinks
    cases hlinks
  · rw [hlinks] at ht
    match t, ht with
    | 0, _ =>
        obtain ⟨x, hx, ht, hending⟩ := hmem _ List.mem_cons_self
        exact ⟨x, hx, ht, _, hending⟩
    | 1, _ =>
        obtain ⟨x, hx, ht, hending⟩ :=
          hmem _ (List.mem_cons_of_mem _ List.mem_cons_self)
        exact ⟨x, hx, ht, _, hending⟩

private theorem no_row {wanted : ρ → Bool} (i : Nat) : ¬ RowAt wanted [] i :=
  fun ⟨_, hv, _⟩ => nomatch hv

private theorem quiet_nil : Quiet ([] : List (Slot ρ)) := nofun

/-- The loser's other position is committed with it. -/
theorem getOrCreate_once_race : MadeOnce Race.key [] Race.race :=
  getOrCreate_once Race.key [] Race.race quiet_nil no_row
    (both_committed Race.race_links Race.race_ended).1
    (both_committed Race.race_links Race.race_ended).2

end AlgoPlatform.BaseRepository
