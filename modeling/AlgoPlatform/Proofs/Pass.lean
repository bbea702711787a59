/-
A reconciliation pass as lists of turns.

# Any environment

Between any two units of work the environment has its turn, so a unit of
work is a turn of the pass after one of the environment's (`Turned`).
`PassAmid E` is a whole pass with turns of the environment in `E` around
every act; `reconcile_passAmid` turns a run of the program into it, once.
What follows about passes is induction over lists of turns, with no
program left in sight.

# A still environment

A pass nothing interferes with (`Move.Quiet`) is a relation between the
rows alone (`Pass`).
-/
import AlgoPlatform.Proofs.Turns

open Basis Basis.Session

namespace AlgoPlatform

-- ================================================================ turns

/-- Turns, one after the other. -/
inductive Turns {σ : Type} (T : Nat → σ → σ → Prop) : List Nat → σ → σ → Prop
  | nil {s : σ} : Turns T [] s s
  | cons {id : Nat} {ids : List Nat} {s s' s'' : σ} (turn : T id s s')
      (turns : Turns T ids s' s'') : Turns T (id :: ids) s s''

/-- Turns, seen through a function. -/
theorem Turns.map {σ τ : Type} {T : Nat → σ → σ → Prop}
    {T' : Nat → τ → τ → Prop} (f : σ → τ) {ids : List Nat} {s s' : σ}
    (h : Turns T ids s s') (hT : ∀ id s s', T id s s' → T' id (f s) (f s')) :
    Turns T' ids (f s) (f s') := by
  induction h with
  | nil => exact .nil
  | cons turn turns ih => exact .cons (hT _ _ _ turn) ih

/-- The environment's turn, then one unit of work. -/
def Turned (E : World → World → Prop) (T : Rows → Rows → Prop)
    (w w' : World) : Prop :=
  ∃ v, E w v ∧ T v.db.rows w'.db.rows ∧ w'.broker = v.broker

/-- What `get_positions` answers. -/
def Move.book (m : Move) : Except BrokerError (List BrokerPosition) :=
  match m.read with
  | some e => .error e
  | none => .ok m.positions

namespace ReconciliationEngine

-- =========================================================== the stages

/-- The in-doubt intents, in the order the database returns them. -/
def inDoubt (scan : List Nat) (r : Rows) : List Nat :=
  arrange scan ((select (·.status.isInDoubt) r.intents).map Prod.fst)

theorem inDoubt_nodup (scan : List Nat) (r : Rows) : (inDoubt scan r).Nodup :=
  arrange_nodup (select_keys_nodup _ _)

theorem mem_inDoubt {scan : List Nat} {r : Rows} {intentId : Nat} :
    intentId ∈ inDoubt scan r ↔ ∃ intent, r.intents[intentId]? = some intent
      ∧ intent.status.isInDoubt = true := by
  unfold inDoubt
  rw [mem_arrange, List.mem_map]
  constructor
  · intro ⟨⟨i, intent⟩, hmem, hi⟩
    cases hi
    exact ⟨intent, mem_select.1 hmem⟩
  · intro ⟨intent, hfound, hdoubt⟩
    exact ⟨(intentId, intent), mem_select.2 ⟨hfound, hdoubt⟩, rfl⟩

/-- The positions a pass looks at. -/
def Unfinished (p : Position) : Prop :=
  p.state = .entryPending ∨ p.state = .open ∨ p.state = .exitPending

/-- A pass: the intents' turns, the tags', the unfinished positions',
and the environment around every act. -/
structure PassAmid (E : World → World → Prop) (injected : Bool)
    (orders : List BrokerOrder) (live : Option (List String))
    (scan : List Nat) (w w' : World) : Prop where
  turns : ∃ (w₁ w₂ w₃ w₄ : World) (positionIds : List Nat),
    E w w₁
      ∧ Turns (fun id => Turned E (IntentTurn (groupOrdersByTag orders) id))
        (inDoubt scan w₁.db.rows) w₁ w₂
      ∧ Turned E (OrphanTurn (groupOrdersByTag orders)) w₂ w₃
      ∧ E w₃ w₄
      ∧ positionIds.Nodup
      ∧ (∀ id, id ∈ positionIds
        ↔ ∃ p, w₄.db.rows.positions[id]? = some p ∧ Unfinished p)
      ∧ Turns (fun id => Turned E (PositionTurn injected live id))
        positionIds w₄ w'

section Stages

variable {C : Move → Prop} {E : World → World → Prop}

/-- One unit of work of a pass. -/
theorem turn_unitOfWork (hE : ∀ m w, C m → E w (w.interfere m)) {α : Type}
    {body : List Nat → Session α} {P : α → Rows → Rows → Prop}
    (h : ∀ scan db, Meets (body scan) db
      (fun a db' => P a db.rows db'.rows) fun _ => True) (w : World) :
    (Program.unitOfWork body).Safe C (fun _ => True) w
      fun res w' => ∀ a, res = .ok a → Turned E (P a) w w' := by
  refine Program.safe_unitOfWork trivial (fun _ _ _ _ _ => nofun)
    fun m hm _ => ?_
  refine (h m.scan (w.interfere m).db).imp (fun a db hP => ?_)
    fun _ _ _ => nofun
  intro a' ha
  cases ha
  exact ⟨w.interfere m, hE m w hm, hP, rfl⟩

/-- A pass over subjects is their turns. -/
theorem each_turns {T : Nat → World → World → Prop}
    {f : Nat → Program ReconciliationItem}
    (hturn : ∀ id w, (f id).Safe C (fun _ => True) w
      fun res w' => ∀ item, res = .ok item → T id w w')
    (ids : List Nat) (w : World) :
    (each f ids).Safe C (fun _ => True) w
      fun res w' => ∀ items, res = .ok items → Turns T ids w w' := by
  induction ids generalizing w with
  | nil => exact fun items _ => .nil
  | cons id ids ih =>
      unfold each
      rw [Prog.safe_bind]
      refine (hturn id w).mono fun res w₁ hown => ?_
      cases res with
      | error e => exact fun _ => nofun
      | ok item =>
          rw [Prog.andThen_ok, Prog.safe_bind]
          refine (ih w₁).mono fun res w₂ hrest => ?_
          cases res with
          | error e => exact fun _ => nofun
          | ok items => exact fun _ _ => .cons (hown item rfl) (hrest items rfl)

/-- The scan for in-doubt intents. -/
private theorem listInDoubt_run {w : World} {m : Move} {ms : List Move} :
    (Program.unitOfWork OrderIntentRepository.listInDoubt).run (m :: ms) w
      = (Prog.done (match m.fault with
        | some fault => .error fault.exc
        | none => .ok (inDoubt m.scan (w.interfere m).db.rows)) :
          Program _).run ms (w.interfere m) := by
  show (Prog.done _ : Program _).run ms _ = _
  dsimp only
  cases m.fault <;> rfl

/-- The first stage's turns. -/
private theorem resolve_turns (hE : ∀ m w, C m → E w (w.interfere m))
    {orders : List BrokerOrder} {w w' : World}
    {m₂ : Move} {ms rest : List Move} {items : List ReconciliationItem}
    (hmoves : ∀ m ∈ m₂ :: ms, C m)
    (hrun : (resolveStage orders).run (m₂ :: ms) w
      = (.returned items, w', rest)) :
    ∃ w₁ w₂, E w w₁
      ∧ Turns (fun id => Turned E (IntentTurn (groupOrdersByTag orders) id))
        (inDoubt m₂.scan w₁.db.rows) w₁ w₂
      ∧ Turned E (OrphanTurn (groupOrdersByTag orders)) w₂ w' := by
  obtain ⟨hm₂, hmoves⟩ := List.forall_mem_cons.1 hmoves
  unfold resolveStage at hrun
  obtain ⟨ids, w₁, ms', hlist, hrest⟩ := Prog.run_bind_returned hrun
  clear hrun
  obtain ⟨rfl, rfl, rfl⟩ : ids = inDoubt m₂.scan (w.interfere m₂).db.rows
      ∧ w₁ = w.interfere m₂ ∧ ms' = ms := by
    rw [listInDoubt_run] at hlist
    cases hfault : m₂.fault with
    | some fault =>
        rw [hfault] at hlist
        cases hlist
    | none =>
        rw [hfault] at hlist
        cases hlist
        exact ⟨rfl, rfl, rfl⟩
  have hsafe : (do
      let intentItems ← each (reconcileOneIntent (groupOrdersByTag orders))
        (inDoubt m₂.scan (w.interfere m₂).db.rows)
      let orphanItems ← Program.unitOfWork fun _ =>
        orphanSession (groupOrdersByTag orders)
      pure (intentItems ++ orphanItems) : Program _).Safe C
        (fun _ => True) (w.interfere m₂) fun res w' => ∀ items,
          res = .ok items → ∃ w₂,
            Turns (fun id => Turned E (IntentTurn (groupOrdersByTag orders) id))
              (inDoubt m₂.scan (w.interfere m₂).db.rows) (w.interfere m₂) w₂
            ∧ Turned E (OrphanTurn (groupOrdersByTag orders)) w₂ w' := by
    rw [Prog.safe_bind]
    refine (each_turns (fun id w => turn_unitOfWork hE
      (P := fun _ => IntentTurn (groupOrdersByTag orders) id)
      (fun _ db => intentSession_turn db id _) w) _ _).mono
      fun res w₂ hturns => ?_
    cases res with
    | error e => exact fun _ h => by cases h
    | ok intentItems =>
        rw [Prog.andThen_ok, Prog.safe_bind]
        refine (turn_unitOfWork hE
          (P := fun _ => OrphanTurn (groupOrdersByTag orders))
          (fun _ db => orphanSession_turn db _) w₂).mono fun res w₃ horphans => ?_
        cases res with
        | error e => exact fun _ h => by cases h
        | ok orphanItems =>
            exact fun _ _ => ⟨w₂, hturns intentItems rfl, horphans orphanItems rfl⟩
  have hholds := hsafe.run hmoves
  rw [hrest] at hholds
  obtain ⟨w₂, hturns, horphans⟩ := hholds items rfl
  exact ⟨_, w₂, hE m₂ w hm₂, hturns, horphans⟩

/-- The second stage's turns. -/
private theorem position_turns (hE : ∀ m w, C m → E w (w.interfere m))
    {reconciler : Option PositionReconciler}
    (hseam : ∀ s ∈ reconciler, s.Finishes) (live : Option (List String))
    (w : World) : (positionStage reconciler live).Safe C
      (fun _ => True) w fun res w' => ∀ items, res = .ok items →
        ∃ (w₁ : World) (positionIds : List Nat), E w w₁ ∧ positionIds.Nodup
          ∧ (∀ id, id ∈ positionIds
            ↔ ∃ p, w₁.db.rows.positions[id]? = some p ∧ Unfinished p)
          ∧ Turns (fun id => Turned E (PositionTurn reconciler.isSome live id))
            positionIds w₁ w' := by
  unfold positionStage
  rw [Prog.safe_bind]
  refine Program.safe_unitOfWork trivial (fun _ _ _ _ _ => nofun)
    fun m hm _ => ?_
  have hlist : Meets (unfinishedPositions m.scan) (w.interfere m).db
      (fun ids db => db = (w.interfere m).db ∧ ids.Nodup
        ∧ ∀ id, id ∈ ids ↔ ∃ p,
          (w.interfere m).db.rows.positions[id]? = some p ∧ Unfinished p)
      fun _ => True := by
    unfold unfinishedPositions PositionRepository.listNonTerminal
    rw [meets_bind, meets_fetch, meets_fetch]
    exact ⟨rfl, (arrange_nodup (select_keys_nodup _ _)).filter _,
      fun id => mem_unfinished⟩
  refine hlist.imp (fun ids db hids => ?_) fun _ _ _ => nofun
  obtain ⟨rfl, hnd, hmem⟩ := hids
  rw [Prog.andThen_ok]
  refine (each_turns (fun id w => turn_unitOfWork hE
    (P := fun _ => PositionTurn reconciler.isSome live id)
    (fun scan db => positionSession_turn hseam db id live scan) w)
    ids _).mono fun res w₂ hturns => ?_
  exact fun items hitems =>
    ⟨w.interfere m, ids, hE m w hm, hnd, hmem, hturns items hitems⟩

/-- A pass that got the orderbook and returned. -/
theorem reconcile_passAmid (hE : ∀ m w, C m → E w (w.interfere m))
    {reconciler : Option PositionReconciler}
    (hseam : ∀ s ∈ reconciler, s.Finishes) {w w' : World} {m₀ m₁ m₂ : Move}
    {ms rest : List Move} {items : List ReconciliationItem}
    (hmoves : ∀ m ∈ m₂ :: ms, C m) (horders : m₀.read = none)
    (hrun : (reconcile reconciler).run (m₀ :: m₁ :: m₂ :: ms) w
      = (.returned items, w', rest)) :
    PassAmid E reconciler.isSome (w.interfere m₀).broker.orderbook
      (liveSymbols m₁.book) m₂.scan ((w.interfere m₀).interfere m₁) w' := by
  have hbook : m₁.book = match m₁.read with
      | some e => .error e
      | none => .ok m₁.positions := rfl
  rw [reconcile_run reconciler horders hbook] at hrun
  obtain ⟨resolved, w₁, ms', hresolve, hrun⟩ := Prog.run_bind_returned hrun
  obtain ⟨examined, w₂, ms'', hexamine, hrun⟩ := Prog.run_bind_returned hrun
  cases hrun
  obtain ⟨u₁, u₂, hturn, hintents, horphans⟩ := resolve_turns hE hmoves hresolve
  have hsuffix : ms' <:+ m₂ :: ms := by
    have h := Prog.run_suffix (resolveStage (w.interfere m₀).broker.orderbook)
      (m₂ :: ms) ((w.interfere m₀).interfere m₁)
    rw [hresolve] at h
    exact h
  have hpositions := (position_turns hE hseam (liveSymbols m₁.book) w₁).run
    fun m hm => hmoves m (hsuffix.mem hm)
  rw [hexamine] at hpositions
  obtain ⟨u₄, positionIds, hturn', hnd, hmem, hturns⟩ := hpositions examined rfl
  exact ⟨u₁, u₂, w₁, u₄, positionIds, hturn, hintents, horphans, hturn', hnd,
    hmem, hturns⟩

end Stages

-- ================================================================ quiet

end ReconciliationEngine

/-- Nothing happens beside the act, and its commit goes through. -/
structure Move.Quiet (m : Move) : Prop where
  events : m.events = []
  fault : m.fault = none

theorem Move.Quiet.interfere {m : Move} (h : m.Quiet) (w : World) :
    w.interfere m = w := by
  unfold World.interfere
  rw [h.events]
  rfl

namespace ReconciliationEngine

/-- A pass nothing interferes with. -/
def Pass (injected : Bool) (orders : List BrokerOrder)
    (live : Option (List String)) (intentIds : List Nat) (r r' : Rows) : Prop :=
  ∃ r₁ r₂ positionIds,
    Turns (IntentTurn (groupOrdersByTag orders)) intentIds r r₁
      ∧ OrphanTurn (groupOrdersByTag orders) r₁ r₂
      ∧ positionIds.Nodup
      ∧ (∀ id, id ∈ positionIds ↔ ∃ p, r₂.positions[id]? = some p
        ∧ Unfinished p)
      ∧ Turns (PositionTurn injected live) positionIds r₂ r'

/-- A pass that got the orderbook and returned, with nothing happening
beside it. -/
theorem reconcile_pass {reconciler : Option PositionReconciler}
    (hseam : ∀ s ∈ reconciler, s.Finishes) {w w' : World} {m₀ m₁ m₂ : Move}
    {ms rest : List Move} {items : List ReconciliationItem}
    (hquiet : ∀ m ∈ m₀ :: m₁ :: m₂ :: ms, m.Quiet) (horders : m₀.read = none)
    (hrun : (reconcile reconciler).run (m₀ :: m₁ :: m₂ :: ms) w
      = (.returned items, w', rest)) :
    Pass reconciler.isSome w.broker.orderbook (liveSymbols m₁.book)
        (inDoubt m₂.scan w.db.rows) w.db.rows w'.db.rows
      ∧ w'.broker = w.broker := by
  obtain ⟨hm₀, hquiet⟩ := List.forall_mem_cons.1 hquiet
  obtain ⟨hm₁, hquiet⟩ := List.forall_mem_cons.1 hquiet
  have hpass := reconcile_passAmid (C := Move.Quiet) (E := Eq)
    (fun m w hm => (hm.interfere w).symm) hseam hquiet horders hrun
  rw [hm₀.interfere, hm₁.interfere] at hpass
  obtain ⟨_, w₂, w₃, _, positionIds, rfl, hintents, horphans, rfl, hnd, hmem,
    hpositions⟩ := hpass.turns
  have hrows : ∀ {T : Rows → Rows → Prop} {w w' : World}, Turned Eq T w w' →
      T w.db.rows w'.db.rows ∧ w'.broker = w.broker := by
    intro T w w' h
    obtain ⟨v, rfl, hT, hbroker⟩ := h
    exact ⟨hT, hbroker⟩
  have hsame : ∀ {T : Nat → Rows → Rows → Prop} {ids : List Nat}
      {w w' : World}, Turns (fun id => Turned Eq (T id)) ids w w' →
      w'.broker = w.broker := by
    intro T ids w w' h
    induction h with
    | nil => rfl
    | cons turn turns ih => exact ih.trans (hrows turn).2
  exact ⟨⟨_, _, positionIds, hintents.map (·.db.rows) fun _ _ _ h => (hrows h).1,
    (hrows horphans).1, hnd, hmem,
    hpositions.map (·.db.rows) fun _ _ _ h => (hrows h).1⟩,
    (hsame hpositions).trans ((hrows horphans).2.trans (hsame hintents))⟩

end ReconciliationEngine

end AlgoPlatform
