/-
The audit trail of a position is a path of the state graph.

# The law

`transition_state` moves a position and appends the audit row of the
move. The strategy calls it through the gate of the state machine; the
reconciliation calls it directly, from whatever state its session found
the row in. Either way, in any interleaving of entries, exits,
recoveries and passes, a position's audit rows form a path of
`_ALLOWED_TRANSITIONS` from ENTRY_PENDING to the state its row is in.

# The argument

`Charted` says so of the rows, and it is kept commit by commit. A commit
that moves no position keeps it; one that moves a position does so
along an edge the state it read allows, and version checks let no commit
through whose position row has changed since it was read, which is why a
unit of work is one act.
-/
import AlgoPlatform.Basis.Pool
import AlgoPlatform.Proofs.Jobs
import AlgoPlatform.Proofs.Reconcile

open Basis Basis.Session

namespace AlgoPlatform

-- ============================================================== the law

/-- The audit rows of a position, in order. -/
def trail (r : Rows) (id : Nat) : List PositionStateTransition :=
  r.transitions.filter (·.positionId = id)

/-- Audit rows that lead from one state to another, each along an edge
its actor may take. -/
def Path : PositionState → List PositionStateTransition → PositionState → Prop
  | s, [], s' => s = s'
  | s, t :: ts, s' => t.fromState = some s
      ∧ isTransitionAllowedForActor s t.toState t.actor = true
      ∧ Path t.toState ts s'

instance : ∀ s ts s', Decidable (Path s ts s')
  | s, [], s' => inferInstanceAs (Decidable (s = s'))
  | _, t :: ts, s' =>
      have := instDecidablePath t.toState ts s'
      inferInstanceAs (Decidable (_ ∧ _ ∧ _))

/-- Every position's trail leads from ENTRY_PENDING to its state, and
there is no trail without a position. -/
structure Charted (r : Rows) : Prop where
  path : ∀ (id : Nat) (p : Position), r.positions[id]? = some p →
    Path .entryPending (trail r id) p.state
  absent : ∀ id, r.positions[id]? = none → trail r id = []

/-- The writers that move positions: the jobs of any number of
instances, and the startup reconciliation. -/
inductive Writer
  | strategy (ctx : StrategyContext) (job : Job)
  | reconcile

/-- The program of a writer. -/
def Writer.program (reconciler : Option PositionReconciler) :
    Writer → Program Unit
  | .strategy ctx job => job.program ctx
  | .reconcile => discard (ReconciliationEngine.reconcile reconciler)

-- ================================================================= paths

theorem path_snoc {s s' : PositionState} {ts : List PositionStateTransition}
    (h : Path s ts s') {t : PositionStateTransition}
    (hfrom : t.fromState = some s')
    (hedge : isTransitionAllowedForActor s' t.toState t.actor = true) :
    Path s (ts ++ [t]) t.toState := by
  induction ts generalizing s with
  | nil =>
      cases h
      exact ⟨hfrom, hedge, rfl⟩
  | cons t' ts ih =>
      obtain ⟨hfrom', hedge', hrest⟩ := h
      exact ⟨hfrom', hedge', ih hrest⟩

variable {r r' : Rows} {id : Nat}

/-- What does not touch positions' states or audit rows keeps the
chart. -/
theorem Charted.of_states (h : Charted r)
    (htransitions : r'.transitions = r.transitions)
    (hpositions : r'.positions.map (·.state) = r.positions.map (·.state)) :
    Charted r' := by
  have htrail : ∀ id, trail r' id = trail r id := by
    intro id
    unfold trail
    rw [htransitions]
  have hstate : ∀ id : Nat, (r'.positions[id]?).map (·.state)
      = (r.positions[id]?).map (·.state) := by
    intro id
    rw [← List.getElem?_map, ← List.getElem?_map, hpositions]
  constructor
  · intro id p' hp'
    have hstate' := hstate id
    rw [hp'] at hstate'
    obtain ⟨p, hp, hsame⟩ := Option.map_eq_some_iff.1 hstate'.symm
    have hsame' : p.state = p'.state := hsame
    rw [htrail, ← hsame']
    exact h.path id p hp
  · intro id hnone
    have hstate' := hstate id
    rw [hnone] at hstate'
    rw [htrail]
    exact h.absent id (Option.map_eq_none_iff.1 hstate'.symm)

/-- One position moves along a legal edge, and its audit row is
appended. -/
theorem Charted.move (h : Charted r) {p : Position}
    (hp : r.positions[id]? = some p) {f : Position → Position}
    {t : PositionStateTransition} (hof : t.positionId = id)
    (hfrom : t.fromState = some p.state) (hto : t.toState = (f p).state)
    (hedge : isTransitionAllowedForActor p.state t.toState t.actor = true)
    (hpositions : r'.positions = r.positions.modify id f)
    (htransitions : r'.transitions = r.transitions ++ [t]) : Charted r' := by
  have htrail : ∀ j, trail r' j = trail r j ++ if j = id then [t] else [] := by
    intro j
    unfold trail
    rw [htransitions, List.filter_append]
    by_cases hj : j = id
    · simp [hj, hof]
    · simp [hj, hof, Ne.symm hj]
  constructor
  · intro j p' hp'
    rw [hpositions, List.getElem?_modify] at hp'
    rw [htrail]
    by_cases hj : j = id
    · subst hj
      rw [hp] at hp'
      simp only [if_true, Option.map_eq_map, Option.map_some,
        Option.some.injEq] at hp' ⊢
      rw [← hp', ← hto]
      exact path_snoc (h.path j p hp) hfrom hedge
    · have hkept : r.positions[j]? = some p' := by
        simpa [Ne.symm hj] using hp'
      rw [if_neg hj, List.append_nil]
      exact h.path j p' hkept
  · intro j hnone
    have hj : j ≠ id := by
      intro hj
      rw [hpositions, List.getElem?_modify, hj, hp] at hnone
      simp at hnone
    rw [htrail, if_neg hj, List.append_nil]
    refine h.absent j ?_
    rw [hpositions, List.getElem?_modify] at hnone
    simpa [Ne.symm hj] using hnone

/-- A position is created in ENTRY_PENDING, without a trail. -/
theorem Charted.insert (h : Charted r) {p : Position}
    (hp : p.state = .entryPending) :
    Charted { r with positions := r.positions ++ [p] } := by
  constructor
  · intro id q hq
    rcases Nat.lt_trichotomy id r.positions.length with hlt | heq | hgt
    · rw [List.getElem?_append_left hlt] at hq
      exact h.path id q hq
    · subst heq
      rw [List.getElem?_append_right le_rfl] at hq
      simp only [Nat.sub_self, List.getElem?_cons_zero, Option.some.injEq] at hq
      subst hq
      have hempty : trail r r.positions.length = [] :=
        h.absent _ (List.getElem?_eq_none le_rfl)
      show Path .entryPending (trail r r.positions.length) _
      rw [hempty]
      exact hp.symm
    · rw [List.getElem?_eq_none (by simp; omega)] at hq
      cases hq
  · intro id hnone
    refine h.absent id (List.getElem?_eq_none ?_)
    have hlength := List.getElem?_eq_none_iff.1 hnone
    rw [List.length_append] at hlength
    omega

/-- Rows without positions are charted. -/
theorem charted_of_empty {db : Db} (h : db.rows.positions = []) :
    Charted db.rows := by
  constructor
  · intro id p hp
    rw [h] at hp
    cases hp
  · intro id _
    unfold trail
    rw [List.filter_eq_nil_iff]
    intro t ht
    have hlinked : t.positionId < db.rows.positions.length :=
      (show Rows.Admissible db.rows from db.admitted).linked.transitions t ht
    rw [h] at hlinked
    cases hlinked

-- =============================================================== commits

/-- A commit that keeps the chart. -/
def Charts (r r' : Rows) : Prop := Charted r → Charted r'

instance : BlindToOrders Charts where
  refl := fun _ h => h
  trans := fun h h' hr => h' (h hr)
  orders := fun _ _ h => h.of_states rfl rfl
  breaks := fun _ _ h => h.of_states rfl rfl

/-- A write to a position's other columns keeps the chart. -/
theorem charts_setPosition (r : Rows) (i : Nat) {f : Position → Position}
    (hf : ∀ p : Position, (f p).state = p.state) :
    Charts r (r.setPosition i f) := by
  intro h
  refine h.of_states rfl ?_
  rw [Rows.setPosition_positions]
  exact map_modify_of_eq fun p _ => hf p

/-- `transition_state`, from a state that allows the edge. -/
theorem transitionState_charts {db : Db} {p : Position}
    (hp : db.rows.positions[id]? = some p) {toState : PositionState}
    {actor : StateTransitionActor}
    (hedge : isTransitionAllowedForActor p.state toState actor = true)
    (reason : Option String) :
    Meets (PositionRepository.transitionState id toState actor reason) db
      (fun _ db' => Charts db.rows db'.rows) fun _ => True := by
  unfold PositionRepository.transitionState PositionRepository.getById
  rw [meets_bind, meets_fetch, hp, meets_bind, meets_orRaise]
  refine ⟨fun q hq => ?_, nofun⟩
  cases hq
  rw [meets_flush]
  refine ⟨fun _ h => ?_, fun _ => trivial⟩
  exact h.move hp (t := ⟨id, some p.state, toState, reason, actor⟩) rfl rfl rfl
    hedge rfl rfl

/-- The gate lets nothing through that the state does not allow. -/
theorem transition_charts (id : Nat) (toState : PositionState)
    (actor : StateTransitionActor) (reason : String) :
    Keeps Charts (PositionStateMachine.transition id toState actor reason) := by
  intro db
  unfold PositionStateMachine.transition PositionRepository.getById
  rw [meets_bind, meets_fetch, meets_bind, meets_orRaise]
  refine ⟨fun p hp => ?_, fun _ => trivial⟩
  rw [meets_ite]
  refine ⟨fun _ => ?_, fun _ => ?_⟩
  · exact keeps_pure () db
  · rw [meets_ite]
    refine ⟨fun hedge => transitionState_charts hp hedge _, fun _ => ?_⟩
    exact keeps_throw _ db

theorem allowsTrading_charts : AllowsTrading Charts where
  intents := fun _ _ h => h.of_states rfl rfl
  intent := fun _ => ⟨fun _ _ h => h.of_states rfl rfl,
    fun _ h => h.of_states rfl rfl⟩
  trades := fun _ _ _ h => h.of_states rfl rfl
  trade := fun _ _ _ _ h => h.of_states rfl rfl
  inst := fun _ _ _ h => h.of_states rfl rfl
  position := fun r i _ hf => charts_setPosition r i fun p => (hf p).state
  transition := transition_charts

theorem allowsEntry_charts (ctx : StrategyContext) :
    AllowsEntry Charts ctx := by
  intro selection
  refine keeps_getOrCreate (keeps_getByInstanceAndDate _ _) ?_
  refine keeps_bind (keeps_fetch _) fun _ => ?_
  exact keeps_bind (keeps_flush fun r h => h.insert rfl) fun _ => keeps_pure _

-- ====================================================== the reconciliation

/-- What the seam's docstring promises: from the state the engine calls
it in, it computes the figures and moves the position one edge on. -/
structure PositionReconciler.Moves (id : Nat) (fromState toState : PositionState)
    (r r' : Rows) : Prop where
  states : r'.positions.map (·.state)
    = (r.positions.modify id fun p => { p with state := toState }).map (·.state)
  transitions : ∃ reason actor, r'.transitions
    = r.transitions ++ [⟨id, some fromState, toState, reason, actor⟩]

/-- The seam keeps its docstring: `finalize_entry` drives ENTRY_PENDING
to OPEN, `finalize_exit` EXIT_PENDING to CLOSED. -/
structure PositionReconciler.Documented (s : PositionReconciler) : Prop where
  entry : ∀ id (db : Db) p, db.rows.positions[id]? = some p →
    p.state = .entryPending → Meets (s.finalizeEntry id) db
      (fun _ db' => Moves id .entryPending .open db.rows db'.rows)
      fun _ => True
  exit : ∀ id (db : Db) p, db.rows.positions[id]? = some p →
    p.state = .exitPending → Meets (s.finalizeExit id) db
      (fun _ db' => Moves id .exitPending .closed db.rows db'.rows)
      fun _ => True

/-- An edge the seam takes keeps the chart. -/
theorem PositionReconciler.Moves.charts {p : Position}
    {fromState toState : PositionState}
    (h : Moves id fromState toState r r')
    (hp : r.positions[id]? = some p) (hstate : p.state = fromState)
    (hedge : ∀ actor,
      isTransitionAllowedForActor fromState toState actor = true) :
    Charts r r' := by
  intro hr
  obtain ⟨reason, actor, htransitions⟩ := h.transitions
  -- the same move, without the figures
  have hmoved : Charted { r with
      positions := r.positions.modify id fun p => { p with state := toState },
      transitions := r'.transitions } := by
    subst hstate
    exact hr.move hp (t := ⟨id, some p.state, toState, reason, actor⟩) rfl rfl
      rfl (hedge actor) rfl htransitions
  exact hmoved.of_states rfl h.states

namespace ReconciliationEngine

theorem allowsFills_charts : AllowsFills Charts where
  breaks := fun _ _ h => h.of_states rfl rfl
  status := fun _ _ _ h => h.of_states rfl rfl
  fill := fun _ _ _ _ h => h.of_states rfl rfl

/-- Into ERROR, from any state but CLOSED and ERROR. -/
theorem errorByRecovery_charts {db : Db} {p : Position}
    (hp : db.rows.positions[id]? = some p)
    (hlive : ¬ (p.state = .closed ∨ p.state = .error))
    (strategyInstanceId : Nat) (reason : String) :
    Meets (errorByRecovery id strategyInstanceId reason) db
      (fun _ db' => Charts db.rows db'.rows) fun _ => True := by
  unfold errorByRecovery PositionRepository.update
  rw [meets_bind, meets_flush]
  refine ⟨fun hadmits => ?_, fun _ => trivial⟩
  -- the error columns; the row is still in the state it was in
  have hflag := charts_setPosition db.rows id (f := fun p : Position =>
    { p with errorMessage := some reason, needsReconciliation := true })
    fun _ => rfl
  have hp' : (db.rows.setPosition id fun p : Position =>
      { p with errorMessage := some reason,
               needsReconciliation := true }).positions[id]?
      = some { p with errorMessage := some reason,
                      needsReconciliation := true } := by
    rw [Rows.setPosition_positions, List.getElem?_modify, hp]
    simp
  rw [meets_bind]
  refine (@transitionState_charts id ⟨_, hadmits⟩ _ hp' _ _ ?_ _).imp
    (fun _ db₂ hmove => ?_) fun _ h => h
  · show isTransitionAllowedForActor p.state _ _ = true
    cases hs : p.state with
    | closed => exact absurd (.inl hs) hlive
    | error => exact absurd (.inr hs) hlive
    | _ => rfl
  · refine (keeps_bind (R := Charts) (keeps_fetch _) (fun row => ?_) db₂).imp
      (fun _ db₃ hfreeze h => hfreeze (hmove (hflag h))) fun _ h => h
    cases row with
    | none => exact keeps_pure _
    | some inst =>
        exact keeps_ite (keeps_flush fun _ h => h.of_states rfl rfl)
          (keeps_pure _)

private theorem keeps_charts_errorPositionOfIntent (intent : OrderIntent)
    (reason : String) :
    Keeps Charts (errorPositionOfIntent intent reason) := by
  refine keeps_bind (keeps_fetch _) fun trade => ?_
  cases trade with
  | none => exact keeps_pure _
  | some trade =>
      intro db
      unfold PositionRepository.getById
      rw [meets_bind, meets_fetch]
      cases hp : db.rows.positions[trade.positionId]? with
      | none => exact keeps_pure () db
      | some position =>
          dsimp only
          rw [meets_ite]
          exact ⟨fun _ => keeps_pure () db,
            fun hlive => errorByRecovery_charts hp hlive _ _⟩

theorem keeps_charts_intentSession (intentId : Nat)
    (ordersByTag : List (String × List BrokerOrder)) :
    Keeps Charts (intentSession intentId ordersByTag) := by
  refine keeps_bind (keeps_fetch _) fun row => ?_
  cases row with
  | none => exact keeps_pure _
  | some intent =>
      refine keeps_ite ?_ (keeps_pure _)
      rcases ordersUnder ordersByTag intent.brokerTag with _ | ⟨bo, _ | _⟩
      · exact keeps_bind (keeps_markStatus
          (allowsFills_charts.status _ _)) fun _ => keeps_pure _
      · exact keeps_resolveIntentAgainstOrder allowsFills_charts _ _ _
      · exact keeps_bind (keeps_recordBreak allowsFills_charts.breaks) fun _ =>
          keeps_bind (keeps_charts_errorPositionOfIntent _ _) fun _ =>
            keeps_pure _

/-- Deciding a position moves it along an edge of the state it was read
in. -/
theorem keeps_charts_positionSession {reconciler : Option PositionReconciler}
    (hdoc : ∀ s ∈ reconciler, s.Documented) (id : Nat)
    (live : Option (List String)) (scan : List Nat) :
    Keeps Charts (positionSession reconciler id live scan) := by
  intro db
  unfold positionSession PositionRepository.getById
    PositionRepository.listTradesForPosition
  rw [meets_bind, meets_fetch]
  cases hp : db.rows.positions[id]? with
  | none => exact keeps_pure _ db
  | some p =>
      dsimp only
      rw [meets_ite]
      refine ⟨fun _ => keeps_pure _ db, fun hlive => ?_⟩
      rw [meets_bind, meets_fetch]
      have herror : ∀ breakType name reason,
          Meets (errorPosition id p breakType name reason) db
            (fun _ db' => Charts db.rows db'.rows) fun _ => True := by
        intro breakType name reason
        unfold errorPosition
        rw [meets_bind]
        refine (errorByRecovery_charts hp hlive _ _).imp (fun _ db₁ h₁ => ?_)
          fun _ h => h
        refine (keeps_bind (R := Charts)
          (keeps_recordBreak allowsFills_charts.breaks)
          (fun _ => keeps_pure _) db₁).imp
          (fun _ db₂ h₂ h => h₂ (h₁ h)) fun _ h => h
      have hfinalize : ∀ seam outcome detail missing,
          (∀ s ∈ reconciler, Meets (seam s id) db
            (fun _ db' => Charts db.rows db'.rows) fun _ => True) →
          Meets (finalize reconciler id seam outcome detail missing) db
            (fun _ db' => Charts db.rows db'.rows) fun _ => True := by
        intro seam outcome detail missing hseam
        cases reconciler with
        | none =>
            refine keeps_bind (R := Charts)
              (keeps_recordBreak allowsFills_charts.breaks) (fun _ => ?_) db
            exact keeps_bind (keeps_flush fun r =>
              charts_setPosition r _ fun _ => rfl) fun _ => keeps_pure _
        | some s =>
            unfold finalize
            dsimp only
            rw [meets_bind]
            exact (hseam s rfl).imp (fun _ _ h => h) fun _ h => h
      cases hs : p.state with
      | closed => exact absurd (.inl hs) hlive
      | error => exact absurd (.inr hs) hlive
      | entryPending =>
          dsimp only
          unfold reconcileEntryPending
          rw [meets_ite, meets_ite]
          refine ⟨fun _ => ?_, fun _ => ⟨fun _ => ?_, fun _ => herror _ _ _⟩⟩
          · refine hfinalize _ _ _ _ fun s hs' => ?_
            refine ((hdoc s hs').entry id db p hp hs).imp
              (fun _ _ h => h.charts hp hs fun actor => ?_) fun _ h => h
            cases actor <;> rfl
          · rw [meets_bind]
            refine (transitionState_charts hp ?_ _).imp (fun _ _ h => h)
              fun _ h => h
            rw [hs]
            rfl
      | exitPending =>
          dsimp only
          unfold reconcileExitPending
          rw [meets_ite, meets_ite]
          refine ⟨fun _ => ?_, fun _ => ⟨fun _ => herror _ _ _, fun _ => ?_⟩⟩
          · refine hfinalize _ _ _ _ fun s hs' => ?_
            refine ((hdoc s hs').exit id db p hp hs).imp
              (fun _ _ h => h.charts hp hs fun actor => ?_) fun _ h => h
            cases actor <;> rfl
          · exact keeps_pure _ db
      | _ =>
          dsimp only
          unfold reconcileOpen
          cases live with
          | none => exact keeps_pure _ db
          | some live =>
              dsimp only
              rw [meets_ite]
              exact ⟨fun _ => herror _ _ _, fun _ => keeps_pure _ db⟩

end ReconciliationEngine

-- ================================================================== runs

/-- Every act of every writer keeps the chart. -/
theorem along_charts {reconciler : Option PositionReconciler}
    (hdoc : ∀ s ∈ reconciler, s.Documented) (writer : Writer) :
    Prog.Along (OnRows Charts) (writer.program reconciler) := by
  cases writer with
  | strategy ctx job =>
      exact allowsTrading_charts.cycles.bears.job ctx (allowsEntry_charts ctx) job
  | reconcile =>
      exact Prog.along_discard (along_onRows
        (ReconciliationEngine.along_reconcile
          ReconciliationEngine.keeps_charts_intentSession
          ReconciliationEngine.allowsFills_charts.breaks
          (ReconciliationEngine.keeps_charts_positionSession hdoc)))

/-- In every interleaving of the writers, each cut off anywhere, every
position's audit rows stay a path of the graph from ENTRY_PENDING to its
state. -/
theorem states_follow_graph {reconciler : Option PositionReconciler}
    (hdoc : ∀ s ∈ reconciler, s.Documented) {w : World}
    (hw : Charted w.db.rows) (es : List (Pool.Event Writer Move)) :
    Charted (Pool.run (Writer.program reconciler) (Pool.idle w) es).state.db.rows := by
  have hrun : OnRows Charts w
      (Pool.run (Writer.program reconciler) (Pool.idle w) es).state :=
    Pool.run_along (p := Pool.idle w) (along_charts hdoc) (fun _ ht => nomatch ht) es
  exact hrun hw

namespace SampleDay

/-- The sample seam moves a position by `transition_state` alone. -/
theorem seam_moves {db : Db} {p : Position}
    {fromState toState : PositionState}
    (hp : db.rows.positions[id]? = some p) (hstate : p.state = fromState) :
    Meets (PositionRepository.transitionState id toState .recovery none) db
      (fun _ db' => PositionReconciler.Moves id fromState toState db.rows
        db'.rows) fun _ => True := by
  unfold PositionRepository.transitionState PositionRepository.getById
  rw [meets_bind, meets_fetch, hp, meets_bind, meets_orRaise]
  refine ⟨fun q hq => ?_, nofun⟩
  cases hq
  rw [meets_flush]
  refine ⟨fun _ => ⟨rfl, none, .recovery, ?_⟩, fun _ => trivial⟩
  rw [← hstate]

theorem seam_documented : seam.Documented where
  entry := fun _ _ _ hp hstate => seam_moves hp hstate
  exit := fun _ _ _ hp hstate => seam_moves hp hstate

/-- An entry and a pass started beside each other, and cut off. -/
theorem states_follow_graph_morning : Charted (Pool.run
    (Writer.program (some seam)) (Pool.idle morning)
    [.start (.strategy ctx (.enter inputs)), .start .reconcile, .acts 0 still,
      .acts 1 still, .acts 0 still, .acts 1 still, .acts 1 still, .acts 0 still,
      .acts 1 still]).state.db.rows :=
  states_follow_graph (fun s hs => by cases hs; exact seam_documented)
    (charted_of_empty rfl) _

end SampleDay

end AlgoPlatform
