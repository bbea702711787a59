/-
Every ending is accounted for, and an ERROR is isolated.

# The law

Three things hold of the rows whatever entries, exits, recoveries,
passes, freezes and operators do beside each other (`Vouched`). An audit
row into EXIT_PENDING names a reason some exit was triggered for, and a
position's exit reason is such a one, or ERROR. A position in ERROR
belongs to a FROZEN instance, unless an operator cleared that instance.

# The argument

A session that moves a position to ERROR freezes the instance in the same
commit, so the law is asked of commits and not of the statements in them:
between the two writes it holds with that instance cleared (`Vouched.mono`,
`Vouched.froze`). That the instance frozen is the position's own is what
the thread knows since it looked the position up, and nobody moves a
position to another instance (`Belongs`). A recovery finds the reason in
the trail, so it repeats one that was given.
-/
import AlgoPlatform.Model.InstanceAdmin
import AlgoPlatform.Proofs.Beside
import AlgoPlatform.Proofs.Finality

open Basis Basis.Session

namespace AlgoPlatform

-- ============================================================== the law

/-- The instance is FROZEN. -/
def Rows.Frozen (r : Rows) (instanceId : Nat) : Prop :=
  ∃ inst : StrategyInstance, r.instances[instanceId]? = some inst
    ∧ inst.status = .frozen

/-- An audit row into EXIT_PENDING names one of these reasons. -/
def PositionStateTransition.Names (given : ExitReason → Prop)
    (t : PositionStateTransition) : Prop :=
  t.toState = .exitPending →
    ∃ x, given x ∧ t.reason = some ("exit triggered: " ++ x.value)

/-- How a position came to its state is accounted for. -/
structure Position.Vouched (given : ExitReason → Prop) (cleared : Nat → Prop)
    (r : Rows) (id : Nat) (p : Position) : Prop where
  trailed : p.state = .exitPending →
    ∃ t ∈ r.transitions, t.positionId = id ∧ t.toState = .exitPending
  ended : ∀ x, p.exitReason = some x → x = .error ∨ given x
  quarantined : p.state = .error →
    cleared p.strategyInstanceId ∨ r.Frozen p.strategyInstanceId

/-- The law, where exits were given these reasons and an operator cleared
these instances. -/
structure Vouched (given : ExitReason → Prop) (cleared : Nat → Prop)
    (r : Rows) : Prop where
  named : ∀ t ∈ r.transitions, t.Names given
  positions : ∀ (id : Nat) (p : Position), r.positions[id]? = some p →
    p.Vouched given cleared r id

/-- What every commit does: it keeps the law, thaws nothing an operator
has not cleared, and takes no position away. -/
structure Vouches (given : ExitReason → Prop) (cleared : Nat → Prop)
    (r r' : Rows) : Prop where
  accrues : Accrues r r'
  frozen : ∀ k, ¬ cleared k → r.Frozen k → r'.Frozen k
  vouched : Vouched given cleared r → Vouched given cleared r'

variable {given : ExitReason → Prop} {cleared : Nat → Prop} {r r' : Rows}

-- ============================================================== the rows

theorem Position.Vouched.kept {id : Nat} {p : Position}
    (h : p.Vouched given cleared r id)
    (htransitions : r.transitions <+: r'.transitions)
    (hfrozen : ∀ k, ¬ cleared k → r.Frozen k → r'.Frozen k) :
    p.Vouched given cleared r' id where
  trailed := by
    intro hstate
    obtain ⟨t, ht, hof⟩ := h.trailed hstate
    exact ⟨t, htransitions.subset ht, hof⟩
  ended := h.ended
  quarantined := by
    intro hstate
    by_cases hcleared : cleared p.strategyInstanceId
    · exact .inl hcleared
    · exact .inr (hfrozen _ hcleared
        ((h.quarantined hstate).resolve_left hcleared))

/-- The law is kept position by position. -/
theorem Vouched.of_positions (h : Vouched given cleared r)
    (htransitions : r.transitions <+: r'.transitions)
    (hfrozen : ∀ k, ¬ cleared k → r.Frozen k → r'.Frozen k)
    (hnamed : ∀ t ∈ r'.transitions, t ∈ r.transitions ∨ t.Names given)
    (hpositions : ∀ (id : Nat) (q : Position), r'.positions[id]? = some q →
      r.positions[id]? = some q ∨ q.Vouched given cleared r' id) :
    Vouched given cleared r' where
  named := fun t ht => (hnamed t ht).elim (h.named t) id
  positions := fun id q hq => (hpositions id q hq).elim
    (fun hold => (h.positions id q hold).kept htransitions hfrozen) fun hnew => hnew

/-- What touches no position, no instance and no audit row. -/
theorem vouches_of_eq (hpositions : r'.positions = r.positions)
    (htransitions : r'.transitions = r.transitions)
    (hinstances : r'.instances = r.instances) :
    Vouches given cleared r r' := by
  have hfrozen : ∀ k, ¬ cleared k → r.Frozen k → r'.Frozen k := by
    intro k _ h
    unfold Rows.Frozen
    rw [hinstances]
    exact h
  have hkept : r.transitions <+: r'.transitions :=
    ⟨[], by rw [List.append_nil, htransitions]⟩
  refine ⟨accrues_of_origins (by rw [hpositions]) hkept, hfrozen, fun h => ?_⟩
  refine h.of_positions hkept hfrozen
    (fun t ht => .inl (htransitions ▸ ht)) fun id q hq => .inl ?_
  rw [← hpositions]
  exact hq

instance : BlindToOrders (Vouches given cleared) where
  refl := fun _ => vouches_of_eq rfl rfl rfl
  trans := fun h h' => ⟨Session.Frame.trans h.accrues h'.accrues,
    fun k hk hr => h'.frozen k hk (h.frozen k hk hr),
    fun hr => h'.vouched (h.vouched hr)⟩
  orders := fun _ _ => vouches_of_eq rfl rfl rfl
  breaks := fun _ _ => vouches_of_eq rfl rfl rfl

/-- Rows without positions are vouched for. -/
theorem vouched_of_empty {db : Db} (h : db.rows.positions = []) :
    Vouched given cleared db.rows := by
  constructor
  · intro t ht
    have hlinked : t.positionId < db.rows.positions.length :=
      (show Rows.Admissible db.rows from db.admitted).linked.transitions t ht
    rw [h] at hlinked
    cases hlinked
  · intro id p hp
    rw [h] at hp
    cases hp

theorem Vouched.mono {cleared' : Nat → Prop} (h : Vouched given cleared r)
    (hcleared : ∀ k, cleared k → cleared' k) : Vouched given cleared' r where
  named := h.named
  positions := fun id p hp => ⟨(h.positions id p hp).trailed,
    (h.positions id p hp).ended,
    fun hstate => ((h.positions id p hp).quarantined hstate).imp_left
      (hcleared _)⟩

/-- An instance that is FROZEN need not have been cleared. -/
theorem Vouched.froze {k : Nat}
    (h : Vouched given (fun i => cleared i ∨ i = k) r) (hk : r.Frozen k) :
    Vouched given cleared r where
  named := h.named
  positions := by
    intro id p hp
    refine ⟨(h.positions id p hp).trailed, (h.positions id p hp).ended,
      fun hstate => ?_⟩
    rcases (h.positions id p hp).quarantined hstate with (hc | hown) | hf
    · exact .inl hc
    · exact .inr (hown ▸ hk)
    · exact .inr hf

/-- A write to a position's other columns, its exit reason a given one or
ERROR. -/
theorem vouches_update (r : Rows) (i : Nat) {f : Position → Position}
    (hf : ∀ p : Position, p.Stands (f p) ∧ ((f p).exitReason = p.exitReason
      ∨ ∃ x, (f p).exitReason = some x ∧ (x = .error ∨ given x))) :
    Vouches given cleared r (r.setPosition i f) := by
  refine ⟨accrues_of_origins (map_modify_of_eq fun p _ => Prod.ext
      (hf p).1.strategyInstanceId (hf p).1.tradeDate) (List.prefix_refl _),
    fun _ _ h => h, fun h => ?_⟩
  refine h.of_positions (List.prefix_refl _) (fun _ _ h => h)
    (fun t ht => .inl ht) fun id q hq => ?_
  rw [Rows.setPosition_positions, List.getElem?_modify] at hq
  obtain ⟨p, hp, hpq⟩ := Option.map_eq_some_iff.1 hq
  by_cases hi : i = id
  · rw [if_pos hi] at hpq
    subst hpq
    have hold := h.positions id p hp
    obtain ⟨⟨hstate, hinstance, -⟩, hreason⟩ := hf p
    refine .inr ⟨fun hs => hold.trailed (hstate ▸ hs), fun x hx => ?_,
      fun hs => ?_⟩
    · rcases hreason with hsame | ⟨y, hy, hallowed⟩
      · exact hold.ended x (hsame ▸ hx)
      · rw [hx] at hy
        cases hy
        exact hallowed
    · rw [hinstance]
      exact hold.quarantined (hstate ▸ hs)
  · rw [if_neg hi] at hpq
    exact .inl (hpq ▸ hp)

/-- A write to another instance. -/
theorem Rows.Frozen.setOther {k i : Nat} (h : r.Frozen k) (hne : i ≠ k)
    (f : StrategyInstance → StrategyInstance) :
    (r.setInstance i f).Frozen k := by
  obtain ⟨inst, hinst, hstatus⟩ := h
  unfold Rows.Frozen Rows.setInstance
  dsimp only
  rw [List.getElem?_modify, hinst, Option.map_eq_map, Option.map_some,
    if_neg hne]
  exact ⟨inst, rfl, hstatus⟩

/-- Freezing an instance thaws none. -/
theorem Rows.Frozen.setFrozen {k : Nat} (h : r.Frozen k) (i : Nat) :
    (r.setInstance i fun s => { s with status := .frozen }).Frozen k := by
  by_cases hi : i = k
  · obtain ⟨inst, hinst, hstatus⟩ := h
    unfold Rows.Frozen Rows.setInstance
    dsimp only
    rw [List.getElem?_modify, hinst, Option.map_eq_map, Option.map_some,
      if_pos hi]
    exact ⟨_, rfl, rfl⟩
  · exact h.setOther hi _

-- ========================================================== the sessions

/-- Freezing an instance that exists leaves it FROZEN. -/
theorem freezeInstance_vouches (given : ExitReason → Prop)
    (cleared : Nat → Prop) (k : Nat) (db : Db) :
    Meets (Bookkeeping.freezeInstance k) db
      (fun _ db' => Vouches given cleared db.rows db'.rows
        ∧ (k < db.rows.instances.length → db'.rows.Frozen k))
      fun _ => True := by
  unfold Bookkeeping.freezeInstance StrategyInstanceRepository.getById
  rw [meets_bind, meets_fetch]
  cases hinst : db.rows.instances[k]? with
  | none =>
      exact ⟨vouches_of_eq rfl rfl rfl, fun hk =>
        absurd (List.getElem?_eq_none_iff.1 hinst) (Nat.not_le.2 hk)⟩
  | some inst =>
      dsimp only
      rw [meets_ite]
      refine ⟨fun _ => ?_, fun hfrozen => ?_⟩
      · unfold StrategyInstanceRepository.setStatus
        rw [meets_flush]
        refine ⟨fun _ => ⟨⟨accrues_of_origins rfl (List.prefix_refl _),
          fun j _ hj => hj.setFrozen k, fun h => ?_⟩, fun _ => ?_⟩,
          fun _ => trivial⟩
        · exact h.of_positions (List.prefix_refl _)
            (fun j _ hj => hj.setFrozen k) (fun t ht => .inl ht)
            fun _ _ hq => .inl hq
        · unfold Rows.Frozen Rows.setInstance
          dsimp only
          rw [List.getElem?_modify, hinst, Option.map_eq_map, Option.map_some,
            if_pos rfl]
          exact ⟨_, rfl, rfl⟩
      · exact ⟨vouches_of_eq rfl rfl rfl, fun _ =>
          ⟨inst, hinst, not_not.1 hfrozen⟩⟩

/-- `transition_state`, by what the audit row says and whose position it
moves. -/
theorem transitionState_vouches {db : Db} {id : Nat} {toState : PositionState}
    {actor : StateTransitionActor} {reason : Option String}
    (hnamed : toState = .exitPending →
      ∃ x, given x ∧ reason = some ("exit triggered: " ++ x.value))
    (herror : ∀ p, db.rows.positions[id]? = some p → toState = .error →
      cleared p.strategyInstanceId) :
    Meets (PositionRepository.transitionState id toState actor reason) db
      (fun _ db' => Vouches given cleared db.rows db'.rows) fun _ => True := by
  unfold PositionRepository.transitionState PositionRepository.getById
  rw [meets_bind, meets_fetch, meets_bind, meets_orRaise]
  refine ⟨fun p hp => ?_, fun _ => trivial⟩
  rw [meets_flush]
  refine ⟨fun _ => ⟨accrues_of_origins (map_modify_of_eq fun _ _ => rfl)
    (List.prefix_append _ _), fun _ _ h => h, fun h => ?_⟩, fun _ => trivial⟩
  refine h.of_positions (List.prefix_append _ _) (fun _ _ h => h)
    (fun t ht => ?_) fun i q hq => ?_
  · rcases List.mem_append.1 ht with hold | hnew
    · exact .inl hold
    · rw [List.mem_singleton.1 hnew]
      exact .inr hnamed
  · dsimp only at hq
    rw [Rows.setPosition_positions, List.getElem?_modify] at hq
    obtain ⟨p', hp', hpq⟩ := Option.map_eq_some_iff.1 hq
    by_cases hi : id = i
    · subst hi
      rw [if_pos rfl] at hpq
      subst hpq
      rw [hp] at hp'
      cases hp'
      exact .inr ⟨fun _ => ⟨_, List.mem_append_right _
          (List.mem_singleton_self _), rfl, ‹_›⟩,
        (h.positions id p hp).ended, fun hs => .inl (herror p hp hs)⟩
    · rw [if_neg hi] at hpq
      exact .inl (hpq ▸ hp')

/-- The gate lets the same things through, or nothing. -/
theorem transition_vouches {db : Db} {id : Nat} {toState : PositionState}
    {actor : StateTransitionActor} {reason : String}
    (hnamed : toState = .exitPending →
      ∃ x, given x ∧ reason = "exit triggered: " ++ x.value)
    (herror : ∀ p, db.rows.positions[id]? = some p → toState = .error →
      cleared p.strategyInstanceId) :
    Meets (PositionStateMachine.transition id toState actor reason) db
      (fun _ db' => Vouches given cleared db.rows db'.rows) fun _ => True := by
  unfold PositionStateMachine.transition PositionRepository.getById
  rw [meets_bind, meets_fetch, meets_bind, meets_orRaise]
  refine ⟨fun p _ => ?_, fun _ => trivial⟩
  rw [meets_ite]
  refine ⟨fun _ => keeps_pure () db, fun _ => ?_⟩
  rw [meets_ite]
  refine ⟨fun _ => transitionState_vouches (fun hto => ?_) herror,
    fun _ => trivial⟩
  obtain ⟨x, hx, hreason⟩ := hnamed hto
  exact ⟨x, hx, congrArg some hreason⟩

/-- The position is the instance's. -/
def Rows.Belongs (r : Rows) (id instanceId : Nat) : Prop :=
  ∃ p : Position, r.positions[id]? = some p ∧ p.strategyInstanceId = instanceId

theorem Rows.Belongs.kept {id k : Nat} (h : r.Belongs id k)
    (haccrues : Accrues r r') : r'.Belongs id k := by
  obtain ⟨p, hp, hk⟩ := h
  obtain ⟨q, hq, horigin⟩ := haccrues.positions id p hp
  exact ⟨q, hq, (congrArg Prod.fst horigin).trans hk⟩

/-- What a session does with a position of the instance. -/
private def VouchesOf (given : ExitReason → Prop) (cleared : Nat → Prop)
    (id k : Nat) (r r' : Rows) : Prop :=
  r.Belongs id k → Vouches given cleared r r'

private instance {id k : Nat} : BlindToOrders (VouchesOf given cleared id k) where
  refl := fun r _ => Session.Frame.refl r
  trans := fun h h' hk =>
    Session.Frame.trans (h hk) (h' (hk.kept (h hk).accrues))
  orders := fun r _ _ => BlindToPushes.orders r _
  breaks := fun r _ _ => BlindToOrders.breaks r _

/-- An ERROR and a freeze in one commit: in between, the law holds with
the instance cleared. -/
private theorem quarantine {id k : Nat} {body : Session Unit}
    (hbody : Keeps (VouchesOf given (fun i => cleared i ∨ i = k) id k) body)
    {db : Db} (hbelongs : db.rows.Belongs id k) :
    Meets (do body; Bookkeeping.freezeInstance k) db
      (fun _ db' => Vouches given cleared db.rows db'.rows) fun _ => True := by
  rw [meets_bind]
  refine (hbody db).imp (fun _ db₁ hmarked => ?_) fun _ h => h
  obtain ⟨haccrues, hfrozen, hvouched⟩ := hmarked hbelongs
  have hthere : k < db₁.rows.instances.length := by
    obtain ⟨p, hp, rfl⟩ := hbelongs.kept haccrues
    exact db₁.admitted.linked.positions p (List.mem_of_getElem? hp)
  refine (freezeInstance_vouches given (fun i => cleared i ∨ i = k) k db₁).imp
    (fun _ db₂ hfroze => ?_) fun _ h => h
  obtain ⟨hvouches, hisolated⟩ := hfroze
  refine ⟨Session.Frame.trans haccrues hvouches.accrues, fun j hj hjr => ?_,
    fun h => ?_⟩
  · by_cases hown : j = k
    · exact hown ▸ hisolated hthere
    · have hkept := hfrozen j (fun hc => hc.elim hj hown) hjr
      exact hvouches.frozen j (fun hc => hc.elim hj hown) hkept
  · exact (hvouches.vouched (hvouched (h.mono fun _ => .inl))).froze
      (hisolated hthere)

private theorem keeps_vouchesOf_update {id k i : Nat} {f : Position → Position}
    (hf : ∀ p : Position, p.Stands (f p) ∧ ((f p).exitReason = p.exitReason
      ∨ ∃ x, (f p).exitReason = some x ∧ (x = .error ∨ given x))) :
    Keeps (VouchesOf given cleared id k) (PositionRepository.update i f) :=
  keeps_flush fun r _ => vouches_update r i hf

private theorem keeps_vouchesOf_markError {id k : Nat} (hk : cleared k)
    (actor : StateTransitionActor) (reason : String) :
    Keeps (VouchesOf given cleared id k)
      (PositionStateMachine.markError id actor reason) := by
  intro db
  by_cases hbelongs : db.rows.Belongs id k
  · refine (transition_vouches (fun hto => by cases hto) fun p hp _ => ?_).imp
      (fun _ _ h _ => h) fun _ h => h
    obtain ⟨q, hq, rfl⟩ := hbelongs
    rw [hp] at hq
    cases hq
    exact hk
  · exact (keeps_anyRows _ db).imp (fun _ _ _ h => absurd h hbelongs)
      fun _ h => h

/-- The session of `_fail_to_error`, on a position of the instance. -/
theorem failToError_vouches {db : Db} {id k : Nat}
    (hbelongs : db.rows.Belongs id k) (reason : String) :
    Meets (do Bookkeeping.errorPosition id reason; Bookkeeping.freezeInstance k)
      db (fun _ db' => Vouches given cleared db.rows db'.rows)
      fun _ => True := by
  refine quarantine (keeps_bind (keeps_fetch _) fun row => ?_) hbelongs
  cases row with
  | none => exact keeps_pure _
  | some position =>
      exact keeps_ite (keeps_bind (keeps_vouchesOf_update fun _ =>
          ⟨⟨rfl, rfl, rfl⟩, .inr ⟨.error, rfl, .inl rfl⟩⟩) fun _ =>
        keeps_vouchesOf_markError (.inr rfl) _ _) (keeps_pure _)

/-- The session of `_mark_position_error_and_freeze`. -/
theorem markPositionError_vouches {db : Db} {id k : Nat}
    (hbelongs : db.rows.Belongs id k) (reason : String) :
    Meets (do Strategy1.markPositionError id reason
              Bookkeeping.freezeInstance k) db
      (fun _ db' => Vouches given cleared db.rows db'.rows)
      fun _ => True := by
  refine quarantine (keeps_bind (keeps_fetch _) fun row => ?_) hbelongs
  cases row with
  | none => exact keeps_pure _
  | some position =>
      exact keeps_ite (keeps_bind (keeps_vouchesOf_update fun _ =>
          ⟨⟨rfl, rfl, rfl⟩, .inl rfl⟩) fun _ =>
        keeps_vouchesOf_markError (.inr rfl) _ _) (keeps_pure _)

/-- The engine's ERROR, on a position it has read. -/
theorem errorByRecovery_vouches {db : Db} {id : Nat} {p : Position}
    (hp : db.rows.positions[id]? = some p) (reason : String) :
    Meets (ReconciliationEngine.errorByRecovery id p.strategyInstanceId reason)
      db (fun _ db' => Vouches given cleared db.rows db'.rows)
      fun _ => True := by
  have hsession : Meets (do
      (do
        PositionRepository.update id fun p =>
          { p with errorMessage := some reason, needsReconciliation := true }
        PositionRepository.transitionState id .error .recovery (some reason))
      Bookkeeping.freezeInstance p.strategyInstanceId) db
      (fun _ db' => Vouches given cleared db.rows db'.rows) fun _ => True := by
    refine quarantine ?_ ⟨p, hp, rfl⟩
    refine keeps_bind (keeps_vouchesOf_update fun _ =>
      ⟨⟨rfl, rfl, rfl⟩, .inl rfl⟩) fun _ db => ?_
    by_cases hbelongs : db.rows.Belongs id p.strategyInstanceId
    · refine (transitionState_vouches (fun hto => by cases hto)
        fun q hq _ => ?_).imp (fun _ _ h _ => h) fun _ h => h
      obtain ⟨q', hq', hown⟩ := hbelongs
      rw [hq] at hq'
      cases hq'
      exact .inr hown
    · exact (keeps_anyRows _ db).imp (fun _ _ _ h => absurd h hbelongs)
        fun _ h => h
  unfold ReconciliationEngine.errorByRecovery
  rw [meets_bind, meets_bind] at hsession
  rw [meets_bind]
  refine hsession.imp (fun _ db' h => ?_) fun _ h => h
  rw [meets_bind]
  exact h

/-- A transition that is neither an exit nor an error. -/
theorem keeps_vouches_transition {toState : PositionState}
    (hexit : toState ≠ .exitPending) (herror : toState ≠ .error) (id : Nat)
    (actor : StateTransitionActor) (reason : String) :
    Keeps (Vouches given cleared)
      (PositionStateMachine.transition id toState actor reason) :=
  fun _ => transition_vouches (fun h => absurd h hexit) fun _ _ h =>
    absurd h herror

-- ================================================================ legs

theorem writesIntent_vouches (i : Nat) :
    WritesIntent (Vouches given cleared) i :=
  ⟨fun _ _ => vouches_of_eq rfl rfl rfl, fun _ => vouches_of_eq rfl rfl rfl⟩

theorem addsIntents_vouches : AddsIntents (Vouches given cleared) :=
  fun _ _ => vouches_of_eq rfl rfl rfl

theorem vouches_setTrade (r : Rows) (i : Nat) (f : Trade → Trade) :
    Vouches given cleared r (r.setTrade i f) :=
  vouches_of_eq rfl rfl rfl

theorem closesLeg_vouches (leg : ExitLegIds) :
    ClosesLeg (Vouches given cleared) leg := by
  intro price _
  refine keeps_bind (keeps_fetch _) fun trade => ?_
  cases trade with
  | none => exact keeps_throw _
  | some trade =>
      exact keeps_bind (keeps_flush fun r => vouches_setTrade r _ _) fun _ =>
        keeps_resolveIntent ((writesIntent_vouches _).status _)

-- ====================================================== the reconciliation

/-- No instance is touched, and no position's identity or exit reason. -/
structure SameEndings (r r' : Rows) : Prop where
  instances : r'.instances = r.instances
  positions : r'.positions.map (fun p => (p.origin, p.exitReason))
    = r.positions.map fun p => (p.origin, p.exitReason)

/-- The seam finishes a cycle and leaves how it ended alone. -/
def PositionReconciler.SparesEndings (s : PositionReconciler) : Prop :=
  ∀ id, Keeps SameEndings (s.finalizeEntry id)
    ∧ Keeps SameEndings (s.finalizeExit id)

/-- An edge the seam takes. -/
private theorem PositionReconciler.Moves.vouches {id : Nat}
    {fromState toState : PositionState}
    (h : Moves id fromState toState r r') (hsame : SameEndings r r')
    (hto : toState = .open ∨ toState = .closed) :
    Vouches given cleared r r' := by
  have hneither : toState ≠ .exitPending ∧ toState ≠ .error := by
    rcases hto with rfl | rfl <;> exact ⟨nofun, nofun⟩
  have hfrozen : ∀ k, ¬ cleared k → r.Frozen k → r'.Frozen k := by
    intro k _ hk
    unfold Rows.Frozen
    rw [hsame.instances]
    exact hk
  obtain ⟨reason, actor, htransitions⟩ := h.transitions
  have hkept : r.transitions <+: r'.transitions :=
    ⟨_, htransitions.symm⟩
  have horigins := congrArg (List.map Prod.fst) hsame.positions
  rw [List.map_map, List.map_map] at horigins
  refine ⟨accrues_of_origins horigins hkept, hfrozen, fun hr => ?_⟩
  refine hr.of_positions hkept hfrozen (fun t ht => ?_) fun i q hq => .inr ?_
  · rw [htransitions] at ht
    rcases List.mem_append.1 ht with hold | hnew
    · exact .inl hold
    · rw [List.mem_singleton.1 hnew]
      exact .inr fun hexit => absurd hexit hneither.1
  · have hcolumns := congrArg (fun l => l[i]?) hsame.positions
    have hstates := congrArg (fun l => l[i]?) h.states
    simp only [List.getElem?_map, hq, Option.map_some] at hcolumns hstates
    obtain ⟨p, hp, hpq⟩ := Option.map_eq_some_iff.1 hcolumns.symm
    simp only [Prod.mk.injEq] at hpq
    obtain ⟨horigin, hreason⟩ := hpq
    rw [List.getElem?_modify, hp] at hstates
    have hold := (hr.positions i p hp).kept hkept hfrozen
    have hended : ∀ x, q.exitReason = some x → x = .error ∨ given x :=
      fun x hx => hold.ended x (hreason.trans hx)
    by_cases hi : id = i
    · have hstate : q.state = toState := by simpa [hi] using hstates
      exact ⟨fun hs => absurd (hstate.symm.trans hs) hneither.1, hended,
        fun hs => absurd (hstate.symm.trans hs) hneither.2⟩
    · have hstate : q.state = p.state := by simpa [hi] using hstates
      have hinstance : p.strategyInstanceId = q.strategyInstanceId :=
        congrArg Prod.fst horigin
      exact ⟨fun hs => hold.trailed (hstate.symm.trans hs), hended,
        fun hs => hinstance ▸ hold.quarantined (hstate.symm.trans hs)⟩

namespace ReconciliationEngine

theorem allowsFills_vouches : AllowsFills (Vouches given cleared) where
  breaks := fun _ _ => vouches_of_eq rfl rfl rfl
  status := fun _ _ _ => vouches_of_eq rfl rfl rfl
  fill := fun _ _ _ _ => vouches_of_eq rfl rfl rfl

private theorem keeps_vouches_errorOfIntent (intent : OrderIntent)
    (reason : String) :
    Keeps (Vouches given cleared) (errorPositionOfIntent intent reason) := by
  refine keeps_bind (keeps_fetch _) fun trade => ?_
  cases trade with
  | none => exact keeps_pure _
  | some trade =>
      intro db
      unfold PositionRepository.getById
      rw [meets_bind, meets_fetch]
      cases hp : db.rows.positions[trade.positionId]? with
      | none => exact keeps_pure () db
      | some position =>
          dsimp only
          rw [meets_ite]
          exact ⟨fun _ => keeps_pure () db,
            fun _ => errorByRecovery_vouches hp reason⟩

theorem keeps_vouches_intentSession (intentId : Nat)
    (ordersByTag : List (String × List BrokerOrder)) :
    Keeps (Vouches given cleared) (intentSession intentId ordersByTag) :=
  keeps_intentSession allowsFills_vouches keeps_vouches_errorOfIntent _ _

theorem keeps_vouches_positionSession {reconciler : Option PositionReconciler}
    (hseam : ∀ s ∈ reconciler, s.Documented ∧ s.SparesEndings) (id : Nat)
    (live : Option (List String)) (scan : List Nat) :
    Keeps (Vouches given cleared) (positionSession reconciler id live scan) := by
  intro db
  unfold positionSession PositionRepository.getById
    PositionRepository.listTradesForPosition
  rw [meets_bind, meets_fetch]
  cases hp : db.rows.positions[id]? with
  | none => exact keeps_pure _ db
  | some p =>
      dsimp only
      rw [meets_ite]
      refine ⟨fun _ => keeps_pure _ db, fun _ => ?_⟩
      rw [meets_bind, meets_fetch]
      have herror : ∀ breakType name reason,
          Meets (errorPosition id p breakType name reason) db
            (fun _ db' => Vouches given cleared db.rows db'.rows)
            fun _ => True := by
        intro breakType name reason
        have hmarked : Meets (errorByRecovery id p.strategyInstanceId reason) db
            (fun _ db' => Vouches given cleared db.rows db'.rows)
            fun _ => True := errorByRecovery_vouches hp reason
        unfold errorPosition
        rw [meets_bind]
        refine hmarked.imp (fun _ db₁ h₁ => ?_) fun _ h => h
        exact (keeps_bind (R := Vouches given cleared)
          (keeps_recordBreak allowsFills_vouches.breaks)
          (fun _ => keeps_pure _) db₁).imp
          (fun _ _ h₂ => Session.Frame.trans h₁ h₂) fun _ h => h
      have hfinalize : ∀ seam outcome detail missing,
          (∀ s ∈ reconciler, Meets (seam s id) db
            (fun _ db' => Vouches given cleared db.rows db'.rows)
            fun _ => True) →
          Meets (finalize reconciler id seam outcome detail missing) db
            (fun _ db' => Vouches given cleared db.rows db'.rows)
            fun _ => True := by
        intro seam outcome detail missing hfinish
        cases reconciler with
        | none =>
            refine keeps_bind (R := Vouches given cleared)
              (keeps_recordBreak allowsFills_vouches.breaks) (fun _ => ?_) db
            exact keeps_bind (keeps_flush fun r =>
              vouches_update r _ fun _ => ⟨⟨rfl, rfl, rfl⟩, .inl rfl⟩)
              fun _ => keeps_pure _
        | some s =>
            unfold finalize
            dsimp only
            rw [meets_bind]
            exact (hfinish s rfl).imp (fun _ _ h => h) fun _ h => h
      cases hs : p.state with
      | entryPending =>
          dsimp only
          unfold reconcileEntryPending
          rw [meets_ite, meets_ite]
          refine ⟨fun _ => ?_, fun _ => ⟨fun _ => ?_, fun _ => herror _ _ _⟩⟩
          · refine hfinalize _ _ _ _ fun s hs' => ?_
            exact (((hseam s hs').1.entry id db p hp hs).and
              (((hseam s hs').2 id).1 db)).imp
              (fun _ _ h => h.1.vouches h.2 (.inl rfl)) fun _ _ => trivial
          · rw [meets_bind]
            exact (transitionState_vouches (fun h => by cases h)
              fun _ _ h => by cases h).imp (fun _ _ h => h) fun _ h => h
      | exitPending =>
          dsimp only
          unfold reconcileExitPending
          rw [meets_ite, meets_ite]
          refine ⟨fun _ => ?_, fun _ => ⟨fun _ => herror _ _ _, fun _ => ?_⟩⟩
          · refine hfinalize _ _ _ _ fun s hs' => ?_
            exact (((hseam s hs').1.exit id db p hp hs).and
              (((hseam s hs').2 id).2 db)).imp
              (fun _ _ h => h.1.vouches h.2 (.inr rfl)) fun _ _ => trivial
          · exact keeps_pure _ db
      | _ =>
          dsimp only
          unfold reconcileOpen
          cases live with
          | none => exact keeps_pure _ db
          | some live =>
              dsimp only
              rw [meets_ite]
              exact ⟨fun _ => herror _ _ _, fun _ => keeps_pure _ db⟩

end ReconciliationEngine

end AlgoPlatform
