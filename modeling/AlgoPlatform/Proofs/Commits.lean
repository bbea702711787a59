/-
The commits that always go through.

# What they write

Three writes take a position out of trading: a break is recorded, the
position goes to ERROR, its instance is FROZEN. None of them writes a key,
and none adds a row the schema could object to: a break names rows that
are there, ERROR is an edge out of every state but CLOSED and itself, and
a freeze changes one column. So where the database takes commits at all
these never fail (`Meets … fun _ => False`), and what they leave is known.

# What they are for

An unwind, a partial entry and a failed exit all end in these commits.
With them a proof that the desk halts needs no case for a halt that is
itself refused.
-/
import AlgoPlatform.Model.Strategy
import AlgoPlatform.Proofs.Frames
import AlgoPlatform.Proofs.Schema

open Basis Basis.Session

namespace AlgoPlatform

-- ============================================================== halted

/-- The position is in ERROR, and its instance is FROZEN. -/
structure Rows.Halted (r : Rows) (ctx : StrategyContext) (id : Nat) :
    Prop where
  error : ∃ p, r.positions[id]? = some p ∧ p.state = .error
  frozen : ∃ s, r.instances[ctx.instanceId]? = some s ∧ s.status = .frozen

variable {ctx : StrategyContext} {db : Db} {id : Nat} {p : Position}

-- ============================================================== intents

/-- The lookup by key finds the one intent under it, or none. -/
theorem getByIdempotencyKey_goes (db : Db) (key : String) :
    Meets (OrderIntentRepository.getByIdempotencyKey key) db
      (fun row db' => db' = db
        ∧ ((row = none ∧ ∀ x ∈ db.rows.intents, x.idempotencyKey ≠ key)
          ∨ ∃ i x, row = some (i, x) ∧ db.rows.intents[i]? = some x
            ∧ x.idempotencyKey = key))
      fun _ => False := by
  unfold OrderIntentRepository.getByIdempotencyKey
  rw [meets_bind, meets_fetch, meets_scalarOneOrNone]
  -- keys are UNIQUE, so `scalar_one_or_none` never finds two
  rcases select_of_nodup db.admitted.unique.idempotencyKey key
    with hnone | ⟨i, x, hi, hkey, hone⟩
  · rw [hnone]
    refine ⟨fun _ => ⟨rfl, .inl ⟨rfl, fun x hx hkey => ?_⟩⟩,
      fun row h => (nomatch h), fun h => (nomatch h)⟩
    exact of_decide_eq_false (select_eq_nil.1 hnone x hx) hkey
  · rw [hone]
    refine ⟨fun h => (nomatch h), fun row h => ⟨rfl, .inr ⟨i, x, ?_, hi, hkey⟩⟩,
      fun h => absurd h (Nat.not_succ_le_self 1)⟩
    rw [List.singleton_inj.1 h]

/-- An intent there is goes to any status, and nothing else changes. -/
theorem resolveIntent_goes {i : Nat} (hi : i < db.rows.intents.length)
    (status : IntentStatus) :
    Meets (do let _ ← OrderIntentRepository.getByIdOrRaise i
              OrderIntentRepository.markStatus status i : Session Unit) db
      (fun _ db' => db'.rows = db.rows.setIntent i fun x => { x with status })
      fun _ => False := by
  unfold OrderIntentRepository.getByIdOrRaise OrderIntentRepository.getById
    OrderIntentRepository.markStatus
  rw [meets_bind, meets_bind, meets_fetch, List.getElem?_eq_getElem hi,
    meets_orRaise]
  refine ⟨fun _ _ => ?_, fun h => nomatch h⟩
  rw [meets_flush]
  refine ⟨fun _ => rfl, fun hno => hno ?_⟩
  exact db.admitted.setIntent (fun _ => rfl) (fun _ => rfl) (fun _ => rfl)
    fun _ => rfl

-- =============================================================== breaks

/-- A break about a position there is. -/
theorem createBreak_goes (hp : db.rows.positions[id]? = some p)
    {intentId : Option Nat}
    (hintent : ∀ i ∈ intentId, i < db.rows.intents.length)
    (breakType : ReconciliationBreakType) :
    Meets (ReconciliationBreakRepository.create breakType (some id) none
      intentId) db
      (fun _ db' => ∃ b : ReconciliationBreak, b.positionId = some id
        ∧ db'.rows = { db.rows with breaks := db.rows.breaks ++ [b] })
      fun _ => False := by
  unfold ReconciliationBreakRepository.create
  rw [meets_flush]
  refine ⟨fun _ => ⟨_, rfl, rfl⟩, fun hno => hno ?_⟩
  refine db.admitted.addBreak (fun j hj => ?_) (fun j hj => nomatch hj) hintent
  cases hj
  exact (List.getElem?_eq_some_iff.1 hp).1

-- ================================================================ ERROR

/-- Every state but CLOSED and ERROR has an edge to ERROR, for every
actor. -/
private theorem isTransitionAllowedForActor_error {state : PositionState}
    (hclosed : state ≠ .closed) (herror : state ≠ .error)
    (actor : StateTransitionActor) :
    isTransitionAllowedForActor state .error actor = true := by
  cases state with
  | closed => exact absurd rfl hclosed
  | error => exact absurd rfl herror
  | _ => rfl

/-- A position not finished yet goes to ERROR. -/
theorem markError_goes (hp : db.rows.positions[id]? = some p)
    (hclosed : p.state ≠ .closed) (herror : p.state ≠ .error)
    (actor : StateTransitionActor) (reason : String) :
    Meets (PositionStateMachine.markError id actor reason) db
      (fun _ db' => (∃ q, db'.rows.positions[id]? = some q
          ∧ q.state = .error)
        ∧ db'.rows.instances = db.rows.instances
        ∧ db'.rows.breaks = db.rows.breaks) fun _ => False := by
  unfold PositionStateMachine.markError PositionStateMachine.transition
    PositionRepository.getById
  rw [meets_bind, meets_fetch, meets_bind, hp, meets_orRaise]
  refine ⟨fun q hq => ?_, fun h => nomatch h⟩
  cases hq
  rw [if_neg herror,
    if_pos (isTransitionAllowedForActor_error hclosed herror actor)]
  -- the gate is passed; the write reads the row once more
  unfold PositionRepository.transitionState PositionRepository.getById
  rw [meets_bind, meets_fetch, meets_bind, hp, meets_orRaise]
  refine ⟨fun q hq => ?_, fun h => nomatch h⟩
  cases hq
  rw [meets_flush]
  refine ⟨fun _ => ⟨⟨{ p with state := .error }, ?_, rfl⟩, rfl, rfl⟩,
    fun hno => hno ?_⟩
  · dsimp only
    rw [Rows.setPosition_positions, List.getElem?_modify_eq, hp]
    rfl
  · -- no CHECK reads the state, and the audit row names the position
    have hset : (db.rows.setPosition id fun q =>
        { q with state := .error }).Admissible :=
      db.admitted.setPosition (fun q hq =>
        db.admitted.checked.positions q (List.mem_of_getElem? hq))
        (fun _ => rfl) (fun _ => rfl) fun q hq =>
          congrArg (fun p : Position => { p with state := .error })
            (db.admitted.scaled.positions q (List.mem_of_getElem? hq))
    refine hset.addTransition ?_
    rw [Rows.setPosition_positions, List.length_modify]
    exact (List.getElem?_eq_some_iff.1 hp).1

/-- Two columns are written, then ERROR. -/
private theorem errs_goes (hp : db.rows.positions[id]? = some p)
    (hclosed : p.state ≠ .closed) (herror : p.state ≠ .error)
    {f : Position → Position} (hf : ∀ q : Position, (f q).Check ↔ q.Check)
    (hstate : ∀ q, (f q).state = q.state)
    (hinstance : ∀ q, (f q).strategyInstanceId = q.strategyInstanceId)
    (hdate : ∀ q, (f q).tradeDate = q.tradeDate)
    (hkept : ∀ money q, (f q).kept money = f (q.kept money))
    (actor : StateTransitionActor) (reason : String) :
    Meets (do
      PositionRepository.update id f
      PositionStateMachine.markError id actor reason : Session Unit) db
      (fun _ db' => (∃ q, db'.rows.positions[id]? = some q
          ∧ q.state = .error)
        ∧ db'.rows.instances = db.rows.instances
        ∧ db'.rows.breaks = db.rows.breaks) fun _ => False := by
  unfold PositionRepository.update
  rw [meets_bind, meets_flush]
  refine ⟨fun hadm => ?_, fun hno => hno ?_⟩
  · refine markError_goes (p := f p) ?_ ?_ ?_ actor reason
    · dsimp only
      rw [Rows.setPosition_positions, List.getElem?_modify_eq, hp]
      rfl
    · rw [hstate]
      exact hclosed
    · rw [hstate]
      exact herror
  · refine db.admitted.setPosition (fun q hq => (hf q).2 ?_) hinstance hdate
      fun q hq => (hkept _ q).trans (congrArg f ?_)
    · exact db.admitted.checked.positions q (List.mem_of_getElem? hq)
    · exact db.admitted.scaled.positions q (List.mem_of_getElem? hq)

/-- The strategy's own way into ERROR. -/
theorem Bookkeeping.errorPosition_goes (hp : db.rows.positions[id]? = some p)
    (hclosed : p.state ≠ .closed) (herror : p.state ≠ .error)
    (reason : String) :
    Meets (Bookkeeping.errorPosition id reason) db
      (fun _ db' => (∃ q, db'.rows.positions[id]? = some q
          ∧ q.state = .error)
        ∧ db'.rows.instances = db.rows.instances
        ∧ db'.rows.breaks = db.rows.breaks) fun _ => False := by
  unfold Bookkeeping.errorPosition PositionRepository.getById
  rw [meets_bind, meets_fetch, hp]
  dsimp only
  rw [if_pos ⟨hclosed, herror⟩]
  apply errs_goes hp hclosed herror
  · exact fun _ => Iff.rfl
  · exact fun _ => rfl
  · exact fun _ => rfl
  · exact fun _ => rfl
  · exact fun _ _ => rfl

-- =============================================================== FROZEN

/-- An instance there is gets FROZEN. -/
theorem Bookkeeping.freezeInstance_goes {instanceId : Nat}
    (hinst : instanceId < db.rows.instances.length) :
    Meets (Bookkeeping.freezeInstance instanceId) db
      (fun _ db' => (∃ s, db'.rows.instances[instanceId]? = some s
          ∧ s.status = .frozen)
        ∧ db'.rows.positions = db.rows.positions
        ∧ db'.rows.breaks = db.rows.breaks) fun _ => False := by
  unfold Bookkeeping.freezeInstance StrategyInstanceRepository.getById
    StrategyInstanceRepository.setStatus
  obtain ⟨s, hs⟩ : ∃ s, db.rows.instances[instanceId]? = some s :=
    ⟨_, List.getElem?_eq_getElem hinst⟩
  rw [meets_bind, meets_fetch, hs]
  dsimp only
  rw [meets_ite, meets_pure, meets_flush]
  refine ⟨fun _ => ⟨fun _ => ⟨⟨{ s with status := .frozen }, ?_, rfl⟩, rfl, rfl⟩,
    fun hno => hno ?_⟩, fun hfrozen => ⟨⟨s, hs, not_not.1 hfrozen⟩, rfl, rfl⟩⟩
  · dsimp only
    rw [Rows.setInstance, List.getElem?_modify_eq, hs]
    rfl
  · exact db.admitted.setInstance fun _ => rfl

/-- ERROR and FROZEN, in one unit of work. -/
theorem halt_goes {session : Session Unit}
    (hsession : Meets session db
      (fun _ db' => (∃ q, db'.rows.positions[id]? = some q
          ∧ q.state = .error)
        ∧ db'.rows.instances = db.rows.instances
        ∧ db'.rows.breaks = db.rows.breaks) fun _ => False)
    (hinst : ctx.instanceId < db.rows.instances.length) :
    Meets (do
      session
      Bookkeeping.freezeInstance ctx.instanceId) db
      (fun _ db' => db'.rows.Halted ctx id
        ∧ db'.rows.breaks = db.rows.breaks) fun _ => False := by
  rw [meets_bind]
  refine hsession.imp (fun _ db₁ h => ?_) fun _ h => h
  obtain ⟨⟨q, hq, herror⟩, hinstances, hbreaks⟩ := h
  refine (Bookkeeping.freezeInstance_goes (by rw [hinstances]; exact hinst)).imp
    (fun _ db₂ h => ?_) fun _ h => h
  obtain ⟨hfrozen, hpositions, hbreaks₂⟩ := h
  exact ⟨⟨⟨q, by rw [hpositions]; exact hq, herror⟩, hfrozen⟩,
    hbreaks₂.trans hbreaks⟩

-- ================================================== where commits go through

/-- The push stream's order rows, and breaks. -/
def Noted (r r' : Rows) : Prop :=
  ∃ os bs, r' = { r with orders := os, breaks := r.breaks ++ bs }

instance : BlindToOrders Noted where
  refl := fun r => ⟨r.orders, [], by rw [List.append_nil]⟩
  trans := by
    intro r r' r'' h h'
    obtain ⟨_, bs, rfl⟩ := h
    obtain ⟨os, bs', rfl⟩ := h'
    exact ⟨os, bs ++ bs', by rw [List.append_assoc]⟩
  orders := fun r os => ⟨os, [], by rw [List.append_nil]⟩
  breaks := fun r b => ⟨r.orders, [b], rfl⟩

theorem Noted.breaks {r r' : Rows} (h : Noted r r') : r.breaks <+: r'.breaks := by
  obtain ⟨_, bs, rfl⟩ := h
  exact List.prefix_append _ _

/-- The environment's turn is the push stream's. -/
theorem noted_interfere (w : World) (m : Move) :
    Waits Noted w (w.interfere m) := waits_interfere w m

namespace Bookkeeping

variable {w : World}

/-- A break about a position there is gets recorded. -/
theorem recordBreak_safe (hp : w.db.rows.positions[id]? = some p)
    {intentId : Option Nat}
    (hintent : ∀ i ∈ intentId, i < w.db.rows.intents.length)
    (breakType : ReconciliationBreakType) :
    (recordBreak id intentId breakType).Safe (fun m => m.fault = none)
      (fun _ => True) w fun r w' => r = .ok () ∧ Waits Noted w w'
        ∧ ∃ b ∈ w'.db.rows.breaks, b.positionId = some id := by
  unfold recordBreak
  rw [Prog.safe_tryCatch]
  refine Program.safe_unitOfWork trivial (fun m f hm hf => ?_) fun m _ _ => ?_
  · rw [hm] at hf
    cases hf
  have hturn := noted_interfere w m
  obtain ⟨os, bs, hrows⟩ := hturn.rows
  refine (@createBreak_goes (w.interfere m).db id p ?_ intentId ?_ breakType).imp (fun _ db h => ?_)
    fun _ h => h.elim
  · rw [hrows]
    exact hp
  · rw [hrows]
    exact hintent
  obtain ⟨b, hof, hdb⟩ := h
  refine ⟨rfl, Prog.Frame.trans (R := Waits Noted) hturn (Waits.commit ?_), b,
    ?_, hof⟩
  · rw [hdb]
    exact BlindToOrders.breaks _ _
  · dsimp only
    rw [hdb]
    exact List.mem_append_right _ (List.mem_singleton_self _)

/-- A position not finished yet is halted. -/
theorem failToError_safe (hp : w.db.rows.positions[id]? = some p)
    (hclosed : p.state ≠ .closed) (herror : p.state ≠ .error)
    (hinst : ctx.instanceId < w.db.rows.instances.length) (reason : String) :
    (failToError ctx.instanceId id reason).Safe (fun m => m.fault = none)
      (fun _ => True) w fun r w' => r = .ok () ∧ w'.db.rows.Halted ctx id
        ∧ w.db.rows.breaks <+: w'.db.rows.breaks
        ∧ w.broker.Follows w'.broker := by
  refine Program.safe_unitOfWork trivial (fun m f hm hf => ?_) fun m _ _ => ?_
  · rw [hm] at hf
    cases hf
  have hturn := noted_interfere w m
  have hbreaks := hturn.rows.breaks
  obtain ⟨os, bs, hrows⟩ := hturn.rows
  refine (halt_goes (errorPosition_goes ?_ hclosed herror reason) ?_).imp
    (fun _ db h => ?_) fun _ h => h.elim
  · rw [hrows]
    exact hp
  · rw [hrows]
    exact hinst
  · exact ⟨rfl, h.1, by rw [h.2]; exact hbreaks, hturn.broker⟩

end Bookkeeping

end AlgoPlatform
