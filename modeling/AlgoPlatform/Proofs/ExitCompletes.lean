/-
The exit gets through.

# The two ends

What is left is the exit's first commit and its last: the record, which
finds or adds an intent a leg, and the close, which totals legs that are
all priced. Neither writes a key that is taken or a value the schema
could object to.

# Whole runs

So an exit that is given moves for ever, by an obliging broker and a
database that commits, returns with the position CLOSED, whatever earlier
exits and restarts of the day, cut off anywhere and with commits that
failed, have left of it.
-/
import AlgoPlatform.Proofs.LegCloses

open Basis Basis.Session

namespace AlgoPlatform

variable {ctx : StrategyContext} {k : Nat} {w w' : World} {db : Db}
  {p : Position} {t : Trade}

-- =========================================================== the day's row

/-- The lookup of the day's position finds it. -/
private theorem getByInstanceAndDate_finds
    (hp : db.rows.positions[k]? = some p) (hday : OfDay ctx p) :
    Meets (PositionRepository.getByInstanceAndDate ctx.instanceId ctx.today) db
      (fun row db' => db' = db ∧ row = some (k, p)) fun _ => False := by
  have hone : select (fun p : Position =>
      decide (p.strategyInstanceId = ctx.instanceId ∧ p.tradeDate = ctx.today))
        db.rows.positions = [(k, p)] := by
    have hsame : (fun p : Position => decide (p.strategyInstanceId
          = ctx.instanceId ∧ p.tradeDate = ctx.today))
        = fun p => decide ((p.strategyInstanceId, p.tradeDate)
          = (ctx.instanceId, ctx.today)) := by
      funext q
      rw [decide_eq_decide]
      exact Prod.mk_inj.symm
    have hkey : (p.strategyInstanceId, p.tradeDate)
        = (ctx.instanceId, ctx.today) := Prod.ext hday.1 hday.2
    rw [hsame]
    rcases select_of_nodup db.admitted.unique.instanceTradeDate
        (ctx.instanceId, ctx.today) with hnone | ⟨i, q, hq, hqkey, hone⟩
    · exact absurd hkey (of_decide_eq_false
        (select_eq_nil.1 hnone p (List.mem_of_getElem? hp)))
    · have hi := key_inj db.admitted.unique.instanceTradeDate hp hq
        (hkey.trans hqkey.symm)
      subst hi
      rw [hp] at hq
      cases hq
      exact hone
  unfold PositionRepository.getByInstanceAndDate
  rw [meets_bind, meets_fetch, meets_scalarOneOrNone, hone]
  refine ⟨fun h => (nomatch h), fun row h => ⟨rfl, ?_⟩,
    fun h => absurd h (Nat.not_succ_le_self 1)⟩
  rw [List.singleton_inj.1 h]

/-- A legal transition goes through. -/
private theorem transition_goes {toState : PositionState}
    {actor : StateTransitionActor} (hp : db.rows.positions[k]? = some p)
    (hne : p.state ≠ toState)
    (hlegal : isTransitionAllowedForActor p.state toState actor = true)
    (reason : String) :
    Meets (PositionStateMachine.transition k toState actor reason) db
      (fun _ db' => ∃ row, db'.rows =
        { db.rows.setPosition k fun p => { p with state := toState } with
          transitions := db.rows.transitions ++ [row] }) fun _ => False := by
  unfold PositionStateMachine.transition PositionRepository.getById
  rw [meets_bind, meets_fetch, meets_bind, hp, meets_orRaise]
  refine ⟨fun q hq => ?_, fun h => nomatch h⟩
  cases hq
  rw [if_neg hne, if_pos hlegal]
  unfold PositionRepository.transitionState PositionRepository.getById
  rw [meets_bind, meets_fetch, meets_bind, hp, meets_orRaise]
  refine ⟨fun q hq => ?_, fun h => nomatch h⟩
  cases hq
  rw [meets_flush]
  refine ⟨fun _ => ⟨_, rfl⟩, fun hno => hno ?_⟩
  have hset : (db.rows.setPosition k fun q =>
      { q with state := toState }).Admissible :=
    db.admitted.setPosition (fun q hq =>
      db.admitted.checked.positions q (List.mem_of_getElem? hq))
      (fun _ => rfl) (fun _ => rfl) fun q hq =>
        congrArg (fun p : Position => { p with state := toState })
          (db.admitted.scaled.positions q (List.mem_of_getElem? hq))
  refine hset.addTransition ?_
  rw [Rows.setPosition_positions, List.length_modify]
  exact (List.getElem?_eq_some_iff.1 hp).1

-- ============================================================== the record

/-- Intents are added or written, the position is written, and nothing
else. -/
theorem Closing.prepares (h : Closing ctx k w)
    (horders : db.rows.orders = w.db.rows.orders)
    (htrades : db.rows.trades = w.db.rows.trades)
    (hcolumns : db.rows.columns = w.db.rows.columns)
    (hkept : IntentsKept w.db.rows db.rows) (hkeyed : ExitKeyed ctx db.rows)
    (hposition : ∃ p, db.rows.positions[k]? = some p ∧ OfDay ctx p
      ∧ p.Exiting k db.rows) : Closing ctx k { w with db } where
  filed := by
    refine ⟨?_, h.filed.tags⟩
    show ∀ o ∈ db.rows.orders, o.Fits ctx w.broker
    rw [horders]
    exact h.filed.rows
  keyed := hkeyed
  types := by
    unfold Rows.OneOfAType
    dsimp only
    rw [htrades]
    exact h.types
  legs := by
    dsimp only
    rw [htrades]
    exact fun j t ht hof =>
      (h.legs j t ht hof).waits (Waits.commit hkept) hcolumns
  position := hposition

/-- An exit's key tells its leg. -/
private theorem exitKey_inj {type type' : OptionType}
    (h : exitKey ctx type = exitKey ctx type') : type = type' := by
  have hsame : SameLeg ctx ctx type type' .exit .exit := TagPurpose.key_inj h
  exact hsame.optionType

/-- A new intent under an exit's key and tag. -/
private theorem ExitKeyed.add {r : Rows} (h : ExitKeyed ctx r)
    {x : OrderIntent} {type : OptionType}
    (hkey : x.idempotencyKey = exitKey ctx type)
    (htag : x.brokerTag = exitTag ctx type) :
    ExitKeyed ctx { r with intents := r.intents ++ [x] } := by
  intro y hy type'
  rcases List.mem_append.1 hy with hold | hnew
  · exact h y hold type'
  · rw [List.mem_singleton.1 hnew, hkey, htag]
    exact ⟨fun heq => by rw [exitKey_inj heq], fun heq => by
      rw [exitTag_inj heq]⟩

namespace ExitLogic

/-- Intents are added, and nothing else is written. -/
def AddsOnly (r r' : Rows) : Prop :=
  ∃ is, r' = { r with intents := r.intents ++ is }

theorem AddsOnly.refl (r : Rows) : AddsOnly r r :=
  ⟨[], by rw [List.append_nil]⟩

theorem AddsOnly.trans {r r' r'' : Rows} (h : AddsOnly r r')
    (h' : AddsOnly r' r'') : AddsOnly r r'' := by
  obtain ⟨is, rfl⟩ := h
  obtain ⟨is', rfl⟩ := h'
  exact ⟨is ++ is', by rw [List.append_assoc]⟩

theorem AddsOnly.intent {r r' : Rows} (h : AddsOnly r r') {i : Nat}
    {x : OrderIntent} (hx : r.intents[i]? = some x) :
    r'.intents[i]? = some x := by
  obtain ⟨is, rfl⟩ := h
  dsimp only
  rw [List.getElem?_append_left (List.getElem?_eq_some_iff.1 hx).1]
  exact hx

/-- One leg of the record. -/
private theorem prepareLeg_goes {j : Nat}
    (htag : (exitTag ctx t.optionType).length ≤ 20)
    (hkeyed : ExitKeyed ctx db.rows) (ht : db.rows.trades[j]? = some t)
    (hof : t.positionId = k) :
    Meets (prepareLeg ctx j t) db
      (fun leg db' => AddsOnly db.rows db'.rows ∧ ExitKeyed ctx db'.rows
        ∧ leg.tradeId = j ∧ leg.Of ctx k db'.rows) fun _ => False := by
  unfold prepareLeg OrderIntentRepository.getOrCreate
  rw [meets_bind, meets_lift, validateTag_goes htag]
  refine ⟨fun tag h => ?_, fun _ h => nomatch h⟩
  cases h
  rw [meets_bind]
  refine (getOrCreate_meets (E := fun _ => False) (Q := fun x db' =>
    AddsOnly db.rows db'.rows ∧ ExitKeyed ctx db'.rows
      ∧ ∃ y, db'.rows.intents[x.1.1]? = some y
        ∧ y.brokerTag = exitTag ctx t.optionType)
    ?_ fun hnone => ?_).imp (fun x db' h => ?_) fun _ h => h
  · -- an intent under the key has the tag
    refine (getByIdempotencyKey_goes db _).imp (fun row db' h => ?_)
      fun _ h => h
    obtain ⟨rfl, ⟨rfl, -⟩ | ⟨i, x, rfl, hi, hkey⟩⟩ := h
    · exact ⟨rfl, fun _ h => nomatch h⟩
    · refine ⟨rfl, fun y hy => ?_⟩
      cases hy
      exact ⟨.refl _, hkeyed, x, hi,
        (hkeyed x (List.mem_of_getElem? hi) _).1 hkey⟩
  · -- no intent has the tag where none has the key
    have hfree : ∀ x ∈ db.rows.intents,
        x.idempotencyKey ≠ exitKey ctx t.optionType := by
      have hlookup := getByIdempotencyKey_goes db (exitKey ctx t.optionType)
      unfold Meets at hlookup
      unfold exitKey at hlookup ⊢
      rw [hnone] at hlookup
      obtain ⟨-, ⟨-, hfree⟩ | ⟨i, x, h, -⟩⟩ := hlookup
      · exact hfree
      · cases h
    unfold OrderIntentRepository.insert
    rw [meets_bind, meets_fetch, meets_bind, meets_flush]
    refine ⟨fun _ => ?_, fun hno => hno ?_⟩
    · rw [meets_pure]
      exact ⟨⟨_, rfl⟩, hkeyed.add rfl rfl, _, List.getElem?_concat_length, rfl⟩
    · refine db.admitted.addIntent ?_ (List.getElem?_eq_some_iff.1 ht).1 hfree
        fun x hx hsame => hfree x hx ((hkeyed x hx _).2 hsame)
      exact (db.admitted.checked.trades t (List.mem_of_getElem? ht)).1
  · obtain ⟨⟨intentId, intent⟩, created⟩ := x
    obtain ⟨hadds, hkeyed', y, hy, hytag⟩ := h
    rw [meets_pure]
    refine ⟨hadds, hkeyed', rfl, ⟨t, ?_, ?_⟩, y, hy, hytag⟩
    · obtain ⟨is, hrows⟩ := hadds
      rw [hrows]
      exact ht
    · unfold Trade.origin
      rw [hof]

private theorem mem_putLeg_self (legs : List ExitLegIds) (leg : ExitLegIds) :
    leg ∈ putLeg legs leg := by
  unfold putLeg
  split_ifs with hany
  · obtain ⟨l, hl, htype⟩ := List.any_eq_true.1 hany
    refine List.mem_map.2 ⟨l, hl, ?_⟩
    rw [if_pos (of_decide_eq_true htype)]
  · exact List.mem_append_right _ (List.mem_singleton_self leg)

/-- A leg of the record is left in it, or gives its place to a leg of its
type. -/
private theorem putLeg_covers {legs : List ExitLegIds} {leg l : ExitLegIds}
    (hl : l ∈ legs) (hsame : l.optionType = leg.optionType →
      leg.tradeId = l.tradeId) :
    ∃ l' ∈ putLeg legs leg, l'.tradeId = l.tradeId := by
  by_cases htype : l.optionType = leg.optionType
  · exact ⟨leg, mem_putLeg_self legs leg, hsame htype⟩
  refine ⟨l, ?_, rfl⟩
  unfold putLeg
  split_ifs with hany
  · refine List.mem_map.2 ⟨l, hl, ?_⟩
    rw [if_neg htype]
  · exact List.mem_append_left _ hl

/-- What is added to the intents leaves a leg of the record. -/
private theorem of_adds {leg : ExitLegIds} {r r' : Rows}
    (h : leg.Of ctx k r) (hadds : AddsOnly r r') : leg.Of ctx k r' := by
  obtain ⟨x, hx, htag⟩ := h.intent
  refine ⟨?_, x, hadds.intent hx, htag⟩
  obtain ⟨is, rfl⟩ := hadds
  exact h.trade

/-- The legs of the record: one for every trade. -/
private theorem prepareLegs_goes (htag : ∀ type, (exitTag ctx type).length ≤ 20)
    (trades : List (Nat × Trade)) :
    ∀ (legs : List ExitLegIds) (db : Db), ExitKeyed ctx db.rows →
      db.rows.OneOfAType k →
      (∀ x ∈ trades, db.rows.trades[x.1]? = some x.2 ∧ x.2.positionId = k) →
      (∀ leg ∈ legs, leg.Of ctx k db.rows) →
      Meets (prepareLegs ctx trades legs) db
        (fun legs' db' => AddsOnly db.rows db'.rows ∧ ExitKeyed ctx db'.rows
          ∧ (∀ leg ∈ legs', leg.Of ctx k db'.rows)
          ∧ (∀ l ∈ legs, ∃ l' ∈ legs', l'.tradeId = l.tradeId)
          ∧ ∀ x ∈ trades, ∃ l ∈ legs', l.tradeId = x.1)
        fun _ => False := by
  induction trades with
  | nil =>
      intro legs db hkeyed _ _ hlegs
      exact ⟨.refl _, hkeyed, hlegs, fun l hl => ⟨l, hl, rfl⟩,
        List.forall_mem_nil _⟩
  | cons x trades ih =>
      obtain ⟨j, t⟩ := x
      intro legs db hkeyed htypes htrades hlegs
      obtain ⟨⟨ht, hof⟩, hrest⟩ := List.forall_mem_cons.1 htrades
      unfold prepareLegs
      rw [meets_bind]
      refine (prepareLeg_goes (htag _) hkeyed ht hof).imp (fun leg db₁ h => ?_)
        fun _ h => h
      obtain ⟨hadds, hkeyed₁, hj, hleg⟩ := h
      have htrades₁ : db₁.rows.trades = db.rows.trades := by
        obtain ⟨is, hrows⟩ := hadds
        rw [hrows]
      have htypes₁ : db₁.rows.OneOfAType k := by
        unfold Rows.OneOfAType
        rw [htrades₁]
        exact htypes
      have hlegs₁ : ∀ l ∈ legs, l.Of ctx k db₁.rows :=
        fun l hl => of_adds (hlegs l hl) hadds
      refine (ih (putLeg legs leg) db₁ hkeyed₁ htypes₁ (fun y hy => ?_)
        fun l hl => ?_).imp (fun legs' db₂ h => ?_) fun _ h => h
      · rw [htrades₁]
        exact hrest y hy
      · rcases mem_putLeg hl with rfl | hl
        · exact hleg
        · exact hlegs₁ l hl
      obtain ⟨hadds', hkeyed₂, hlegs₂, hkept, hcovers⟩ := h
      refine ⟨hadds.trans hadds', hkeyed₂, hlegs₂, fun l hl => ?_,
        List.forall_mem_cons.2 ⟨?_, hcovers⟩⟩
      · -- a leg of the new leg's type is of the same trade
        obtain ⟨l', hl', hid⟩ := @putLeg_covers legs leg l hl fun htype => by
          obtain ⟨u, hu, -⟩ := hleg.trade
          obtain ⟨v, hv, -⟩ := (hlegs₁ l hl).trade
          obtain ⟨huof, hutype, -⟩ := hleg.columns hu
          obtain ⟨hvof, hvtype, -⟩ := (hlegs₁ l hl).columns hv
          exact htypes₁ _ _ u v hu hv huof hvof
            (hutype.trans (htype.symm.trans hvtype.symm))
        obtain ⟨m, hm, hmid⟩ := hkept l' hl'
        exact ⟨m, hm, hmid.trans hid⟩
      · obtain ⟨m, hm, hmid⟩ := hkept leg (mem_putLeg_self legs leg)
        exact ⟨m, hm, hmid.trans hj⟩

/-- OPEN becomes EXIT_PENDING. -/
private theorem beginExit_goes (hp : db.rows.positions[k]? = some p)
    (hday : OfDay ctx p) (hstate : p.state = .open ∨ p.state = .exitPending)
    (reason : ExitReason) (actor : StateTransitionActor) :
    Meets (beginExit k p reason actor) db
      (fun _ db' => db'.rows.orders = db.rows.orders
        ∧ db'.rows.trades = db.rows.trades
        ∧ db'.rows.columns = db.rows.columns
        ∧ db'.rows.intents = db.rows.intents
        ∧ ∃ q, db'.rows.positions[k]? = some q ∧ OfDay ctx q
          ∧ q.state = .exitPending) fun _ => False := by
  unfold beginExit
  rw [meets_ite, meets_pure]
  refine ⟨fun hopen => ?_, fun hopen =>
    ⟨rfl, rfl, rfl, rfl, p, hp, hday, hstate.resolve_left hopen⟩⟩
  have hlegal : isTransitionAllowedForActor p.state .exitPending actor
      = true := by
    rw [hopen]
    rfl
  refine (transition_goes hp (by rw [hopen]; exact nofun) hlegal _).imp
    (fun _ db' h => ?_) fun _ h => h
  obtain ⟨row, hdb'⟩ := h
  rw [hdb']
  refine ⟨rfl, rfl, rfl, rfl, { p with state := .exitPending }, ?_, hday, rfl⟩
  dsimp only
  rw [Rows.setPosition_positions, List.getElem?_modify_eq, hp]
  rfl

end ExitLogic

/-- The position is CLOSED. -/
def Rows.Exited (r : Rows) (k : Nat) : Prop :=
  ∃ p, r.positions[k]? = some p ∧ p.state = .closed

/-- The exit is under way, with a record of all its legs. -/
structure OnRecord (ctx : StrategyContext) (k : Nat) (prepared : PreparedExit)
    (w : World) : Prop extends Underway ctx k w where
  positionId : prepared.positionId = k
  recorded : ∀ leg ∈ prepared.legs, leg.Of ctx k w.db.rows
  complete : ∀ (j : Nat) (t : Trade), w.db.rows.trades[j]? = some t →
    t.positionId = k → ∃ leg ∈ prepared.legs, leg.tradeId = j

theorem OnRecord.carries {prepared : PreparedExit}
    (h : OnRecord ctx k prepared w) (hw : Carries ctx k w w') :
    OnRecord ctx k prepared w' where
  toUnderway := hw.underway h.toUnderway
  positionId := h.positionId
  recorded := fun leg hleg => (h.recorded leg hleg).proceeds hw.rows
  complete := by
    intro j t' ht' hof
    obtain ⟨t, ht⟩ : ∃ t, w.db.rows.trades[j]? = some t := by
      refine ⟨_, List.getElem?_eq_getElem ?_⟩
      rw [← hw.rows.length]
      exact (List.getElem?_eq_some_iff.1 ht').1
    obtain ⟨u, hu, horigin, -⟩ := hw.rows.trades j t ht
    rw [ht'] at hu
    cases hu
    exact h.complete j t ht ((congrArg Prod.fst horigin).symm.trans hof)

/-- What the exit's first commit comes to. -/
inductive BeginsExit (ctx : StrategyContext) (k : Nat) (w : World) :
    Except ExitResult PreparedExit → Prop
  | exited {result : ExitResult} (h : w.db.rows.Exited k)
      (houtcome : result.outcome = .skippedAlreadyClosed) :
      BeginsExit ctx k w (.error result)
  | recorded {prepared : PreparedExit} (h : OnRecord ctx k prepared w) :
      BeginsExit ctx k w (.ok prepared)

namespace ExitLogic

/-- The exit's first commit: the record, unless the position is CLOSED. -/
private theorem prepareSession_goes (h : Closing ctx k w)
    (htag : ∀ type, (exitTag ctx type).length ≤ 20) (reason : ExitReason)
    (actor : StateTransitionActor) (scan : List Nat) :
    Meets (prepareSession ctx reason actor scan) w.db
      (fun r db => Closing ctx k { w with db }
        ∧ BeginsExit ctx k { w with db } r) fun _ => False := by
  obtain ⟨p, hp, hday, hexiting⟩ := h.position
  unfold prepareSession
  rw [meets_bind]
  refine (getByInstanceAndDate_finds hp hday).imp (fun row db h' => ?_)
    fun _ h => h
  obtain ⟨rfl, rfl⟩ := h'
  dsimp only
  rw [meets_ite, meets_pure]
  refine ⟨fun hclosed => ⟨h, .exited ⟨p, hp, hclosed⟩ rfl⟩, fun hopen => ?_⟩
  have hstate : p.state = .open ∨ p.state = .exitPending := by
    cases hexiting with
    | unclosed hstate => exact hstate
    | closed hclosed _ _ => exact absurd hclosed hopen
  rw [if_neg (not_and_or.2 (hstate.imp not_not.2 not_not.2)), meets_bind]
  refine (beginExit_goes hp hday hstate reason actor).imp (fun _ db₁ h₁ => ?_)
    fun _ h => h
  obtain ⟨horders, htrades, hcolumns, hintents, q, hq, hqday, hpending⟩ := h₁
  have hclosing : Closing ctx k { w with db := db₁ } := by
    refine h.prepares horders htrades hcolumns (intentsKept_of_eq hintents) ?_
      ⟨q, hq, hqday, .unclosed (.inr hpending)⟩
    unfold ExitKeyed
    rw [hintents]
    exact h.keyed
  unfold PositionRepository.listTradesForPosition
  rw [meets_bind, meets_fetch, meets_bind]
  refine (@prepareLegs_goes ctx k htag _ [] db₁ hclosing.keyed hclosing.types
    (fun x hx => ReconciliationEngine.mem_listTrades.1 hx)
    (List.forall_mem_nil _)).imp (fun legs db₂ h₂ => ?_) fun _ h => h
  obtain ⟨hadds, hkeyed, hlegs, -, hcovers⟩ := h₂
  rw [meets_pure]
  have hpending₂ : ∃ q, db₂.rows.positions[k]? = some q ∧ OfDay ctx q
      ∧ q.state = .exitPending := by
    obtain ⟨is, hrows⟩ := hadds
    exact ⟨q, by rw [hrows]; exact hq, hqday, hpending⟩
  have hclosing₂ : Closing ctx k { w with db := db₂ } := by
    obtain ⟨q, hq, hqday, hpending⟩ := hpending₂
    refine hclosing.prepares ?_ ?_ ?_ (fun i x hx => ⟨x, hadds.intent hx,
      OrderIntent.Endures.refl x⟩) hkeyed ⟨q, hq, hqday, .unclosed (.inr hpending)⟩
    · obtain ⟨is, hrows⟩ := hadds
      rw [hrows]
    · obtain ⟨is, hrows⟩ := hadds
      rw [hrows]
    · obtain ⟨is, hrows⟩ := hadds
      rw [hrows]
  refine ⟨hclosing₂, .recorded ⟨⟨hclosing₂, hpending₂⟩, rfl, hlegs, ?_⟩⟩
  intro j t ht hof
  refine hcovers (j, t) (ReconciliationEngine.mem_listTrades.2 ⟨?_, hof⟩)
  obtain ⟨is, hrows⟩ := hadds
  dsimp only at ht
  rw [hrows] at ht
  exact ht

end ExitLogic

-- =============================================================== the close

/-- The trades of a position, in whatever order. -/
private theorem listTrades_perm (r : Rows) (scan : List Nat) (k : Nat) :
    ((arrange scan ((select (·.positionId = k) r.trades).map
      Prod.fst)).filterMap fun i => r.trades[i]?.map fun t => (i, t)).Perm
      (select (·.positionId = k) r.trades) := by
  have hperm := (@arrange_perm scan _ (select_keys_nodup
    (fun t : Trade => t.positionId = k) r.trades)).filterMap
    fun i => r.trades[i]?.map fun t => (i, t)
  have hsame : ((select (fun t : Trade => t.positionId = k) r.trades).map
      Prod.fst).filterMap (fun i => r.trades[i]?.map fun t => (i, t))
        = select (fun t : Trade => t.positionId = k) r.trades := by
    rw [List.filterMap_map]
    refine (List.filterMap_congr fun x hx => ?_).trans List.filterMap_some
    obtain ⟨i, t⟩ := x
    dsimp only [Function.comp_apply]
    rw [(mem_select.1 hx).1]
    rfl
  rw [hsame] at hperm
  exact hperm

namespace ExitLogic

/-- Legs that are all priced are totalled. -/
private theorem pricedLegs_goes (trades : List (Nat × Trade))
    (h : ∀ x ∈ trades, x.2.exitPrice ≠ none ∧ x.2.realizedPnl ≠ none) :
    ∃ legs, pricedLegs ctx k trades = .ok legs
      ∧ legs.map Prod.snd = trades.map fun x => x.2.realizedPnl.getD 0 := by
  induction trades with
  | nil => exact ⟨[], rfl, rfl⟩
  | cons x trades ih =>
      obtain ⟨j, t⟩ := x
      obtain ⟨⟨hexit, hpnl⟩, hrest⟩ := List.forall_mem_cons.1 h
      obtain ⟨legs, hlegs, hsnd⟩ := ih hrest
      obtain ⟨exitPrice, hexit⟩ := Option.ne_none_iff_exists'.1 hexit
      obtain ⟨realizedPnl, hpnl⟩ := Option.ne_none_iff_exists'.1 hpnl
      dsimp only at hexit hpnl
      refine ⟨(exitPrice, realizedPnl) :: legs, ?_, ?_⟩
      · unfold pricedLegs
        rw [hexit, hpnl, hlegs]
        rfl
      · rw [List.map_cons, List.map_cons, hsnd, hpnl]
        rfl

/-- A position with the totals of its exit. -/
private def totalled (exitPremium realizedPnl : ℚ) (reason : ExitReason)
    (p : Position) : Position :=
  { p with
    combinedExitPremium := some exitPremium
    realizedPnl := some realizedPnl
    exitReason := some reason }

/-- The schema admits kept totals. -/
private theorem totalled_admissible (db : Db) (k : Nat)
    (exitPremium realizedPnl : ℚ) (reason : ExitReason) :
    (db.rows.setPosition k (totalled (db.rows.money exitPremium)
      (db.rows.money realizedPnl) reason)).Admissible := by
  refine db.admitted.setPosition (fun q hq => ?_) (fun _ => rfl)
    (fun _ => rfl) fun q hq => ?_
  · exact db.admitted.checked.positions q (List.mem_of_getElem? hq)
  · have hscaled := db.admitted.scaled.positions q (List.mem_of_getElem? hq)
    refine Eq.trans ?_ (congrArg (totalled (db.rows.money exitPremium)
      (db.rows.money realizedPnl) reason) hscaled)
    unfold totalled Position.kept
    simp only [Option.map_some, Rows.money_money]

/-- Where every leg of the record is CLOSED, every leg is. -/
private theorem legsClosed_of_record {prepared : PreparedExit}
    (h : OnRecord ctx k prepared w)
    (hclosed : ∀ leg ∈ prepared.legs, ClosedAt leg.tradeId w.db.rows) :
    w.db.rows.LegsClosed k := by
  intro j t ht hof
  obtain ⟨leg, hleg, rfl⟩ := h.complete j t ht hof
  obtain ⟨u, hu, hstatus⟩ := hclosed leg hleg
  rw [ht] at hu
  cases hu
  exact hstatus

/-- CLOSED legs are priced, and their P&L is totalled as it is stored. -/
private theorem pricedLegs_closed (h : Closing ctx k w)
    (hall : w.db.rows.LegsClosed k) (scan : List Nat) :
    ∃ legs, pricedLegs ctx k ((arrange scan ((select (·.positionId = k)
        w.db.rows.trades).map Prod.fst)).filterMap
          fun i => w.db.rows.trades[i]?.map fun t => (i, t)) = .ok legs
      ∧ w.db.rows.money (legs.map Prod.snd).sum = w.db.rows.legsPnl k := by
  have hpriced : ∀ x ∈ (arrange scan ((select (·.positionId = k)
      w.db.rows.trades).map Prod.fst)).filterMap
        fun i => w.db.rows.trades[i]?.map fun t => (i, t),
      x.2.exitPrice ≠ none ∧ x.2.realizedPnl ≠ none := by
    intro x hx
    obtain ⟨j, t⟩ := x
    obtain ⟨ht, hof⟩ := ReconciliationEngine.mem_listTrades.1 hx
    have hbought : w.broker.Bought w.db.rows.money (exitTag ctx t.optionType)
        t := by
      cases h.legs j t ht hof with
      | unsent hopen _ _ => exact absurd (hall j t ht hof) hopen
      | sent _ hopen _ _ => exact absurd (hall j t ht hof) hopen
      | closed hbought => exact hbought
    obtain ⟨entry, paid, -, -, hexit, hpnl⟩ := hbought.priced
    rw [hexit, hpnl]
    exact ⟨nofun, nofun⟩
  obtain ⟨legs, hlegs, hsnd⟩ := pricedLegs_goes _ hpriced
  refine ⟨legs, hlegs, ?_⟩
  rw [hsnd, ((listTrades_perm w.db.rows scan k).map _).sum_eq]
  exact w.db.money_legsPnl k

/-- The position is written CLOSED at the P&L of its legs, and nothing
else the exit looks at. -/
private theorem closing_closed (h : Closing ctx k w)
    (hall : w.db.rows.LegsClosed k)
    (horders : db.rows.orders = w.db.rows.orders)
    (htrades : db.rows.trades = w.db.rows.trades)
    (hcolumns : db.rows.columns = w.db.rows.columns)
    (hintents : db.rows.intents = w.db.rows.intents)
    (hp : db.rows.positions[k]? = some p) (hday : OfDay ctx p)
    (hstate : p.state = .closed)
    (hpnl : p.realizedPnl = some (w.db.rows.legsPnl k)) :
    Closing ctx k { w with db } := by
  refine h.prepares horders htrades hcolumns (intentsKept_of_eq hintents) ?_
    ⟨p, hp, hday, .closed hstate ?_ ?_⟩
  · unfold ExitKeyed
    rw [hintents]
    exact h.keyed
  · unfold Rows.legsPnl at hpnl ⊢
    rw [hpnl, htrades]
  · unfold Rows.LegsClosed
    rw [htrades]
    exact hall

/-- The exit's last commit: the P&L of its legs, and CLOSED. -/
private theorem closePosition_goes {prepared : PreparedExit}
    (h : OnRecord ctx k prepared w)
    (hclosed : ∀ leg ∈ prepared.legs, ClosedAt leg.tradeId w.db.rows)
    (reason : ExitReason) (actor : StateTransitionActor) (scan : List Nat) :
    Meets (closePosition ctx prepared.positionId reason actor scan) w.db
      (fun _ db => Closing ctx k { w with db }
        ∧ ({ w with db } : World).db.rows.Exited k) fun _ => False := by
  obtain ⟨p, hp, hday, hpending⟩ := h.pending
  have hall := legsClosed_of_record h hclosed
  obtain ⟨legs, hlegs, hsum⟩ := pricedLegs_closed h.toClosing hall scan
  rw [h.positionId]
  unfold closePosition PositionRepository.getById
    PositionRepository.listTradesForPosition PositionRepository.updateMoney
  rw [meets_bind, meets_fetch, hp]
  dsimp only
  rw [meets_bind, meets_fetch, meets_bind, meets_lift, hlegs]
  refine ⟨fun l hl => ?_, fun _ h => nomatch h⟩
  cases hl
  rw [meets_bind, meets_flush]
  refine ⟨fun hadm => ?_, fun hno => hno (totalled_admissible w.db k _ _ _)⟩
  have hrow : (w.db.rows.setPosition k (totalled
      (w.db.rows.money (legs.map Prod.fst).sum)
      (w.db.rows.money (legs.map Prod.snd).sum) reason)).positions[k]?
      = some (totalled (w.db.rows.money (legs.map Prod.fst).sum)
        (w.db.rows.money (legs.map Prod.snd).sum) reason p) := by
    rw [Rows.setPosition_positions, List.getElem?_modify_eq, hp]
    rfl
  rw [meets_bind]
  refine (@transition_goes k ⟨_, hadm⟩ _ .closed actor hrow ?_ ?_ _).imp
    (fun _ db h' => ?_) fun _ h => h
  · unfold totalled
    rw [hpending]
    exact nofun
  · unfold totalled
    rw [hpending]
    rfl
  obtain ⟨row, hdb⟩ := h'
  have hclosedRow : db.rows.positions[k]?
      = some { totalled (w.db.rows.money (legs.map Prod.fst).sum)
        (w.db.rows.money (legs.map Prod.snd).sum) reason p with
          state := .closed } := by
    rw [hdb]
    dsimp only
    rw [Rows.setPosition_positions, List.getElem?_modify_eq,
      Rows.setPosition_positions, List.getElem?_modify_eq, hp]
    rfl
  rw [meets_pure]
  refine ⟨closing_closed h.toClosing hall ?_ ?_ ?_ ?_ hclosedRow hday rfl
    (congrArg some hsum), _, hclosedRow, rfl⟩
  all_goals
    rw [hdb]
    rfl

end ExitLogic

-- ================================================================ the exit

/-- What an exit comes to: the position is CLOSED, or a commit has
failed. -/
structure Concluded (ctx : StrategyContext) (k : Nat) (C : Move → Prop)
    (r : Except Exc ExitResult) (w : World) : Prop where
  closing : Closing ctx k w
  ends : (∃ result, r = .ok result ∧ (result.outcome = .exited
      ∨ result.outcome = .skippedAlreadyClosed) ∧ w.db.rows.Exited k)
    ∨ Program.Faulted C

namespace ExitLogic

variable {C : Move → Prop} {prepared : PreparedExit}

/-- A break about the position: whether it is recorded or not, the exit
is where it was. -/
private theorem trusts_recordBreak (h : Closing ctx k w)
    (breakType : ReconciliationBreakType) :
    (recordBreak k breakType).Trusts (Promised ctx C) (Closing ctx k) w
      fun r w' => r = .ok () ∧ Closing ctx k w' := by
  unfold recordBreak Bookkeeping.recordBreak
  refine Prog.Trusts.tryCatch (R := fun _ w' => Closing ctx k w')
    (Program.trusts_unitOfWork h (fun m _ _ _ => h.passes (h.filed.turn m))
      fun m => ?_) (fun _ _ h => ⟨rfl, h⟩) fun _ _ h => ⟨rfl, h⟩
  have hturn := h.passes (h.filed.turn m)
  obtain ⟨p, hp, hday, hexiting⟩ := hturn.position
  have hnone : ∀ i ∈ (none : Option Nat),
      i < (w.interfere m).db.rows.intents.length := fun _ hi => by cases hi
  refine (createBreak_goes hp hnone breakType).imp
    (fun _ db h' => ?_) fun _ h => h
  obtain ⟨b, -, hdb⟩ := h'
  refine hturn.prepares ?_ ?_ ?_ ?_ ?_ ⟨p, ?_, hday, hexiting.congr ?_⟩
  · rw [hdb]
  · rw [hdb]
  · rw [hdb]
  · refine intentsKept_of_eq ?_
    rw [hdb]
  · unfold ExitKeyed
    rw [hdb]
    exact hturn.keyed
  · rw [hdb]
    exact hp
  · rw [hdb]

/-- The last commit, and the break where it fails. -/
private theorem trusts_finalizeClosed (h : OnRecord ctx k prepared w)
    (hclosed : ∀ leg ∈ prepared.legs, ClosedAt leg.tradeId w.db.rows)
    (reason : ExitReason) (actor : StateTransitionActor) :
    (finalizeClosed ctx prepared reason actor).Trusts (Promised ctx C)
      (Closing ctx k) w (Concluded ctx k C) := by
  unfold finalizeClosed
  refine Prog.Trusts.tryCatch (R := fun r w' => Closing ctx k w'
    ∧ ((∃ result, r = .ok result ∧ result.outcome = .exited
      ∧ w'.db.rows.Exited k) ∨ Program.Faulted C ∧ ∃ e, r = .error e))
    ?_ (fun result w' hw' => ?_) fun e w' hw' => ?_
  · rw [Prog.trusts_bind]
    refine Program.trusts_unitOfWork h.toClosing (fun m f hm hf => ?_)
      fun m => ?_
    · exact ⟨h.toClosing.passes (h.filed.turn m), .inr ⟨.of hm hf, _, rfl⟩⟩
    · have hturn := (h.filed.turn m).carries (k := k)
      have hv := h.carries hturn
      refine (closePosition_goes hv (fun leg hleg => ?_) reason actor
        m.scan).imp (fun _ db h' => ?_) fun _ h => h
      · exact (hclosed leg hleg).proceeds hturn.rows
      · exact ⟨h'.1, .inl ⟨_, rfl, rfl, h'.2⟩⟩
  · obtain ⟨hclosing, ⟨_, hok, houtcome, hexited⟩ | ⟨-, _, herror⟩⟩ := hw'
    · cases hok
      exact ⟨hclosing, .inl ⟨result, rfl, .inl houtcome, hexited⟩⟩
    · cases herror
  · obtain ⟨hclosing, ⟨_, hok, -⟩ | ⟨hfaulted, -⟩⟩ := hw'
    · cases hok
    · rw [Prog.trusts_bind, h.positionId]
      refine (trusts_recordBreak hclosing .other).mono fun r w'' hbreak => ?_
      obtain ⟨rfl, hclosing'⟩ := hbreak
      exact ⟨hclosing', .inr hfaulted⟩

/-- An exit that holds the lock. -/
theorem trusts_exit (htag : ∀ type, (exitTag ctx type).length ≤ 20)
    (h : Closing ctx k w) (reason : ExitReason) :
    (exit ctx true reason).Trusts (Promised ctx C) (Closing ctx k) w
      (Concluded ctx k C) := by
  unfold exit
  rw [if_pos rfl, Prog.trusts_bind]
  refine Program.trusts_unitOfWork h (fun m f hm hf => ?_) fun m => ?_
  · exact ⟨h.passes (h.filed.turn m), .inr (.of hm hf)⟩
  refine (prepareSession_goes (h.passes (h.filed.turn m)) htag reason
    (actorByReason reason) m.scan).imp (fun r db h' => ?_) fun _ h => h
  obtain ⟨hclosing, hbegins⟩ := h'
  rw [Prog.trusting_ok]
  cases hbegins with
  | @exited result hexited houtcome =>
      exact ⟨hclosing, .inl ⟨result, rfl, .inr houtcome, hexited⟩⟩
  | @recorded prepared hrecord =>
      dsimp only
      rw [Prog.trusts_bind]
      refine (completes_closeLegs htag prepared.legs hrecord.toUnderway
        hrecord.recorded).mono fun r w' hlegs => ?_
      have hrecord' := hrecord.carries hlegs.frame
      rcases hlegs.ends with ⟨results, rfl, hclosed, hdone⟩ | ⟨hfaulted, e, rfl⟩
      · rw [Prog.trusting_ok]
        unfold conclude
        rw [if_pos (List.all_eq_true.2 fun x hx =>
          decide_eq_true (hclosed x hx))]
        exact trusts_finalizeClosed hrecord' hdone reason _
      · exact ⟨hrecord'.toClosing, .inr hfaulted⟩

end ExitLogic

-- ================================================================ restarts

/-- A unit of work that only reads. -/
private theorem trusts_read {C : Move → Prop} {α : Type}
    {body : List Nat → Session α}
    (hbody : ∀ scan db, Meets (body scan) db (fun _ db' => db' = db)
      fun _ => True) (h : Closing ctx k w) :
    (Program.unitOfWork body).Trusts (Promised ctx C) (Closing ctx k) w
      fun _ w' => Closing ctx k w' := by
  refine (Program.safe_unitOfWork (C := fun _ => True) h
    (fun m _ _ _ => h.passes (h.filed.turn m)) fun m _ _ => ?_).trusts
    (fun _ _ _ => trivial) fun _ => id
  refine (hbody m.scan (w.interfere m).db).imp (fun _ db hdb => ?_)
    fun _ _ => h.passes (h.filed.turn m)
  subst hdb
  exact h.passes (h.filed.turn m)

namespace Strategy1

/-- Loading what to monitor only reads. -/
private theorem loadMonitored_reads (positionId : Nat) (scan : List Nat)
    (db : Db) :
    Meets (Monitor.loadMonitored positionId scan) db (fun _ db' => db' = db)
      fun _ => True := by
  unfold Monitor.loadMonitored PositionRepository.getById
    PositionRepository.listTradesForPosition
  rw [meets_bind, meets_fetch, meets_bind, meets_orRaise]
  refine ⟨fun position _ => ?_, fun _ => trivial⟩
  rw [meets_bind, meets_fetch]
  generalize List.filterMap _ _ = trades
  cases Monitor.byType .ce trades with
  | none => trivial
  | some call =>
      cases Monitor.byType .pe trades with
      | none => trivial
      | some put => rfl

/-- Attaching a monitor only reads. -/
private theorem attachSession_reads (scan : List Nat) (db : Db) :
    Meets (Monitor.attachSession ctx scan) db (fun _ db' => db' = db)
      fun _ => True := by
  unfold Monitor.attachSession
  rw [meets_bind]
  refine (getByInstanceAndDate_meets ctx db).imp (fun row db' h => ?_)
    fun _ h => h
  obtain ⟨rfl, -, -⟩ := h
  cases row with
  | none => rfl
  | some row =>
      obtain ⟨positionId, position⟩ := row
      dsimp only
      cases position.state with
      | «open» =>
          dsimp only
          rw [meets_map]
          exact loadMonitored_reads positionId scan db'
      | _ => rfl

/-- Attaching keeps the exit where it is. -/
private theorem trusts_attach {C : Move → Prop} (h : Closing ctx k w) :
    (attach ctx).Trusts (Promised ctx C) (Closing ctx k) w
      fun _ w' => Closing ctx k w' := by
  unfold attach
  rw [Prog.trusts_bind]
  refine (trusts_read attachSession_reads h).mono fun r w' h' => ?_
  cases r with
  | error e => exact h'
  | ok found =>
      rw [Prog.trusting_ok]
      dsimp only
      cases (Monitor.attach {} (.ok found)).1.raised with
      | some exc => exact h'
      | none => exact h'

/-- A restart keeps the invariant, and completes a pending exit. -/
theorem trusts_recover {C : Move → Prop}
    (htag : ∀ type, (exitTag ctx type).length ≤ 20) (h : Closing ctx k w)
    (acquired : Bool) :
    (recover ctx acquired).Trusts (Promised ctx C) (Closing ctx k) w
      fun _ w' => Closing ctx k w' := by
  unfold recover
  rw [Prog.trusts_bind]
  refine Program.trusts_unitOfWork h (fun m _ _ _ => h.passes (h.filed.turn m))
    fun m => ?_
  have hv := h.passes (h.filed.turn m)
  obtain ⟨p, hp, hday, hexiting⟩ := hv.position
  refine (getByInstanceAndDate_finds hp hday).imp (fun row db h' => ?_)
    fun _ h => h
  obtain ⟨rfl, rfl⟩ := h'
  rw [Prog.trusting_ok]
  dsimp only
  have hend : ∀ {w'} {r : Except Exc ExitResult}, Closing ctx k w' →
      Prog.trusting (Promised ctx C) (Closing ctx k)
        (fun _ => (pure {} : Program Monitor)) (fun _ w' => Closing ctx k w')
        r w' := by
    intro w' r h'
    cases r <;> exact h'
  cases hstate : p.state with
  | exitPending =>
      have hreads : ∀ (_ : List Nat) (db : Db),
          Meets (PositionRepository.listStateTransitions k) db
            (fun _ db' => db' = db) fun _ => True := fun _ _ => rfl
      dsimp only
      unfold inferPendingExitReason
      rw [Prog.trusts_bind, Prog.trusts_bind]
      refine (trusts_read hreads hv).mono fun r w' h' => ?_
      cases r with
      | error e => exact h'
      | ok transitions =>
          rw [Prog.trusting_ok, Prog.trusts_pure, Prog.trusting_ok,
            Prog.trusts_bind]
          cases acquired with
          | true =>
              exact (ExitLogic.trusts_exit htag h' _).mono fun r w'' hr =>
                hend hr.closing
          | false => exact h'
  | «open» => exact trusts_attach hv
  | entryPending =>
      -- no position of the exit's is
      cases hexiting with
      | unclosed h => rw [hstate] at h; exact absurd h (by decide)
      | closed h _ _ => rw [hstate] at h; cases h
  | idle => exact hv
  | closed => exact hv
  | error => exact hv

end Strategy1

-- ==================================================================== runs

/-- Any exit or restart of the day keeps the invariant. -/
theorem Closing.job {C : Move → Prop}
    (htag : ∀ type, (exitTag ctx type).length ≤ 20) (h : Closing ctx k w)
    {job : Job} (hjob : job.Exits) :
    (job.program ctx).Trusts (Promised ctx C) (Closing ctx k) w
      fun _ w' => Closing ctx k w' := by
  cases job with
  | enter inputs => exact hjob.elim
  | exit acquired reason =>
      show (ExitLogic.exit ctx acquired reason >>= _).Trusts _ _ _ _
      rw [Prog.trusts_bind]
      cases acquired with
      | false => exact h
      | true =>
          refine (ExitLogic.trusts_exit htag h reason).mono fun r w' hr => ?_
          cases r <;> exact hr.closing
  | recover acquired =>
      show (Strategy1.recover ctx acquired >>= _).Trusts _ _ _ _
      rw [Prog.trusts_bind]
      refine (Strategy1.trusts_recover htag h acquired).mono fun r w' hr => ?_
      cases r <;> exact hr

/-- In every session of a run, the broker obliges. -/
def Obliged (ctx : StrategyContext) : List Start → World → Prop
  | [], _ => True
  | s :: ss, w => (s.job.program ctx).Honours (Promised ctx fun _ => True)
      s.moves w ∧ Obliged ctx ss (w.session ctx s)

/-- Exits and restarts, each cut off anywhere, keep the invariant. -/
theorem Closing.run (htag : ∀ type, (exitTag ctx type).length ≤ 20)
    (ss : List Start) (hjobs : ∀ s ∈ ss, s.job.Exits) :
    ∀ {w : World}, Closing ctx k w → Obliged ctx ss w →
      Closing ctx k (w.run ctx ss) := by
  induction ss with
  | nil => exact fun h _ => h
  | cons s ss ih =>
      intro w h hobliged
      obtain ⟨hjob, hrest⟩ := List.forall_mem_cons.1 hjobs
      exact ih hrest ((h.job htag hjob).after hobliged.1) hobliged.2

-- ================================================================= the day

/-- The day's position is OPEN, its legs were sold, and nothing has been
recorded or sent under an exit's key or tag. -/
structure Exitable (ctx : StrategyContext) (k : Nat) (w : World) : Prop where
  position : ∃ p ∈ w.db.rows.positions[k]?, OfDay ctx p ∧ p.state = .open
  legs : ∀ t ∈ w.db.rows.trades, t.positionId = k →
    t.status ≠ .closed ∧ t.entryPrice ≠ none
  types : ((select (·.positionId = k) w.db.rows.trades).map
    fun x => x.2.optionType).Nodup
  intents : ∀ x ∈ w.db.rows.intents, ∀ type,
    x.idempotencyKey ≠ exitKey ctx type ∧ x.brokerTag ≠ exitTag ctx type
  orders : ∀ o ∈ w.db.rows.orders, ¬ ExitTagged ctx o.brokerTag
  log : ∀ bo ∈ w.broker.log, ¬ ExitTagged ctx bo.tag
  calls : ∀ c ∈ w.broker.calls, ∀ type, c.request.tag ≠ exitTag ctx type

/-- An exit begins there. -/
theorem Exitable.closing (h : Exitable ctx k w) : Closing ctx k w where
  filed := by
    refine ⟨fun o ho => ⟨fun htag => absurd htag (h.orders o ho),
      fun id cur _ hcur htag => ?_⟩, fun bo _ cur hcur htag => ?_⟩
    · exact absurd htag (h.log cur (Broker.current_mem hcur))
    · exact absurd htag (h.log cur (Broker.current_mem hcur))
  keyed := fun x hx type => iff_of_false (h.intents x hx type).1
    (h.intents x hx type).2
  types := by
    intro i j t t' ht ht' hof hof' htype
    have hmem : ∀ {i : Nat} {t : Trade}, w.db.rows.trades[i]? = some t →
        t.positionId = k → (i, t) ∈ select (·.positionId = k) w.db.rows.trades :=
      fun ht hof => mem_select.2 ⟨ht, decide_eq_true hof⟩
    have hsame := List.inj_on_of_nodup_map h.types (hmem ht hof)
      (hmem ht' hof') htype
    exact congrArg Prod.fst hsame
  legs := by
    intro j t ht hof
    obtain ⟨hopen, hentry⟩ := h.legs t (List.mem_of_getElem? ht) hof
    refine .unsent hopen hentry ⟨?_, fun bo hbo htag => h.log bo hbo ⟨_, htag⟩⟩
    refine List.filter_eq_nil_iff.2 fun c hc hunder => ?_
    exact h.calls c hc _ (of_decide_eq_true hunder).2
  position := by
    obtain ⟨p, hp, hday, hopen⟩ := h.position
    exact ⟨p, hp, hday, .unclosed (.inl hopen)⟩

namespace SampleDay

/-- A move on which the broker would accept a placement. -/
def takes (id : String) : Move := { place := .ack id }

end SampleDay

end AlgoPlatform
