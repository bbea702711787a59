/-
The exit buys a leg back once.

# The invariant

`BuysOnce C tag` says of one tag, under moves that satisfy `C`: every
order accepted under it can be found by it, its intent was started, and
every accepted order but the last was accepted and its call broken off
with `BrokerConnectionError` by one of these moves. A leg is placed under
its intent's own tag, so an intent not started yet has no accepted order,
and a started one is looked up first; only the retry loop can place
twice, and it only retries what it takes for unsent.

# The defect

It takes `BrokerConnectionError` for unsent, and the broker may have
accepted the order. Where no move breaks an accepted placement off so,
`C` leaves nothing for the second accepted order to come from, whatever
else fails and however often the exit is cut off and run again
(`exit_buysOnce_of_answered`).
-/
import AlgoPlatform.Proofs.Intents

open Basis Basis.Session

namespace AlgoPlatform

/-- Some intent of the tag has had its broker call started. -/
def StartedUnder (tag : String) (r : Rows) : Prop :=
  ∃ (i : Nat) (x : OrderIntent), r.intents[i]? = some x ∧ x.brokerTag = tag
    ∧ x.brokerCallStarted = true

/-- The broker accepts the placement and the call ends in
`BrokerConnectionError`. -/
def Move.BreaksOff (m : Move) : Prop :=
  ∃ id e, m.place = .lost id e ∧ e.kind = .connection

instance (m : Move) : Decidable m.BreaksOff :=
  match h : m.place with
  | .ack _ => .isFalse fun ⟨_, _, hlost, _⟩ => by rw [h] at hlost; cases hlost
  | .lost id e =>
      if he : e.kind = .connection then .isTrue ⟨id, e, h, he⟩
      else .isFalse fun ⟨_, _, hlost, he'⟩ => by
        rw [h] at hlost
        cases hlost
        exact he he'
  | .refuse _ => .isFalse fun ⟨_, _, hlost, _⟩ => by
      rw [h] at hlost
      cases hlost

/-- The call of an accepted order that one of these moves broke off. -/
structure PlaceCall.BrokenOff (C : Move → Prop) (c : PlaceCall) : Prop where
  lost : c.LostToConnection
  move : ∃ m, C m ∧ m.BreaksOff

/-- One tag's orders, between any two acts. -/
structure BuysOnce (C : Move → Prop) (tag : String) (w : World) : Prop where
  found : ∀ c ∈ w.broker.acceptedUnder tag, ∃ id bo, c.acceptedAs = some id
    ∧ w.broker.current id = some bo ∧ bo.tag = some tag
    ∧ id ∉ w.broker.earlier
  started : w.broker.acceptedUnder tag ≠ [] → StartedUnder tag w.db.rows
  lost : ∀ c ∈ (w.broker.acceptedUnder tag).dropLast, c.BrokenOff C

/-- One tag's orders inside the retry loop. -/
structure Retrying (C : Move → Prop) (tag : String) (w : World) : Prop
    extends BuysOnce C tag w where
  allLost : ∀ c ∈ w.broker.acceptedUnder tag, c.BrokenOff C
  open_ : StartedUnder tag w.db.rows

variable {C : Move → Prop} {tag : String} {w w' : World}
  {ctx : StrategyContext}

-- =============================================================== waiting

private theorem StartedUnder.kept {r r' : Rows} (h : StartedUnder tag r)
    (hkept : IntentsKept r r') : StartedUnder tag r' := by
  obtain ⟨i, x, hx, htag, hstarted⟩ := h
  obtain ⟨y, hy, hxy⟩ := hkept i x hx
  exact ⟨i, y, hy, hxy.brokerTag.trans htag, hxy.started hstarted⟩

/-- Nothing that places no order breaks the invariant. -/
theorem BuysOnce.waits (h : BuysOnce C tag w) (hw : Waits IntentsKept w w') :
    BuysOnce C tag w' where
  found := by
    intro c hc
    rw [hw.broker.acceptedUnder] at hc
    obtain ⟨id, bo, hid, hbo, htag, hearlier⟩ := h.found c hc
    obtain ⟨bo', hbo', hbecomes⟩ := hw.broker.current id bo hbo
    exact ⟨id, bo', hid, hbo', hbecomes.tag.trans htag,
      hw.broker.earlier ▸ hearlier⟩
  started := by
    intro hne
    rw [hw.broker.acceptedUnder] at hne
    exact (h.started hne).kept hw.rows
  lost := by
    rw [hw.broker.acceptedUnder]
    exact h.lost

private theorem Retrying.waits (h : Retrying C tag w)
    (hw : Waits IntentsKept w w') : Retrying C tag w' where
  toBuysOnce := h.toBuysOnce.waits hw
  allLost := by
    rw [hw.broker.acceptedUnder]
    exact h.allLost
  open_ := h.open_.kept hw.rows

/-- A program that places nothing is safe for the invariant. -/
theorem BuysOnce.along {α : Type} {p : Program α}
    (hp : Prog.Along (Waits IntentsKept) p) (h : BuysOnce C tag w) :
    p.Safe C (BuysOnce C tag) w fun _ => BuysOnce C tag :=
  (hp.safe w).imp (fun _ => h.waits) fun _ _ => h.waits

-- =============================================================== placing

/-- An accepted order leaves the others where they were. -/
private theorem current_of_fresh {b : Broker} {request : PlaceOrderRequest}
    {id id' : String} {raised : Option BrokerError} {bo : BrokerOrder}
    (hid : b.IsFresh id) (hbo : b.current id' = some bo) :
    (b.accept request id raised).current id' = some bo := by
  rw [Broker.current_accept, if_neg ?_]
  · exact hbo
  · intro heq
    rw [← heq, hid.current] at hbo
    cases hbo

/-- A call under another tag. -/
private theorem BuysOnce.placed_other {request : PlaceOrderRequest}
    {r : Except BrokerError String} {b : Broker} (h : BuysOnce C tag w)
    (hplaced : w.broker.Placed request r b) (htag : request.tag ≠ tag) :
    BuysOnce C tag { w with broker := b } := by
  have haccept : ∀ {id : String} (raised : Option BrokerError),
      w.broker.IsFresh id →
      BuysOnce C tag { w with broker := w.broker.accept request id raised } := by
    intro id raised hid
    have hsame := w.broker.acceptedUnder_accept request id raised tag
    rw [if_neg htag, List.append_nil] at hsame
    refine ⟨?_, ?_, ?_⟩
    · intro c hc
      rw [hsame] at hc
      obtain ⟨id', bo, hid', hbo, hbotag, hearlier⟩ := h.found c hc
      exact ⟨id', bo, hid', current_of_fresh hid hbo, hbotag, hearlier⟩
    · rw [hsame]
      exact h.started
    · rw [hsame]
      exact h.lost
  cases hplaced with
  | acked hid => exact haccept none hid
  | lost hid _ => exact haccept (some _) hid
  | refused e =>
      have hsame := w.broker.acceptedUnder_refuse request e tag
      refine ⟨?_, ?_, ?_⟩
      · rw [hsame]
        exact h.found
      · rw [hsame]
        exact h.started
      · rw [hsame]
        exact h.lost

/-- A call under the tag itself keeps the invariant; and unless it ended
in an acknowledgement or in an exception other than the connection error,
the loop may go on. -/
private theorem Retrying.placed {request : PlaceOrderRequest}
    {r : Except BrokerError String} {b : Broker} (h : Retrying C tag w)
    {m : Move} (hm : C m) (hplaced : w.broker.Placed request r b)
    (hreply : (w.broker.placeOrder request m.place).2 = b)
    (htag : request.tag = tag) :
    BuysOnce C tag { w with broker := b }
      ∧ ∀ e, r = .error e →
        e.kind = .connection ∨ e.kind = .rateLimitExceeded →
          Retrying C tag { w with broker := b } := by
  have haccept : ∀ {id : String} (raised : Option BrokerError),
      w.broker.IsFresh id →
      BuysOnce C tag { w with broker := w.broker.accept request id raised } := by
    intro id raised hid
    have hmore := w.broker.acceptedUnder_accept request id raised tag
    rw [if_pos htag] at hmore
    refine ⟨?_, fun _ => h.open_, ?_⟩
    · intro c hc
      rw [hmore] at hc
      rcases List.mem_append.1 hc with hold | hnew
      · obtain ⟨id', bo, hid', hbo, hbotag, hearlier⟩ := h.found c hold
        exact ⟨id', bo, hid', current_of_fresh hid hbo, hbotag, hearlier⟩
      · rw [List.mem_singleton.1 hnew]
        refine ⟨id, request.accepted id, rfl, ?_, congrArg some htag,
          hid.2.1⟩
        show (w.broker.accept request id raised).current id = _
        rw [Broker.current_accept, if_pos rfl]
    · rw [hmore, List.dropLast_concat]
      exact h.allLost
  have hlost : ∀ {id : String} {e : BrokerError}, w.broker.IsFresh id →
      e.kind = .connection → m.place = .lost id e → Retrying C tag
        { w with broker := w.broker.accept request id (some e) } := by
    intro id e hid he hplace
    refine { toBuysOnce := haccept _ hid, allLost := ?_, open_ := h.open_ }
    intro c hc
    have hmore := w.broker.acceptedUnder_accept request id (some e) tag
    rw [if_pos htag] at hmore
    rw [hmore] at hc
    rcases List.mem_append.1 hc with hold | hnew
    · exact h.allLost c hold
    · rw [List.mem_singleton.1 hnew]
      exact ⟨⟨e, rfl, he⟩, m, hm, id, e, hplace, he⟩
  cases hplaced with
  | acked hid => exact ⟨haccept none hid, nofun⟩
  | @lost id e hid hlive =>
      refine ⟨haccept (some e) hid, ?_⟩
      intro e' he' hkind
      cases he'
      rcases hkind with hconn | hrate
      · exact hlost hid hconn (Broker.placeOrder_lost hreply)
      · -- the rate limit is local: the order never left
        rw [hrate] at hlive
        cases hlive
  | refused e =>
      have hsame := w.broker.acceptedUnder_refuse request e tag
      have hbase : BuysOnce C tag { w with broker :=
          { w.broker with
            calls := w.broker.calls ++ [⟨request, none, some e⟩] } } := by
        refine ⟨?_, fun _ => h.open_, ?_⟩
        · rw [hsame]
          exact h.found
        · rw [hsame]
          exact h.lost
      refine ⟨hbase, fun _ _ _ => ⟨hbase, ?_, h.open_⟩⟩
      rw [hsame]
      exact h.allLost

-- =============================================================== one leg

namespace ExitLogic

variable {leg : ExitLegIds}

/-- The retry loop keeps `I`, if `L` holds of every turn it goes
through. -/
private theorem sendClose_safe {I L : World → Prop}
    (hI : ∀ {w w'}, Waits IntentsKept w w' → I w → I w')
    (hL : ∀ {w w'}, Waits IntentsKept w w' → L w → L w')
    (hLI : ∀ {w}, L w → I w) {request : PlaceOrderRequest}
    (hplace : ∀ {w : World} {m r b}, L w → C m →
      w.broker.Placed request r b →
      (w.broker.placeOrder request m.place).2 = b →
      I { w with broker := b } ∧ ∀ e, r = .error e →
        e.kind = .connection ∨ e.kind = .rateLimitExceeded →
          L { w with broker := b })
    (attempts : Nat) :
    ∀ (reason : String) (w : World), L w →
      (sendClose ctx leg request attempts reason).Safe C I w
        fun _ => I := by
  have hi := writesIntent_intentsKept leg.intentId
  have hc := closesLeg_intentsKept leg
  have halong : ∀ {α : Type} {p : Program α} {w : World},
      Prog.Along (Waits IntentsKept) p → I w →
        p.Safe C I w fun _ => I := by
    intro α p w hp hw
    exact (hp.safe w).imp (fun _ h => hI h hw) fun _ _ h => hI h hw
  induction attempts with
  | zero =>
      intro reason w hw
      exact halong (Prog.along_bind (along_markIntentFailed (hi.status _))
        fun _ => Prog.along_pure _) (hLI hw)
  | succ attempts ih =>
      intro reason w hw
      unfold sendClose
      rw [Prog.safe_bind]
      refine Program.safe_tryPlaceOrder_reply (hLI hw)
        fun m r b hm hplaced hreply => ?_
      obtain ⟨hnow, hagain⟩ :=
        hplace (hL (waits_interfere w m) hw) hm hplaced hreply
      rw [Prog.andThen_ok]
      cases r with
      | ok id => exact halong (takes_confirmClose ctx hi hc.under id) hnow
      | error e =>
          obtain ⟨kind, message⟩ := e
          cases kind with
          | connection => exact ih _ _ (hagain _ rfl (.inl rfl))
          | rateLimitExceeded => exact ih _ _ (hagain _ rfl (.inr rfl))
          | orderRejected =>
              exact halong (Prog.along_bind
                (along_recordCloseRejection ctx (hi.status _) message)
                fun _ => Prog.along_pure _) hnow
          | invalidOrderRequest =>
              exact halong (Prog.along_bind
                (along_recordCloseRejection ctx (hi.status _) message)
                fun _ => Prog.along_pure _) hnow
          | _ => exact hnow

/-- Placing the close of a leg, when no order accepted under the leg's
own tag is left to find. -/
private theorem placeCloseWithRetries_safe {legTag : String}
    (hnone : legTag = tag → w.broker.acceptedUnder tag = [])
    (hintent : ∃ x : OrderIntent, w.db.rows.intents[leg.intentId]? = some x
      ∧ x.brokerTag = legTag)
    (hw : BuysOnce C tag w) :
    (placeCloseWithRetries ctx leg legTag).Safe C
      (BuysOnce C tag) w fun _ => BuysOnce C tag := by
  unfold placeCloseWithRetries
  rw [Prog.safe_bind]
  refine Program.safe_unitOfWork hw
    (fun m f _ _ => hw.waits (waits_interfere w m)) fun m _ _ => ?_
  have hturn : Waits IntentsKept w (w.interfere m) := waits_interfere w m
  obtain ⟨x, hx, hxtag⟩ := hintent
  obtain ⟨y, hy, hxy⟩ := hturn.rows _ x hx
  simp only [OrderIntentRepository.getByIdOrRaise,
    OrderIntentRepository.getById, OrderIntentRepository.markBrokerCallStarted,
    meets_bind, meets_fetch, hy, orRaise, meets_pure, meets_flush,
    Prog.andThen_ok, Prog.andThen_error, Prog.safe_bind, Prog.safe_done]
  refine ⟨fun hadm => ?_, fun _ => hw.waits hturn⟩
  have hmark : Waits IntentsKept w { w.interfere m with
      db := ⟨(w.interfere m).db.rows.setIntent leg.intentId fun x =>
        { x with brokerCallStarted := true, status := .submittedUnconfirmed },
        hadm⟩ } :=
    Prog.Frame.trans (R := Waits IntentsKept) hturn
      (Waits.commit ((writesIntent_intentsKept leg.intentId).started _))
  have hmarked := hw.waits hmark
  cases hvalid : PlaceOrderRequest.validate leg.exchange leg.tradingsymbol .buy
      leg.quantity ctx.config.productType .market legTag with
  | error e => exact hmarked
  | ok request =>
      have hreqtag : request.tag = legTag := by
        unfold PlaceOrderRequest.validate at hvalid
        split_ifs at hvalid
        cases hvalid
        rfl
      rw [Prog.andThen_ok]
      by_cases htag : legTag = tag
      · -- the leg's own tag: nothing accepted yet, and started from now on
        have hretry : Retrying C tag { w.interfere m with
            db := ⟨(w.interfere m).db.rows.setIntent leg.intentId fun x =>
              { x with brokerCallStarted := true,
                       status := .submittedUnconfirmed }, hadm⟩ } := by
          refine { toBuysOnce := hmarked, allLost := ?_, open_ := ?_ }
          · rw [hmark.broker.acceptedUnder, hnone htag]
            exact fun c hc => absurd hc (List.not_mem_nil)
          · refine ⟨leg.intentId,
              { y with brokerCallStarted := true,
                       status := .submittedUnconfirmed }, ?_,
              hxy.brokerTag.trans (hxtag.trans htag), rfl⟩
            show (List.modify _ _ _)[leg.intentId]? = _
            rw [List.getElem?_modify_eq, hy]
            rfl
        exact sendClose_safe (fun h h' => h'.waits h) (fun h h' => h'.waits h)
          (fun h => h.toBuysOnce)
          (fun h hm hplaced hreply =>
            h.placed hm hplaced hreply (hreqtag.trans htag)) _ _ _ hretry
      · exact sendClose_safe (fun h h' => h'.waits h) (fun h h' => h'.waits h)
          id (fun h _ hplaced _ =>
            have hother := h.placed_other hplaced (by rw [hreqtag]; exact htag)
            ⟨hother, fun _ _ _ => hother⟩) _ _ _ hmarked

/-- What `_close_leg` reads of a leg not CLOSED yet. -/
private theorem inspectLeg_meets (db : Db) :
    Meets (inspectLeg leg) db
      (fun r db' => db' = db ∧ ∀ started legTag, r = .ok (started, legTag) →
        ∃ x : OrderIntent, db.rows.intents[leg.intentId]? = some x
          ∧ x.brokerTag = legTag ∧ x.brokerCallStarted = started)
      fun _ => True := by
  unfold inspectLeg
  rw [meets_bind]
  simp only [PositionRepository.getTradeById, meets_fetch]
  cases db.rows.trades[leg.tradeId]? with
  | none => trivial
  | some trade =>
      simp only [meets_ite, meets_pure, meets_bind,
        OrderIntentRepository.getByIdOrRaise, OrderIntentRepository.getById,
        meets_fetch]
      refine ⟨fun _ => by simp, fun _ => ?_⟩
      cases hx : db.rows.intents[leg.intentId]? with
      | none => trivial
      | some x =>
          rw [orRaise, meets_pure]
          refine ⟨rfl, fun started legTag h => ⟨x, rfl, ?_⟩⟩
          cases h
          exact ⟨rfl, rfl⟩

/-- A tag with an accepted order is found by every answered query. -/
private theorem findOrderByTag_none {pick : Nat} {read : Option BrokerError}
    (hw : BuysOnce C tag w)
    (h : w.broker.findOrderByTag tag pick read = .ok none) :
    w.broker.acceptedUnder tag = [] := by
  by_contra hne
  obtain ⟨c, hc⟩ := List.exists_mem_of_ne_nil _ hne
  obtain ⟨id, bo, -, hbo, htag, hearlier⟩ := hw.found c hc
  cases read with
  | some e => cases h
  | none =>
      have hbook : bo ∈ w.broker.orderbook.filter (·.tag = some tag) := by
        rw [List.mem_filter, Broker.orderbook, List.mem_filterMap]
        refine ⟨⟨id, ?_, hbo⟩, by simpa using htag⟩
        rw [List.mem_filter, List.mem_dedup, List.mem_map]
        exact ⟨⟨bo, Broker.current_mem hbo, Broker.current_id hbo⟩,
          by simpa using hearlier⟩
      have hlt : pick % (w.broker.orderbook.filter
          (·.tag = some tag)).length < _ :=
        Nat.mod_lt _ (List.length_pos_of_mem hbook)
      simp only [Broker.findOrderByTag, List.getElem?_eq_getElem hlt] at h
      cases h

/-- Adoption places nothing, and where it finds nothing there is nothing
to find. -/
private theorem adoptExistingOrder_safe {legTag : String}
    (hintent : ∃ x : OrderIntent, w.db.rows.intents[leg.intentId]? = some x
      ∧ x.brokerTag = legTag)
    (hw : BuysOnce C tag w) :
    (adoptExistingOrder ctx leg legTag).Safe C (BuysOnce C tag) w
      fun r w' => BuysOnce C tag w' ∧ (r = .ok none →
        (legTag = tag → w'.broker.acceptedUnder tag = [])
          ∧ ∃ x : OrderIntent, w'.db.rows.intents[leg.intentId]? = some x
            ∧ x.brokerTag = legTag) := by
  have hc := closesLeg_intentsKept leg
  unfold adoptExistingOrder
  rw [Prog.safe_bind]
  refine Program.safe_tryFindOrderByTag hw fun m r _ hfind => ?_
  have hturn : Waits IntentsKept w (w.interfere m) := waits_interfere w m
  have hnow := hw.waits hturn
  rw [Prog.andThen_ok]
  cases r with
  | error e => exact ⟨hnow, fun h => by cases h⟩
  | ok found =>
      cases found with
      | none =>
          refine ⟨hnow, fun _ => ⟨?_, ?_⟩⟩
          · intro htag
            subst htag
            exact findOrderByTag_none hnow hfind
          · obtain ⟨x, hx, hxtag⟩ := hintent
            obtain ⟨y, hy, hxy⟩ := hturn.rows _ x hx
            exact ⟨y, hy, hxy.brokerTag.trans hxtag⟩
      | some existing =>
          -- whatever it comes to, it is an answer, not a `none`
          simp only [Prog.safe_bind]
          refine (hnow.along (Program.along_pollUntilTerminal _ _)).mono
            fun polled w' hw' => ?_
          cases polled with
          | error e => exact ⟨hw', fun h => by cases h⟩
          | ok polled =>
              rw [Prog.andThen_ok]
              cases polled with
              | none => exact ⟨hw', fun h => by cases h⟩
              | some terminal =>
                  dsimp only
                  split_ifs with hcomplete
                  · rw [Prog.safe_map]
                    refine (hw'.along (takes_closeOnComplete IntentsKept
                      hc.under _ trivial hcomplete _)).mono
                      fun r w'' hw'' => ⟨hw'', fun h => ?_⟩
                    cases r <;> cases h
                  · exact ⟨hw', fun h => by cases h⟩

/-- One leg, from any state of the tag. -/
private theorem closeLeg_safe (hw : BuysOnce C tag w) :
    (closeLeg ctx leg).Safe C (BuysOnce C tag) w
      fun _ => BuysOnce C tag := by
  unfold closeLeg
  rw [Prog.safe_bind]
  refine Program.safe_unitOfWork hw
    (fun m f _ _ => hw.waits (waits_interfere w m)) fun m _ _ => ?_
  have hturn := hw.waits (waits_interfere w m)
  refine (inspectLeg_meets (w.interfere m).db).imp ?_
    fun _ _ => hturn
  intro r db hr
  obtain ⟨rfl, hintent⟩ := hr
  rw [Prog.andThen_ok]
  cases r with
  | error result => exact hturn
  | ok attempted =>
      obtain ⟨alreadyAttempted, legTag⟩ := attempted
      obtain ⟨x, hx, hxtag, hstarted⟩ := hintent _ _ rfl
      cases alreadyAttempted with
      | false =>
          -- not started, so nothing was ever accepted under its tag
          refine placeCloseWithRetries_safe ?_ ⟨x, hx, hxtag⟩ hturn
          intro htag
          by_contra hne
          obtain ⟨j, y, hy, hytag, hystarted⟩ := hturn.started hne
          obtain rfl : leg.intentId = j :=
            key_inj (w.interfere m).db.admitted.unique.brokerTag hx hy
              (hxtag.trans (htag.trans hytag.symm))
          rw [Option.some_inj.1 (hy.symm.trans hx), hstarted] at hystarted
          cases hystarted
      | true =>
          simp only [if_true, Prog.safe_bind]
          refine (adoptExistingOrder_safe ⟨x, hx, hxtag⟩ hturn).imp
            (fun _ => id) fun r w' hr => ?_
          cases r with
          | error e => exact hr.1
          | ok adopted =>
              rw [Prog.andThen_ok]
              cases adopted with
              | some result => exact hr.1
              | none =>
                  obtain ⟨hnone, hintent'⟩ := hr.2 rfl
                  exact placeCloseWithRetries_safe hnone hintent' hr.1

private theorem closeLegs_safe (legs : List ExitLegIds) :
    ∀ w, BuysOnce C tag w →
      (closeLegs ctx legs).Safe C (BuysOnce C tag) w
        fun _ => BuysOnce C tag := by
  induction legs with
  | nil => exact fun _ hw => hw
  | cons leg legs ih =>
      intro w hw
      unfold closeLegs
      rw [Prog.safe_bind]
      refine (closeLeg_safe hw).mono fun r w hw => ?_
      cases r with
      | error e => exact hw
      | ok result =>
          rw [Prog.andThen_ok, Prog.safe_bind]
          refine (ih w hw).mono fun r w hw => ?_
          cases r <;> exact hw

/-- One run of `exit`, wherever it is cut off. -/
theorem exit_safe (acquired : Bool) (reason : ExitReason) (w : World)
    (hw : BuysOnce C tag w) :
    (exit ctx acquired reason).Safe C (BuysOnce C tag) w
      fun _ => BuysOnce C tag := by
  unfold exit
  cases acquired with
  | false => exact hw
  | true =>
      simp only [if_true, Prog.safe_bind]
      refine (hw.along (along_prepareExit ctx _ _)).mono fun r w hw => ?_
      cases r with
      | error e => exact hw
      | ok prepared =>
          rw [Prog.andThen_ok]
          cases prepared with
          | error result => exact hw
          | ok prepared =>
              simp only [Prog.safe_bind]
              refine (closeLegs_safe _ w hw).mono fun r w hw => ?_
              cases r with
              | error e => exact hw
              | ok results => exact hw.along (along_conclude ctx _ _ _)

end ExitLogic

-- =================================================================== runs

/-- The jobs that exit a position: an exit, or the recovery's. -/
def Job.Exits : Job → Prop
  | .enter _ => False
  | .exit _ _ => True
  | .recover _ => True

instance : DecidablePred Job.Exits := fun j =>
  match j with
  | .enter _ => .isFalse id
  | .exit _ _ => .isTrue trivial
  | .recover _ => .isTrue trivial

/-- Any number of exit jobs keep the invariant of every tag. -/
theorem BuysOnce.run (h : BuysOnce C tag w) (ss : List Start)
    (hss : ∀ s ∈ ss, s.job.Exits) (hmoves : ∀ s ∈ ss, ∀ m ∈ s.moves, C m) :
    BuysOnce C tag (w.run ctx ss) := by
  refine World.run_safe (J := Job.Exits) ?_ ss hss hmoves w h
  intro job w hjob hw
  cases job with
  | enter inputs => exact hjob.elim
  | exit acquired reason =>
      show (discard (ExitLogic.exit ctx acquired reason)).Safe _ _ _ _
      rw [Prog.safe_discard]
      exact ExitLogic.exit_safe acquired reason w hw
  | recover acquired =>
      show (discard (Strategy1.recover ctx acquired)).Safe _ _ _ _
      rw [Prog.safe_discard]
      exact Strategy1.recover_safe ctx (fun hwait h => h.waits hwait)
        (Strategy1.along_markPositionErrorAndFreeze ctx) ExitLogic.exit_safe
        acquired w hw

/-- A tag that nothing was accepted under yet. -/
theorem BuysOnce.of_none (hnone : w.broker.acceptedUnder tag = []) :
    BuysOnce C tag w := by
  refine ⟨?_, fun hne => absurd hnone hne, ?_⟩
  · rw [hnone]
    exact fun c hc => absurd hc List.not_mem_nil
  · rw [hnone]
    exact fun c hc => absurd hc List.not_mem_nil

/-- Where no move breaks an accepted placement off, there is no second
order. -/
theorem BuysOnce.length_le (h : BuysOnce C tag w)
    (hanswered : ∀ m, C m → ¬ m.BreaksOff) :
    (w.broker.acceptedUnder tag).length ≤ 1 := by
  by_contra hlong
  have hne : (w.broker.acceptedUnder tag).dropLast ≠ [] := by
    rw [← List.length_pos_iff, List.length_dropLast]
    omega
  obtain ⟨c, hc⟩ := List.exists_mem_of_ne_nil _ hne
  obtain ⟨m, hm, hbreaks⟩ := (h.lost c hc).move
  exact hanswered m hm hbreaks

/-- Over every run of exits and recoveries, each cut off anywhere, in which
the broker breaks no placement it accepts off with `BrokerConnectionError`:
it accepts at most one order under a tag. -/
theorem exit_buysOnce_of_answered (ctx : StrategyContext) (w : World)
    (tag : String) (ss : List Start)
    (hnone : w.broker.acceptedUnder tag = [])
    (hss : ∀ s ∈ ss, s.job.Exits)
    (hanswered : ∀ s ∈ ss, ∀ m ∈ s.moves, ¬ m.BreaksOff) :
    ((w.run ctx ss).broker.acceptedUnder tag).length ≤ 1 := by
  have hinit : BuysOnce (fun m => ¬ m.BreaksOff) tag w := .of_none hnone
  exact (hinit.run ss hss hanswered).length_le fun _ hm => hm

-- ============================================================ the defect

namespace SampleDay

/-- An exit whose first CE order is accepted by a call that ends in a
connection error, and sent again. -/
def resentExit : Start where
  job := .exit true .target
  moves := [still, still, still,
    { place := .lost "B1" ⟨.connection, "read timed out"⟩ },
    { place := .ack "B2" }]

/-- An exit whose first CE order is accepted by a call that times out, and
which is cut off there; and the recovery after it, whose own placement of
the other leg is turned away before it is sent. -/
def timedOutExit : List Start :=
  [⟨.exit true .target, [still, still, still,
      { place := .lost "B1" ⟨.timeout, "no answer"⟩ }]⟩,
    ⟨.recover true, List.replicate 30
      { still with place := .refuse ⟨.connection, "not connected"⟩ }⟩]

end SampleDay

/-- The exit sends the leg again, and the broker has accepted both. -/
theorem exit_buysTwice :
    ¬ ∀ (ctx : StrategyContext) (w : World) (tag : String) (ss : List Start),
        w.broker.acceptedUnder tag = [] → (∀ s ∈ ss, s.job.Exits) →
        ((w.run ctx ss).broker.acceptedUnder tag).length ≤ 1 := by
  intro hclaim
  have hone := hclaim SampleDay.ctx SampleDay.open_ "X0-240704-CE"
    [SampleDay.resentExit] (by decide +kernel) (by decide)
  have htwo : ((SampleDay.open_.run SampleDay.ctx
      [SampleDay.resentExit]).broker.acceptedUnder "X0-240704-CE").length
        = 2 := by decide +kernel
  omega

/-- A timeout, a crash and a resumed exit leave the one order. -/
theorem exit_buysOnce_timedOut :
    (SampleDay.open_.run SampleDay.ctx
        SampleDay.timedOutExit).broker.calls.any (·.acceptedAs = some "B1")
      ∧ ((SampleDay.open_.run SampleDay.ctx
        SampleDay.timedOutExit).broker.acceptedUnder
          "X0-240704-CE").length ≤ 1 :=
  ⟨by decide +kernel, exit_buysOnce_of_answered _ _ _ _ (by decide +kernel)
    (by decide) (by decide)⟩

end AlgoPlatform
