/-
The unwind of a partial entry.

# What it needs

The rows of a durable record, ENTRY_PENDING, and a database that commits:
then one BUY of CE's quantity is placed and polled, whatever the broker
answers, and the halt follows.
-/
import AlgoPlatform.Proofs.Exceptions
import AlgoPlatform.Proofs.Tags

open Basis Basis.Session

namespace AlgoPlatform

variable {ctx : StrategyContext} {quantity : Nat}

-- ============================================================== the desk

/-- Rows that a leg of the entry, or the environment, cannot tell apart:
intents keep their keys and tags, the rest of the desk stays. -/
structure Standing (r r' : Rows) : Prop where
  instances : r'.instances = r.instances
  positions : r'.positions = r.positions
  trades : r'.trades = r.trades
  columns : r'.columns = r.columns
  named : r'.intents.map (fun x => (x.idempotencyKey, x.brokerTag))
    = r.intents.map fun x => (x.idempotencyKey, x.brokerTag)

instance : BlindToOrders Standing where
  refl := fun _ => ⟨rfl, rfl, rfl, rfl, rfl⟩
  trans := fun h h' => ⟨h'.instances.trans h.instances,
    h'.positions.trans h.positions, h'.trades.trans h.trades,
    h'.columns.trans h.columns, h'.named.trans h.named⟩
  orders := fun _ _ => ⟨rfl, rfl, rfl, rfl, rfl⟩
  breaks := fun _ _ => ⟨rfl, rfl, rfl, rfl, rfl⟩

theorem writesIntent_standing (i : Nat) : WritesIntent Standing i where
  status := fun _ _ =>
    ⟨rfl, rfl, rfl, rfl, map_modify_of_eq fun _ _ => rfl⟩
  started := fun _ =>
    ⟨rfl, rfl, rfl, rfl, map_modify_of_eq fun _ _ => rfl⟩

theorem Standing.length {r r' : Rows} (h : Standing r r') :
    r'.intents.length = r.intents.length := by
  have hlength := congrArg List.length h.named
  rwa [List.length_map, List.length_map] at hlength

/-- The straddle of a durable record, ENTRY_PENDING, with the rows its
unwind writes. -/
structure Pending (ctx : StrategyContext) (d : DurableRecord) (r : Rows) :
    Prop where
  position : ∃ p, r.positions[d.positionId]? = some p
    ∧ p.state = .entryPending
  desk : ctx.instanceId < r.instances.length
  trade : d.ce.tradeId < r.trades.length
  intent : d.pe.intentId < r.intents.length

/-- The key an unwind intent is created under. -/
def unwindKey (ctx : StrategyContext) (optionType : OptionType) : String :=
  idempotencyKey ctx optionType .exit ["UNWIND"]

/-- An intent has the unwind's key exactly if it has its tag: the two are
built together. -/
def Paired (ctx : StrategyContext) (optionType : OptionType) (r : Rows) :
    Prop :=
  ∀ x ∈ r.intents, x.idempotencyKey = unwindKey ctx optionType
    ↔ x.brokerTag = unwindTag ctx optionType

variable {d : DurableRecord} {w : World} {db : Db}

theorem Pending.standing {r r' : Rows} (h : Pending ctx d r)
    (hr : Standing r r') : Pending ctx d r' where
  position := hr.positions ▸ h.position
  desk := hr.instances ▸ h.desk
  trade := hr.trades ▸ h.trade
  intent := hr.length ▸ h.intent

theorem Paired.standing {r r' : Rows} {optionType : OptionType}
    (h : Paired ctx optionType r) (hr : Standing r r') :
    Paired ctx optionType r' := by
  intro x hx
  have hmem : (x.idempotencyKey, x.brokerTag)
      ∈ r'.intents.map fun x => (x.idempotencyKey, x.brokerTag) :=
    List.mem_map_of_mem hx
  rw [hr.named] at hmem
  obtain ⟨y, hy, hsame⟩ := List.mem_map.1 hmem
  obtain ⟨hkey, htag⟩ := Prod.mk.inj hsame
  rw [← hkey, ← htag]
  exact h y hy

/-- Every COMPLETE order has a positive price. -/
def Broker.Priced (b : Broker) : Prop :=
  ∀ bo ∈ b.log, bo.status = .complete →
    ∃ price, bo.averagePrice = some price ∧ 0 < price

/-- A BUY of CE's whole quantity. -/
def BuysBack (d : DurableRecord) (c : PlaceCall) : Prop :=
  c.request.transactionType = .buy ∧ c.request.quantity = d.quantity
    ∧ c.request.tradingsymbol = d.ce.tradingsymbol

/-- A request with a quantity and a short tag is valid. -/
theorem PlaceOrderRequest.validate_goes {tag : String} (hquantity : 0 < quantity)
    (htag : 1 ≤ tag.length ∧ tag.length ≤ 20) (exchange : Exchange)
    (symbol : String) (side : TransactionType) (product : ProductType) :
    ∃ request, validate exchange symbol side quantity product
      .market tag = .ok request := by
  unfold PlaceOrderRequest.validate
  rw [dif_pos hquantity, dif_pos htag]
  exact ⟨_, rfl⟩

-- ============================================================ the unwind

namespace EntryLogic

/-- The unwind's first commit: the intent under the unwind's tag,
started. -/
private theorem startUnwind_goes (hpending : Pending ctx d db.rows)
    (hpaired : Paired ctx d.ce.optionType db.rows)
    (htag : (unwindTag ctx d.ce.optionType).length ≤ 20)
    (hquantity : 0 < d.quantity) :
    Meets (startUnwind ctx d.ce d.quantity) db
      (fun row db' => row.2.brokerTag = unwindTag ctx d.ce.optionType
        ∧ row.1 < db'.rows.intents.length ∧ Pending ctx d db'.rows)
      fun _ => False := by
  have hvalid : validateTag (unwindTag ctx d.ce.optionType)
      = .ok (unwindTag ctx d.ce.optionType) := by
    unfold validateTag
    rw [if_neg (Nat.not_lt.2 htag)]
  unfold startUnwind
  rw [meets_bind, meets_lift]
  refine ⟨fun tag h => ?_, fun e h => ?_⟩
  swap
  · rw [hvalid] at h
    cases h
  rw [hvalid] at h
  cases h
  rw [meets_bind]
  refine (getOrCreate_meets (E := fun _ => False) (Q := fun x db' =>
    x.1.2.brokerTag = unwindTag ctx d.ce.optionType
      ∧ x.1.1 < db'.rows.intents.length ∧ Pending ctx d db'.rows)
    ?_ fun hnone => ?_).imp (fun x db' h => ?_) fun _ h => h
  · -- a row under the key has the tag
    refine (getByIdempotencyKey_goes db _).imp (fun row db' h => ?_)
      fun _ h => h
    obtain ⟨rfl, ⟨rfl, -⟩ | ⟨i, x, rfl, hi, hkey⟩⟩ := h
    · exact ⟨rfl, fun _ h => nomatch h⟩
    · refine ⟨rfl, fun y hy => ?_⟩
      cases hy
      exact ⟨(hpaired x (List.mem_of_getElem? hi)).1 hkey,
        (List.getElem?_eq_some_iff.1 hi).1, hpending⟩
  · -- no row has the tag where none has the key
    have hfree : ∀ x ∈ db.rows.intents,
        x.idempotencyKey ≠ unwindKey ctx d.ce.optionType := by
      have hlookup := getByIdempotencyKey_goes db
        (unwindKey ctx d.ce.optionType)
      unfold Meets at hlookup
      unfold unwindKey at hlookup ⊢
      rw [hnone] at hlookup
      obtain ⟨-, ⟨-, hfree⟩ | ⟨i, x, h, -⟩⟩ := hlookup
      · exact hfree
      · cases h
    unfold OrderIntentRepository.insert
    rw [meets_bind, meets_fetch, meets_bind, meets_flush]
    refine ⟨fun _ => ?_, fun hno => hno ?_⟩
    · rw [meets_pure]
      refine ⟨rfl, ?_, hpending.position, hpending.desk, hpending.trade, ?_⟩
      · dsimp only
        rw [List.length_append]
        exact Nat.lt_succ_self _
      · dsimp only
        rw [List.length_append]
        exact Nat.lt_add_right _ hpending.intent
    · exact db.admitted.addIntent hquantity hpending.trade hfree
        fun x hx htag => hfree x hx ((hpaired x hx).2 htag)
  · obtain ⟨⟨intentId, intent⟩, created⟩ := x
    obtain ⟨htag', hi, hpending'⟩ := h
    unfold OrderIntentRepository.markBrokerCallStarted
    rw [meets_bind, meets_flush]
    refine ⟨fun _ => ?_, fun hno => hno ?_⟩
    · rw [meets_pure]
      have hstarted : Standing db'.rows (db'.rows.setIntent intentId fun x =>
          { x with brokerCallStarted := true,
                   status := .submittedUnconfirmed }) :=
        (writesIntent_standing intentId).started db'.rows
      refine ⟨htag', ?_, hpending'.standing hstarted⟩
      dsimp only
      rw [hstarted.length]
      exact hi
    · exact db'.admitted.setIntent (fun _ => rfl) (fun _ => rfl)
        (fun _ => rfl) fun _ => rfl

/-- The unwind's last commit. -/
private theorem settleUnwind_goes (hpending : Pending ctx d db.rows)
    {intentId : Nat} (hi : intentId < db.rows.intents.length)
    {bo : Option BrokerOrder} {filled : Bool}
    (hprice : filled = true →
      ∃ price, bo.bind (·.averagePrice) = some price ∧ 0 < price) :
    Meets (settleUnwind d.ce intentId bo filled) db
      (fun _ db' => Pending ctx d db'.rows) fun _ => False := by
  obtain ⟨t, ht⟩ : ∃ t, db.rows.trades[d.ce.tradeId]? = some t :=
    ⟨_, List.getElem?_eq_getElem hpending.trade⟩
  unfold settleUnwind PositionRepository.updateTradeIfAny
    PositionRepository.getTradeById PositionRepository.updateTrade
  rw [meets_bind, meets_bind, meets_fetch, ht]
  dsimp only
  rw [meets_flush]
  refine ⟨fun hadm => ?_, fun hno => hno ?_⟩
  · have hpending' : Pending ctx d (db.rows.setTrade d.ce.tradeId fun t =>
        if filled then
          { t with
            status := .unwound,
            exitPrice := (bo.bind (·.averagePrice)).map db.rows.money }
        else { t with status := .error }) := by
      refine ⟨hpending.position, hpending.desk, ?_, hpending.intent⟩
      rw [Rows.setTrade_trades, List.length_modify]
      exact hpending.trade
    have hresolve : ∀ status, Meets (do
        let _ ← OrderIntentRepository.getByIdOrRaise intentId
        OrderIntentRepository.markStatus status intentId : Session Unit)
        ⟨_, hadm⟩ (fun _ db' => Pending ctx d db'.rows) fun _ => False := by
      intro status
      refine (@resolveIntent_goes ⟨_, hadm⟩ intentId hi status).imp
        (fun _ db' h => ?_) fun _ h => h
      rw [h]
      exact hpending'.standing ((writesIntent_standing intentId).status
        status _)
    cases filled with
    | true => exact hresolve .confirmed
    | false => exact hresolve .failed
  · refine db.admitted.setTrade (fun t ht => ?_) (fun t => ?_) (fun t => ?_)
      (fun t => ?_) fun t ht => ?_
    · obtain ⟨hquantity, hentry, hexit⟩ :=
        db.admitted.checked.trades t (List.mem_of_getElem? ht)
      cases filled with
      | false => exact ⟨hquantity, hentry, hexit⟩
      | true =>
          obtain ⟨price, hsome, hpos⟩ := hprice rfl
          refine ⟨hquantity, hentry, fun q hq => ?_⟩
          rw [if_pos rfl, hsome] at hq
          cases hq
          exact MoneyColumns.keep_nonneg hpos.le
    · cases filled <;> rfl
    · cases filled <;> rfl
    · cases filled <;> rfl
    · have hscaled := Trade.kept_eq_iff.1
        (db.admitted.scaled.trades t (List.mem_of_getElem? ht))
      rw [Trade.kept_eq_iff]
      cases filled with
      | false => exact hscaled
      | true =>
          obtain ⟨price, hsome, -⟩ := hprice rfl
          refine ⟨hscaled.1, ?_, hscaled.2.2⟩
          rw [if_pos rfl, hsome]
          exact congrArg some (Rows.money_money _ _)

/-- An unwind tag is not empty, and as long as the leg's entry tag. -/
theorem unwindTag_length (ctx : StrategyContext) (type : OptionType) :
    1 ≤ (unwindTag ctx type).length
      ∧ (unwindTag ctx type).length = (entryTag ctx type).length := by
  have hunwind := TagPurpose.length_text ctx type .unwind
  have hentry := TagPurpose.length_text ctx type .entry
  dsimp only [TagPurpose.text] at hunwind hentry
  rw [hunwind, hentry]
  exact ⟨Nat.le_add_left 1 _, rfl⟩

/-- What the broker's part of the unwind comes to: one BUY, whatever it
is answered, and at most a broker exception. -/
structure BoughtBack (ctx : StrategyContext) (d : DurableRecord)
    (w : World) (r : Except Exc (Nat × Option BrokerOrder)) (w' : World) :
    Prop where
  pending : Pending ctx d w'.db.rows
  calls : ∃ c, w'.broker.calls = w.broker.calls ++ [c] ∧ BuysBack d c
  raised : ∀ e, r = .error e → ∃ be, e = .broker be
  polled : ∀ intentId bo, r = .ok (intentId, bo) →
    intentId < w'.db.rows.intents.length ∧ ∀ x ∈ bo, x ∈ w'.broker.log

/-- A turn of the environment, seen from the desk. -/
theorem standing_interfere (w : World) (m : Move) :
    Waits Standing w (w.interfere m) := waits_interfere w m

/-- A poll ends with what the broker has shown, or with nothing. -/
private theorem poll_shows (id : String) (attempts : Nat) (w : World) :
    (Program.pollUntilTerminal id attempts).Safe (fun m => m.fault = none)
      (fun _ => True) w fun r w' => ∃ polled, r = .ok polled
        ∧ Waits Standing w w' ∧ ∀ bo ∈ polled, bo ∈ w'.broker.log := by
  have hwaits := Program.along_pollUntilTerminal (R := Standing) id attempts
  refine ((hwaits.safe w).and ((Program.pollUntilTerminal_safe id attempts
    w).restrict fun _ _ => trivial)).imp (fun _ _ => trivial)
    fun r w' h => ?_
  obtain ⟨hwaits, hpolled⟩ := h
  cases hpolled with
  | exhausted seen hseen hlength hreads =>
      exact ⟨none, rfl, hwaits, fun _ h => nomatch h⟩
  | @terminal _ bo seen hseen hterm hcurrent hreads =>
      refine ⟨some bo, rfl, hwaits, fun x hx => ?_⟩
      cases hx
      exact Broker.current_mem hcurrent

private theorem buyBack_safe (hpending : Pending ctx d w.db.rows)
    (hpaired : Paired ctx d.ce.optionType w.db.rows)
    (htag : (unwindTag ctx d.ce.optionType).length ≤ 20)
    (hquantity : 0 < d.quantity) :
    (buyBack ctx d.ce d.quantity).Safe (fun m => m.fault = none)
      (fun _ => True) w (BoughtBack ctx d w) := by
  unfold buyBack
  rw [Prog.safe_bind]
  refine Program.safe_unitOfWork trivial (fun m f hm hf => ?_)
    fun m _ _ => ?_
  · rw [hm] at hf
    cases hf
  have hturn := standing_interfere w m
  refine (startUnwind_goes (hpending.standing hturn.rows)
    (hpaired.standing hturn.rows) htag hquantity).imp (fun row db h => ?_)
    fun _ h => h.elim
  obtain ⟨intentId, intent⟩ := row
  obtain ⟨hrowtag, hi, hpending₁⟩ := h
  obtain ⟨request, hvalid⟩ := PlaceOrderRequest.validate_goes hquantity
    ⟨(unwindTag_length ctx d.ce.optionType).1, htag⟩ d.ce.contract.exchange
    d.ce.tradingsymbol .buy ctx.config.productType
  obtain ⟨-, hsymbol, hside, hrequested, -⟩ :=
    PlaceOrderRequest.validate_ok hvalid
  dsimp only at hrowtag hi
  rw [Prog.andThen_ok]
  dsimp only
  rw [Prog.safe_bind, hrowtag, hvalid, Prog.safe_done, Prog.andThen_ok,
    Prog.safe_bind]
  refine Program.safe_placeOrder trivial fun m' r b _ hplaced => ?_
  have hturn' := standing_interfere { w.interfere m with db } m'
  obtain ⟨c, hcalls, hrequest, -⟩ := hplaced.call
  have hbought : ∃ c, b.calls = w.broker.calls ++ [c] ∧ BuysBack d c := by
    refine ⟨c, hcalls.trans ?_, ?_⟩
    · rw [hturn'.broker.calls]
      exact congrArg (· ++ [c]) hturn.broker.calls
    · unfold BuysBack
      rw [hrequest]
      exact ⟨hside, hrequested, hsymbol⟩
  have hpending₂ := hpending₁.standing hturn'.rows
  cases r with
  | error e =>
      show BoughtBack ctx d w (.error (.broker e)) _
      refine ⟨hpending₂, hbought, fun e' he' => ⟨e, ?_⟩, fun _ _ h => ?_⟩
      · cases he'
        rfl
      · cases h
  | ok brokerOrderId =>
      show (do
        let bo ← Program.pollUntilTerminal brokerOrderId ctx.fillAttempts
        pure (intentId, bo) : Program _).Safe _ _ _ _
      rw [Prog.safe_bind]
      refine (poll_shows brokerOrderId ctx.fillAttempts _).mono
        fun r w₂ h => ?_
      obtain ⟨polled, rfl, hwaits, hshown⟩ := h
      rw [Prog.andThen_ok, Prog.safe_pure]
      refine ⟨hpending₂.standing hwaits.rows, ?_, nofun, fun i bo h => ?_⟩
      · rw [hwaits.broker.calls]
        exact hbought
      · cases h
        refine ⟨?_, hshown⟩
        rw [hwaits.rows.length]
        dsimp only
        rw [hturn'.rows.length]
        exact hi

/-- The unwind comes to one BUY, at positive prices to no exception. -/
private theorem autoUnwind_buys (hpending : Pending ctx d w.db.rows)
    (hpaired : Paired ctx d.ce.optionType w.db.rows)
    (htag : (unwindTag ctx d.ce.optionType).length ≤ 20)
    (hquantity : 0 < d.quantity) :
    (autoUnwind ctx d.ce d.quantity).Safe (fun m => m.fault = none)
      (fun _ => True) w fun r w' => w'.broker.Priced →
        (∃ unwound, r = .ok unwound) ∧ Pending ctx d w'.db.rows
          ∧ ∃ c, w'.broker.calls = w.broker.calls ++ [c] ∧ BuysBack d c := by
  unfold autoUnwind Program.tryBroker
  rw [Prog.safe_bind, Prog.safe_tryCatch, Prog.safe_bind]
  refine (buyBack_safe hpending hpaired htag hquantity).mono fun r w₁ h => ?_
  obtain ⟨hpending₁, hcalls, hraised, hpolled⟩ := h
  cases r with
  | error e =>
      obtain ⟨be, rfl⟩ := hraised e rfl
      exact fun _ => ⟨⟨false, rfl⟩, hpending₁, hcalls⟩
  | ok bought =>
      obtain ⟨intentId, bo⟩ := bought
      obtain ⟨hi, hshown⟩ := hpolled intentId bo rfl
      rw [Prog.andThen_ok, Prog.safe_pure, Prog.orElse_ok, Prog.andThen_ok]
      dsimp only
      rw [Prog.safe_bind]
      refine Program.safe_unitOfWork trivial (fun m f hm hf => ?_)
        fun m _ _ => ?_
      · rw [hm] at hf
        cases hf
      have hturn := standing_interfere w₁ m
      have hcalls' : ∃ c, (w₁.interfere m).broker.calls
          = w.broker.calls ++ [c] ∧ BuysBack d c := by
        rw [hturn.broker.calls]
        exact hcalls
      by_cases hpriced : (w₁.interfere m).broker.Priced
      · refine (settleUnwind_goes (hpending₁.standing hturn.rows)
          (by rw [hturn.rows.length]; exact hi) fun hfilled => ?_).imp
          (fun _ db h _ => ⟨⟨_, rfl⟩, h, hcalls'⟩) fun _ h => h.elim
        cases bo with
        | none => cases hfilled
        | some bo =>
            exact hpriced bo (hturn.broker.log.subset (hshown bo rfl))
              (of_decide_eq_true hfilled)
      · unfold Meets
        split
        · exact fun h => absurd h hpriced
        · exact fun h => absurd h hpriced

end EntryLogic

-- ======================================================== a partial entry

/-- CE is bought back by one order, and the straddle is halted with a
break on record. -/
structure Unwound (ctx : StrategyContext) (d : DurableRecord) (w w' : World) :
    Prop where
  calls : ∃ c, w'.broker.calls = w.broker.calls ++ [c] ∧ BuysBack d c
  halted : w'.db.rows.Halted ctx d.positionId
  recorded : ∃ b ∈ w'.db.rows.breaks, b.positionId = some d.positionId

theorem Noted.standing {r r' : Rows} (h : Noted r r') : Standing r r' := by
  obtain ⟨_, bs, rfl⟩ := h
  exact ⟨rfl, rfl, rfl, rfl, rfl⟩

theorem EntryLogic.partialEntry_unwinds (hpending : Pending ctx d w.db.rows)
    (hpaired : Paired ctx d.ce.optionType w.db.rows)
    (htag : (unwindTag ctx d.ce.optionType).length ≤ 20)
    (hquantity : 0 < d.quantity) (peResult : LegResult) :
    (partialEntry ctx d peResult).Safe (fun m => m.fault = none)
      (fun _ => True) w fun _ w' => w'.broker.Priced →
        Unwound ctx d w w' := by
  unfold partialEntry
  rw [Prog.safe_bind]
  refine (autoUnwind_buys hpending hpaired htag hquantity).mono
    fun r w₁ h => ?_
  by_cases hpriced : w₁.broker.Priced
  · obtain ⟨⟨unwound, rfl⟩, hpending₁, c, hcalls, hbuys⟩ := h hpriced
    rw [Prog.andThen_ok, Prog.safe_bind]
    obtain ⟨p, hp, hstate⟩ := hpending₁.position
    refine (Bookkeeping.recordBreak_safe hp (fun i hi => ?_) _).mono
      fun r w₂ h => ?_
    · cases hi
      exact hpending₁.intent
    obtain ⟨rfl, hnoted, b, hb, hof⟩ := h
    have hpending₂ := hpending₁.standing hnoted.rows.standing
    obtain ⟨q, hq, hstate'⟩ := hpending₂.position
    rw [Prog.andThen_ok]
    dsimp only
    unfold failToError
    rw [Prog.safe_bind]
    refine (Bookkeeping.failToError_safe hq (by rw [hstate']; exact nofun)
      (by rw [hstate']; exact nofun) hpending₂.desk _).mono fun r w₃ h => ?_
    obtain ⟨rfl, hhalted, hbreaks, hbroker⟩ := h
    refine fun _ => ⟨⟨c, ?_, hbuys⟩, hhalted, b, hbreaks.subset hb, hof⟩
    rw [hbroker.calls, hnoted.broker.calls]
    exact hcalls
  · -- a COMPLETE order without a price stays in the log
    have hstays : ∀ v, Waits (BooksKept ctx) w₁ v → ¬ v.broker.Priced :=
      fun v hv hv' => hpriced fun bo hbo => hv' bo (hv.broker.log.subset hbo)
    cases r with
    | error e => exact fun h => absurd h hpriced
    | ok unwound =>
        have hrest : Prog.Along (Waits (BooksKept ctx)) (do
            recordBreak d.positionId (some d.pe.intentId)
              (if peResult.outcome = .ambiguous then .ambiguousAck
                else .partialEntry)
            let detail := if unwound then "CE unwound"
              else "CE UNWIND FAILED -- NAKED EXPOSURE"
            failToError ctx d.positionId .partialEntryError
              ("partial entry (PE " ++ peResult.outcome.value ++ "); "
                ++ detail) : Program EntryResult) :=
          Prog.along_bind along_recordBreak fun _ =>
            Prog.along_bind (books_failToError _ _ _) fun _ =>
              Prog.along_pure _
        exact (hrest.safe w₁).imp (fun _ _ => trivial)
          fun _ v hv h => absurd h (hstays v hv)

end AlgoPlatform
