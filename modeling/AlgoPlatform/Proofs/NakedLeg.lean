/-
The naked CE leg.

# The law

Once CE is FILLED and PE ends otherwise, `enter` buys CE back with one
order, and leaves the position in ERROR, the instance FROZEN and a break
on record; in every other entry it buys nothing.

# The defect

`_place_leg` handles five of the broker's exceptions. Any other one that
the placement of PE raises leaves `enter` on the spot: CE stays sold, and
nothing is recorded (`noNakedCe_iff`).
-/
import AlgoPlatform.Proofs.Unwind

open Basis Basis.Session

namespace AlgoPlatform

-- ============================================================== one leg

/-- What one leg's placement leaves of the broker's calls: none where it
raised before, else one SELL; a broker exception it lets through is the
one the call raised. -/
inductive LegCalls (w w' : World) : Except Exc LegResult → Prop
  | unplaced {e : Exc} (same : w'.broker.calls = w.broker.calls)
      (internal : e.Internal) : LegCalls w w' (.error e)
  | placed {r : Except Exc LegResult} {c : PlaceCall}
      (calls : w'.broker.calls = w.broker.calls ++ [c])
      (sells : c.request.transactionType = .sell)
      (escapes : ∀ e, r = .error (.broker e)
        ↔ c.raised = some e ∧ e.kind.isHandled = false) : LegCalls w w' r

section Entry

variable {ctx : StrategyContext} {leg : LegIds} {quantity : Nat}

namespace EntryLogic

/-- An exception that is not handled leaves the leg at once. -/
theorem afterPlacement_unhandled {e : BrokerError}
    (h : e.kind.isHandled = false) :
    afterPlacement ctx leg quantity (.error e) = throw (.broker e) := by
  obtain ⟨kind, message⟩ := e
  cases kind with
  | connection => cases h
  | timeout => cases h
  | rateLimitExceeded => cases h
  | orderRejected => cases h
  | invalidOrderRequest => cases h
  | _ => rfl

private theorem raises_confirmAndRecord (brokerOrderId : String) :
    Prog.Raises Exc.Internal
      (confirmAndRecord ctx leg quantity brokerOrderId) := by
  have hsettle : ∀ orderId, Session.Raises Exc.Internal
      (settle ctx leg orderId brokerOrderId) := by
    intro orderId
    refine Session.raises_bind (Session.raises_bind (Session.raises_fetch _)
      fun _ => raises_orRaise _ _) fun order => Session.raises_ite ?_ ?_
    · cases order.averagePrice with
      | none => exact Session.raises_throw nofun
      | some price =>
          exact Session.raises_ite (Session.raises_throw nofun)
            (Session.raises_pure _)
    · exact Session.raises_bind (raises_getIntent _) fun _ =>
        Session.raises_bind (raises_markStatus _ _) fun _ =>
          Session.raises_pure _
  refine Prog.raises_bind (Program.raises_unitOfWork fun _ => raises_recordAck)
    fun orderId => Prog.raises_bind (Program.raises_pollUntilTerminal _ _)
      fun polled => ?_
  cases polled with
  | none => exact Prog.raises_pure _
  | some bo =>
      exact Prog.raises_bind (Program.raises_reconcileOrderTerminal _ _)
        fun _ => Program.raises_unitOfWork fun _ => hsettle _

/-- Whatever else the broker answered, no broker exception gets
through. -/
private theorem raises_afterPlacement {r : Except BrokerError String}
    (h : ∀ e, r = .error e → e.kind.isHandled = true) :
    Prog.Raises Exc.Internal (afterPlacement ctx leg quantity r) := by
  cases r with
  | ok brokerOrderId => exact raises_confirmAndRecord brokerOrderId
  | error e =>
      have hhandled := h e rfl
      have hrejected : Prog.Raises Exc.Internal (do
          recordLegRejection ctx leg e.message
          pure { outcome := .failed,
                 reason := "rejected before ack: " ++ e.message } :
            Program LegResult) :=
        Prog.raises_bind Program.raises_recordRejection fun _ =>
          Prog.raises_pure _
      have hunsent : Prog.Raises Exc.Internal (do
          markIntentFailed leg.intentId
          pure { outcome := .failed, reason := "not sent: " ++ e.message } :
            Program LegResult) :=
        Prog.raises_bind (Program.raises_markIntentFailed _) fun _ =>
          Prog.raises_pure _
      obtain ⟨kind, message⟩ := e
      cases kind with
      | orderRejected => exact hrejected
      | invalidOrderRequest => exact hrejected
      | connection => exact hunsent
      | rateLimitExceeded => exact hunsent
      | timeout => exact Prog.raises_pure _
      | _ => cases hhandled

/-- One leg of the entry calls `place_order` once at most. -/
theorem placeLeg_calls (w : World) :
    (placeLeg ctx leg quantity).Safe (fun _ => True) (fun _ => True) w
      fun r w' => LegCalls w w' r := by
  have hi := writesIntent_ledgerKept leg.intentId
  have hstart : Session.Raises Exc.Internal (startIntent leg) :=
    Session.raises_bind (raises_getIntent _) fun _ =>
      Session.raises_bind (raises_write _) fun _ => Session.raises_pure _
  rw [placeLeg_eq, Prog.safe_bind]
  refine (((Program.along_unitOfWork (R := LedgerKept) fun _ =>
    keeps_startIntent hi.started).safe w).and ((Program.raises_unitOfWork
      fun _ => hstart).safe w)).imp (fun _ _ => trivial) fun r w₁ h => ?_
  obtain ⟨hwaits, hraises⟩ := h
  cases r with
  | error e => exact .unplaced hwaits.broker.calls (hraises e rfl)
  | ok tag =>
      rw [Prog.andThen_ok, Prog.safe_bind, Prog.safe_done]
      cases hvalid : PlaceOrderRequest.validate leg.contract.exchange
          leg.tradingsymbol .sell quantity ctx.config.productType .market
          tag with
      | error e =>
          refine .unplaced hwaits.broker.calls ?_
          unfold PlaceOrderRequest.validate at hvalid
          split_ifs at hvalid <;>
          · cases hvalid
            intro be hbe
            cases hbe
      | ok request =>
          rw [Prog.andThen_ok, Prog.safe_bind]
          refine Program.safe_tryPlaceOrder trivial fun m r b _ hplaced => ?_
          rw [Prog.andThen_ok]
          have hsell : request.transactionType = .sell :=
            (PlaceOrderRequest.validate_ok hvalid).2.2.1
          obtain ⟨c, hcalls, hrequest, hraised⟩ := hplaced.call
          have hbefore : (w₁.interfere m).broker.calls = w.broker.calls :=
            (waits_interfere (R := LedgerKept) w₁ m).broker.calls.trans
              hwaits.broker.calls
          rw [hbefore] at hcalls
          have hsells : c.request.transactionType = .sell :=
            (congrArg _ hrequest).trans hsell
          by_cases hhandled : ∀ e, r = .error e → e.kind.isHandled = true
          · refine (((along_afterPlacement (R := LedgerKept) ctx hi quantity
              r).safe _).and ((raises_afterPlacement hhandled).safe _)).imp
              (fun _ _ => trivial) fun r' w₂ h => ?_
            obtain ⟨hwaits', hraises⟩ := h
            refine .placed (hwaits'.broker.calls.trans hcalls) hsells
              fun e => ⟨fun he => ?_, fun he => ?_⟩
            · exact absurd rfl (hraises _ he e)
            · have hyes := hhandled e ((hraised e).2 he.1)
              rw [he.2] at hyes
              cases hyes
          · -- an exception that is not handled
            obtain ⟨e, hno⟩ := not_forall.1 hhandled
            obtain ⟨rfl, hkind⟩ := Classical.not_imp.1 hno
            rw [Bool.not_eq_true] at hkind
            rw [afterPlacement_unhandled hkind]
            refine .placed hcalls hsells fun e' => ⟨fun he => ?_, fun he => ?_⟩
            · cases he
              exact ⟨(hraised e).1 rfl, hkind⟩
            · cases (hraised e').2 he.1
              rfl

end EntryLogic
variable {d : DurableRecord} {w : World} {db : Db}

-- ======================================================= what is recorded

/-- No entry tag is an unwind tag. -/
theorem entryTag_ne_unwindTag (ctx : StrategyContext) (s t : OptionType) :
    entryTag ctx s ≠ unwindTag ctx t := by
  intro h
  have hsame : SameLeg ctx ctx s t .entry .unwind :=
    TagPurpose.text_inj (by omega) (by omega) h
  cases hsame.purpose

/-- No entry key is an unwind key. -/
theorem entryKey_ne_unwindKey (ctx : StrategyContext) (s t : OptionType) :
    idempotencyKey ctx s .entry [] ≠ unwindKey ctx t := by
  intro h
  have hsame : SameLeg ctx ctx s t .entry .unwind := TagPurpose.key_inj h
  cases hsame.purpose

/-- A durable record whose CE leg can be unwound. -/
structure Ready (ctx : StrategyContext) (d : DurableRecord) (r : Rows) :
    Prop where
  pending : Pending ctx d r
  paired : Paired ctx d.ce.optionType r
  tag : (unwindTag ctx d.ce.optionType).length ≤ 20
  quantity : 0 < d.quantity

theorem Ready.standing {r r' : Rows} (h : Ready ctx d r)
    (hr : Standing r r') : Ready ctx d r' :=
  { h with pending := h.pending.standing hr, paired := h.paired.standing hr }

namespace EntryLogic

/-- What adding a leg to the durable record leaves as it was. -/
structure AddsLeg (ctx : StrategyContext) (r r' : Rows) : Prop where
  instances : r'.instances = r.instances
  positions : r'.positions = r.positions
  trades : r.trades.length ≤ r'.trades.length
  intents : r.intents.length ≤ r'.intents.length
  paired : ∀ type, Paired ctx type r → Paired ctx type r'

/-- One leg of the durable record: its trade, its intent, and a tag that
is not too long. -/
private theorem createLeg_adds (db : Db) (positionId quantity : Nat)
    (strike : ℚ) (contract : BrokerInstrument) :
    Meets (createLeg ctx positionId quantity strike contract) db
      (fun leg db' => AddsLeg ctx db.rows db'.rows
        ∧ leg.optionType = contract.optionType
        ∧ (entryTag ctx contract.optionType).length ≤ 20
        ∧ leg.tradeId < db'.rows.trades.length
        ∧ leg.intentId < db'.rows.intents.length) fun _ => True := by
  unfold createLeg PositionRepository.addTrade
  simp only [meets_bind, meets_fetch, meets_flush, meets_pure, meets_lift]
  refine ⟨fun hadm => ⟨fun tag htag => ?_, fun _ _ => trivial⟩,
    fun _ => trivial⟩
  have hshort : (entryTag ctx contract.optionType).length ≤ 20 := by
    unfold validateTag at htag
    split_ifs at htag with hlong
    exact Nat.not_lt.1 hlong
  obtain rfl := validateTag_ok htag
  -- the intent, with the trade already there
  refine (getOrCreate_meets (E := fun _ => True) (Q := fun x db' =>
    AddsLeg ctx db.rows db'.rows ∧ db.rows.trades.length < db'.rows.trades.length
      ∧ x.1.1 < db'.rows.intents.length) ?_ fun _ => ?_).imp
    (fun x db' h => ?_) fun _ _ => trivial
  · refine (getByIdempotencyKey_goes _ _).imp (fun row db' h => ?_)
      fun _ h => h.elim
    obtain ⟨rfl, ⟨rfl, -⟩ | ⟨i, x, rfl, hi, -⟩⟩ := h
    · exact ⟨rfl, fun _ h => by cases h⟩
    · refine ⟨rfl, fun y hy => ?_⟩
      cases hy
      refine ⟨⟨rfl, rfl, ?_, le_refl _, fun _ h => h⟩, ?_,
        (List.getElem?_eq_some_iff.1 hi).1⟩ <;>
      · dsimp only
        rw [List.length_append, List.length_singleton]
        omega
  · unfold OrderIntentRepository.insert
    rw [meets_bind, meets_fetch, meets_bind, meets_flush]
    refine ⟨fun _ => ?_, fun _ => trivial⟩
    rw [meets_pure]
    refine ⟨⟨rfl, rfl, ?_, ?_, fun type hpaired x hx => ?_⟩, ?_, ?_⟩
    · dsimp only
      rw [List.length_append]
      omega
    · dsimp only
      rw [List.length_append]
      omega
    · rcases List.mem_append.1 hx with hx | hx
      · exact hpaired x hx
      · rw [List.mem_singleton.1 hx]
        exact ⟨fun h => absurd h (entryKey_ne_unwindKey ctx _ _),
          fun h => absurd h (entryTag_ne_unwindTag ctx _ _)⟩
    · dsimp only
      rw [List.length_append, List.length_singleton]
      omega
    · dsimp only
      rw [List.length_append, List.length_singleton]
      omega
  · obtain ⟨⟨intentId, intent⟩, created⟩ := x
    exact ⟨h.1, rfl, hshort, h.2.1, h.2.2⟩

/-- The durable record is ready for its unwind. -/
private theorem createDurableRecord_ready (db : Db)
    (selection : StraddleStrikeSelection)
    (hpaired : ∀ type, Paired ctx type db.rows) :
    Meets (do
      let ((positionId, _), created) ←
        PositionRepository.getOrCreate (newPosition ctx selection)
      if created then
        let quantity := ctx.config.lots * selection.call.lotSize
        let ce ← createLeg ctx positionId quantity selection.atmStrike
          selection.call
        let pe ← createLeg ctx positionId quantity selection.atmStrike
          selection.put
        pure (some { positionId, quantity, ce, pe })
      else
        pure none : Session (Option DurableRecord)) db
      (fun r db' => ∀ d, r = some d → Ready ctx d db'.rows)
      fun _ => True := by
  rw [meets_bind]
  refine getOrCreate_meets ?_ fun _ => ?_
  · unfold PositionRepository.getByInstanceAndDate
    rw [meets_bind, meets_fetch, meets_scalarOneOrNone]
    refine ⟨fun _ => ⟨rfl, fun x hx => ?_⟩,
      fun row _ => ⟨rfl, fun x _ => ?_⟩, fun _ => trivial⟩
    · cases hx
    dsimp only
    rw [if_neg Bool.false_ne_true, meets_pure]
    exact fun d hd => nomatch hd
  · unfold PositionRepository.insert
    rw [meets_bind, meets_fetch, meets_bind, meets_flush]
    refine ⟨fun hadm => ?_, fun _ => trivial⟩
    rw [meets_pure]
    dsimp only
    rw [if_pos rfl, meets_bind]
    refine (createLeg_adds _ _ _ _ _).imp ?_ fun _ h => h
    intro ce db₁ hce
    obtain ⟨hadds, htype, hshort, hceTrade, -⟩ := hce
    rw [meets_bind]
    refine (createLeg_adds _ _ _ _ _).imp ?_ fun _ h => h
    intro pe db₂ hpe
    obtain ⟨hadds', -, -, -, hpeIntent⟩ := hpe
    rw [meets_pure]
    intro d hd
    cases hd
    have hinst : ctx.instanceId < db.rows.instances.length :=
      Rows.Linked.positions hadm.linked
        (Position.kept db.rows.money (newPosition ctx selection))
        (List.mem_append_right _ (List.mem_singleton_self _))
    refine ⟨⟨⟨Position.kept db.rows.money (newPosition ctx selection), ?_, rfl⟩, ?_,
      hceTrade.trans_le hadds'.trades, hpeIntent⟩,
      hadds'.paired _ (hadds.paired _ (hpaired _)), ?_,
      Nat.mul_pos ctx.config.lots_pos selection.call.lotSize_pos⟩
    · dsimp only
      rw [hadds'.positions, hadds.positions]
      exact List.getElem?_concat_length
    · rw [hadds'.instances, hadds.instances]
      exact hinst
    · dsimp only
      rw [(unwindTag_length ctx _).2, htype]
      exact hshort

/-- The commit of the durable record. -/
private theorem recorded_ready {v : World}
    (hpaired : ∀ type, Paired ctx type w.db.rows) (hv : Waits Standing w v)
    (selection : StraddleStrikeSelection) :
    (createDurableRecord ctx selection).Safe (fun _ => True)
      (fun _ => True) v fun r w' => w'.broker.calls = w.broker.calls
        ∧ ∀ d, r = .ok (some d) → Ready ctx d w'.db.rows := by
  have hturn : ∀ m, Waits Standing w (v.interfere m) := fun m =>
    Prog.Frame.trans (R := Waits Standing) hv (standing_interfere v m)
  refine Program.safe_unitOfWork trivial
    (fun m f _ _ => ⟨(hturn m).broker.calls, nofun⟩) fun m _ _ => ?_
  refine (createDurableRecord_ready _ selection fun type =>
    (hpaired type).standing (hturn m).rows).imp (fun r db hready => ?_)
    fun e _ => ⟨(hturn m).broker.calls, nofun⟩
  refine ⟨(hturn m).broker.calls, fun d hd => ?_⟩
  cases hd
  exact hready d rfl

/-- `enter` up to its first broker call: no call, and a durable record
ready for its unwind. -/
theorem begin_ready (inputs : EntryInputs)
    (hpaired : ∀ type, Paired ctx type w.db.rows) :
    (begin ctx inputs).Safe (fun _ => True) (fun _ => True) w fun r w' =>
      w'.broker.calls = w.broker.calls
        ∧ ∀ d, r = .ok (.ok d) → Ready ctx d w'.db.rows := by
  refine safe_begin (R := Standing) ctx (fun _ _ => trivial)
    (fun _ w' h => ⟨h.broker.calls, nofun⟩)
    (fun _ w' _ h => ⟨h.broker.calls, nofun⟩) fun selection w' h => ?_
  refine (recorded_ready hpaired h selection).mono fun r w'' hr => ?_
  obtain ⟨hcalls, hready⟩ := hr
  refine ⟨fun _ _ => ⟨hcalls, nofun⟩, fun _ _ _ => ⟨hcalls, nofun⟩,
    fun d hd => ⟨hcalls, fun d' hd' => ?_⟩⟩
  cases hd'
  exact hready d hd

end EntryLogic

-- =============================================================== the law

/-- The `place_order` calls made since. -/
def World.callsSince (w w' : World) : List PlaceCall :=
  w'.broker.calls.drop w.broker.calls.length

/-- The BUYs among them. -/
def World.buysSince (w w' : World) : List PlaceCall :=
  (w.callsSince w').filter (·.request.transactionType = .buy)

/-- The run of `enter` from `w` gets as far as its PE leg, CE being
FILLED, and PE ends otherwise: FAILED or AMBIGUOUS, or in an exception of
the broker's. -/
def PartialEntry (ctx : StrategyContext) (inputs : EntryInputs)
    (ms : List Move) (w : World) (d : DurableRecord) : Prop :=
  ∃ w₀ ms₀ w₁ ms₁ ceResult, (EntryLogic.begin ctx inputs).run ms w
      = (.returned (.ok d), w₀, ms₀)
    ∧ (EntryLogic.placeLeg ctx d.ce d.quantity).run ms₀ w₀
      = (.returned ceResult, w₁, ms₁)
    ∧ ceResult.outcome = .filled
    ∧ ((∃ peResult, ((EntryLogic.placeLeg ctx d.pe d.quantity).run ms₁ w₁).1
        = .returned peResult ∧ peResult.outcome ≠ .filled)
      ∨ ∃ e, ((EntryLogic.placeLeg ctx d.pe d.quantity).run ms₁ w₁).1
        = .raised (.broker e))

/-- Where CE is FILLED and PE is not, one BUY of CE and the halt; in any
other entry, no BUY. -/
def NoNakedCe (ctx : StrategyContext) (inputs : EntryInputs) (ms : List Move)
    (w w' : World) : Prop :=
  (∀ d, PartialEntry ctx inputs ms w d →
      (∃ c, w.buysSince w' = [c] ∧ BuysBack d c)
        ∧ w'.db.rows.Halted ctx d.positionId
        ∧ ∃ b ∈ w'.db.rows.breaks, b.positionId = some d.positionId)
    ∧ ((¬ ∃ d, PartialEntry ctx inputs ms w d) → w.buysSince w' = [])

/-- The placement of PE, the second call of the entry, raises nothing
but what `_place_leg` handles. -/
def PeHandled (w w' : World) : Prop :=
  ∀ c e, (w.callsSince w')[1]? = some c → c.raised = some e →
    e.kind.isHandled = true

theorem World.callsSince_of {w w' : World} {cs : List PlaceCall}
    (h : w'.broker.calls = w.broker.calls ++ cs) : w.callsSince w' = cs := by
  unfold World.callsSince
  rw [h, List.drop_left]

/-- An entry that never got to its PE leg makes one call at most. -/
private theorem noNakedCe_short {inputs : EntryInputs} {ms : List Move}
    {w w' : World} {cs : List PlaceCall}
    (hcalls : w'.broker.calls = w.broker.calls ++ cs) (hshort : cs.length ≤ 1)
    (hsells : ∀ c ∈ cs, c.request.transactionType = .sell)
    (hno : ∀ d, ¬ PartialEntry ctx inputs ms w d) :
    NoNakedCe ctx inputs ms w w' ↔ PeHandled w w' := by
  have hsince := World.callsSince_of hcalls
  refine ⟨fun _ c e hc _ => ?_, fun _ => ⟨fun d hd => absurd hd (hno d),
    fun _ => ?_⟩⟩
  · rw [hsince, List.getElem?_eq_none hshort] at hc
    cases hc
  · unfold World.buysSince
    rw [hsince, List.filter_eq_nil_iff]
    intro c hc
    rw [hsells c hc]
    exact of_decide_eq_false rfl

/-- A run of a program that places nothing makes no call. -/
theorem calls_of_waits {α : Type} {p : Program α}
    (hp : Prog.Along (Waits AnyRows) p) {ms rest : List Move} {w w' : World}
    {ending : Prog.Ending Exc α} (h : p.run ms w = (ending, w', rest)) :
    w'.broker.calls = w.broker.calls := by
  have hwaits := hp.after ms w
  unfold Prog.after at hwaits
  rw [h] at hwaits
  exact hwaits.broker.calls

/-- One leg of the entry, run: the desk stands, and one call at most. -/
theorem EntryLogic.placeLeg_run {w w' : World} {ms rest : List Move}
    {ending : Prog.Ending Exc LegResult}
    (h : (placeLeg ctx leg quantity).run ms w = (ending, w', rest)) :
    rest <:+ ms ∧ Standing w.db.rows w'.db.rows
      ∧ Prog.Holds (fun _ => True) (fun r w' => LegCalls w w' r) ending w' := by
  have hsuffix := Prog.run_suffix (placeLeg ctx leg quantity) ms w
  have halong : Prog.Along (OnRows Standing) (placeLeg ctx leg quantity) :=
    takes_placeLeg ctx (writesIntent_standing leg.intentId) quantity
  have hstands := halong.after ms w
  have hcalls := (@placeLeg_calls ctx leg quantity w).run
    fun m (_ : m ∈ ms) => trivial
  unfold Prog.after at hstands
  rw [h] at hsuffix hcalls hstands
  exact ⟨hsuffix, hstands, hcalls⟩

/-- Two SELLs are no BUY. -/
private theorem buysSince_sells {w w' : World} {c₁ c₂ : PlaceCall}
    (h : w'.broker.calls = w.broker.calls ++ ([c₁] ++ [c₂]))
    (h₁ : c₁.request.transactionType = .sell)
    (h₂ : c₂.request.transactionType = .sell) : w.buysSince w' = [] := by
  unfold World.buysSince
  rw [World.callsSince_of h]
  simp [h₁, h₂]

/-- The call of PE is the second one. -/
private theorem peHandled_iff {w w' : World} {c₁ c₂ : PlaceCall}
    {cs : List PlaceCall}
    (h : w'.broker.calls = w.broker.calls ++ ([c₁] ++ c₂ :: cs)) :
    PeHandled w w' ↔ ∀ e, c₂.raised = some e → e.kind.isHandled = true := by
  unfold PeHandled
  rw [World.callsSince_of h]
  constructor
  · intro hhandled e he
    exact hhandled c₂ e rfl he
  · intro hhandled c e hc he
    cases hc
    exact hhandled e he

/-- A run that has come to its PE leg, CE being FILLED by the call `c₁`. -/
private structure AtPe (ctx : StrategyContext) (inputs : EntryInputs)
    (ms ms₁ : List Move) (w w₁ : World) (d : DurableRecord)
    (ceResult : LegResult) (c₁ : PlaceCall) : Prop where
  came : ∃ w₀ ms₀, (EntryLogic.begin ctx inputs).run ms w
      = (.returned (.ok d), w₀, ms₀)
    ∧ (EntryLogic.placeLeg ctx d.ce d.quantity).run ms₀ w₀
      = (.returned ceResult, w₁, ms₁)
  filled : ceResult.outcome = .filled
  calls : w₁.broker.calls = w.broker.calls ++ [c₁]
  sells : c₁.request.transactionType = .sell

namespace AtPe

variable {inputs : EntryInputs} {ms ms₁ ms₂ rest : List Move}
  {w₁ w₂ w' : World} {ceResult peResult : LegResult} {c₁ : PlaceCall}

/-- A run has one course, so PE's result decides what the entry comes
to. -/
private theorem partialEntry_iff {pe : Prog.Ending Exc LegResult}
    (h : AtPe ctx inputs ms ms₁ w w₁ d ceResult c₁)
    (hpe : (EntryLogic.placeLeg ctx d.pe d.quantity).run ms₁ w₁
      = (pe, w₂, ms₂)) (d' : DurableRecord) :
    PartialEntry ctx inputs ms w d' ↔ d' = d
      ∧ ((∃ peResult, pe = .returned peResult ∧ peResult.outcome ≠ .filled)
        ∨ ∃ e, pe = .raised (.broker e)) := by
  obtain ⟨w₀, ms₀, hbegin, hce⟩ := h.came
  constructor
  · intro hpartial
    obtain ⟨v₀, ks₀, v₁, ks₁, result, hbegin', hce', -, hunfilled⟩ := hpartial
    cases hbegin.symm.trans hbegin'
    cases hce.symm.trans hce'
    rw [hpe] at hunfilled
    exact ⟨rfl, hunfilled⟩
  · intro hpartial
    obtain ⟨hd, hunfilled⟩ := hpartial
    subst hd
    refine ⟨w₀, ms₀, w₁, ms₁, ceResult, hbegin, hce, h.filled, ?_⟩
    rw [hpe]
    exact hunfilled

/-- An exception leaves PE's leg: if it is the broker's, PE was placed,
and the CE stays naked. -/
private theorem raised_iff {e : Exc}
    (h : AtPe ctx inputs ms ms₁ w w₁ d ceResult c₁)
    (hpe : (EntryLogic.placeLeg ctx d.pe d.quantity).run ms₁ w₁
      = (.raised e, w', rest)) (hlegs : LegCalls w₁ w' (.error e)) :
    NoNakedCe ctx inputs ms w w' ↔ PeHandled w w' := by
  have hcourse := h.partialEntry_iff hpe
  cases hlegs with
  | unplaced same internal =>
      refine noNakedCe_short (same.trans h.calls) (le_refl 1)
        (fun c hc => ?_) fun d' hpartial => ?_
      · rw [List.mem_singleton.1 hc]
        exact h.sells
      · obtain ⟨-, ⟨_, h, -⟩ | ⟨be, h⟩⟩ := (hcourse d').1 hpartial
        · cases h
        · cases h
          exact internal be rfl
  | @placed _ c₂ calls sells escapes =>
      rw [h.calls, List.append_assoc] at calls
      have hbuys := buysSince_sells calls h.sells sells
      rw [peHandled_iff calls]
      constructor
      · intro hnaked e' hraised
        by_contra hno
        rw [Bool.not_eq_true] at hno
        cases (escapes e').2 ⟨hraised, hno⟩
        obtain ⟨⟨c, hc, -⟩, -⟩ :=
          hnaked.1 d ((hcourse d).2 ⟨rfl, .inr ⟨e', rfl⟩⟩)
        rw [hbuys] at hc
        cases hc
      · intro hhandled
        refine ⟨fun d' hpartial => ?_, fun _ => hbuys⟩
        obtain ⟨-, ⟨_, h, -⟩ | ⟨be, h⟩⟩ := (hcourse d').1 hpartial
        · cases h
        · cases h
          obtain ⟨hraised, hno⟩ := (escapes be).1 rfl
          rw [hhandled be hraised] at hno
          cases hno

/-- A leg that returns has handled what its placement raised. -/
private theorem handled_of_returned {c₂ : PlaceCall} {r : LegResult}
    (escapes : ∀ e, (.ok r : Except Exc LegResult) = .error (.broker e)
      ↔ c₂.raised = some e ∧ e.kind.isHandled = false) :
    ∀ e, c₂.raised = some e → e.kind.isHandled = true := by
  intro e hraised
  by_contra hno
  rw [Bool.not_eq_true] at hno
  cases (escapes e).2 ⟨hraised, hno⟩

/-- Both legs are FILLED: OPEN is written, and nothing is bought. -/
private theorem bothFilled_iff {ending : Prog.Ending Exc EntryResult}
    (h : AtPe ctx inputs ms ms₁ w w₁ d ceResult c₁)
    (hpe : (EntryLogic.placeLeg ctx d.pe d.quantity).run ms₁ w₁
      = (.returned peResult, w₂, ms₂)) (hlegs : LegCalls w₁ w₂ (.ok peResult))
    (hfilled : peResult.outcome = .filled)
    (hrun : (EntryLogic.finalizeOpen ctx d ceResult peResult).run ms₂ w₂
      = (ending, w', rest)) :
    NoNakedCe ctx inputs ms w w' ↔ PeHandled w w' := by
  cases hlegs with
  | @placed _ c₂ calls sells escapes =>
      rw [h.calls, List.append_assoc,
        ← calls_of_waits (EntryLogic.along_finalizeOpen (R := AnyRows) ctx
          (fun _ _ _ => keeps_anyRows _) ceResult peResult) hrun] at calls
      rw [peHandled_iff calls]
      refine ⟨fun _ => handled_of_returned escapes, fun _ =>
        ⟨fun d' hpartial => ?_, fun _ => buysSince_sells calls h.sells sells⟩⟩
      obtain ⟨-, ⟨_, h, hno⟩ | ⟨be, h⟩⟩ :=
        (h.partialEntry_iff hpe d').1 hpartial
      · cases h
        exact absurd hfilled hno
      · cases h

/-- PE is not FILLED: the CE is bought back, and the desk halts. -/
private theorem unwound_iff
    (h : AtPe ctx inputs ms ms₁ w w₁ d ceResult c₁)
    (hpe : (EntryLogic.placeLeg ctx d.pe d.quantity).run ms₁ w₁
      = (.returned peResult, w₂, ms₂)) (hlegs : LegCalls w₁ w₂ (.ok peResult))
    (hunfilled : peResult.outcome ≠ .filled)
    (hunwound : Unwound ctx d w₂ w') :
    NoNakedCe ctx inputs ms w w' ↔ PeHandled w w' := by
  have hcourse := h.partialEntry_iff hpe
  have hpartial : PartialEntry ctx inputs ms w d :=
    (hcourse d).2 ⟨rfl, .inl ⟨peResult, rfl, hunfilled⟩⟩
  cases hlegs with
  | @placed _ c₂ calls sells escapes =>
      obtain ⟨c₃, hcalls₃, hbuys⟩ := hunwound.calls
      rw [calls, h.calls, List.append_assoc, List.append_assoc] at hcalls₃
      rw [peHandled_iff hcalls₃]
      refine ⟨fun _ => handled_of_returned escapes, fun _ =>
        ⟨fun d' hpartial' => ?_, fun hno => absurd ⟨d, hpartial⟩ hno⟩⟩
      obtain ⟨rfl, -⟩ := (hcourse d').1 hpartial'
      refine ⟨⟨c₃, ?_, hbuys⟩, hunwound.halted, hunwound.recorded⟩
      unfold World.buysSince
      rw [World.callsSince_of hcalls₃]
      simp [h.sells, sells, hbuys.1]

end AtPe

/-- From the PE leg on, CE being FILLED. -/
private theorem peLeg_iff {inputs : EntryInputs} {ms ms₁ rest : List Move}
    {w w₁ w' : World} {ceResult : LegResult} {c₁ : PlaceCall}
    {ending : Prog.Ending Exc EntryResult}
    (hat : AtPe ctx inputs ms ms₁ w w₁ d ceResult c₁)
    (hready : Ready ctx d w₁.db.rows) (hcommits : ∀ m ∈ ms₁, m.fault = none)
    (hpriced : w'.broker.Priced) (hended : ending ≠ .crashed)
    (hrun : (do
      let peResult ← EntryLogic.placeLeg ctx d.pe d.quantity
      if peResult.outcome = .filled then
        EntryLogic.finalizeOpen ctx d ceResult peResult
      else
        EntryLogic.partialEntry ctx d peResult : Program EntryResult).run ms₁ w₁
        = (ending, w', rest)) :
    NoNakedCe ctx inputs ms w w' ↔ PeHandled w w' := by
  rw [Prog.run_bind] at hrun
  obtain ⟨⟨pe, w₂, ms₂⟩, hpe⟩ :
    ∃ x, (EntryLogic.placeLeg ctx d.pe d.quantity).run ms₁ w₁ = x := ⟨_, rfl⟩
  obtain ⟨hsuffix, hstands, hlegs⟩ := EntryLogic.placeLeg_run hpe
  rw [hpe] at hrun
  cases pe with
  | crashed =>
      cases hrun
      exact absurd rfl hended
  | raised e =>
      cases hrun
      exact hat.raised_iff hpe hlegs
  | returned peResult =>
      dsimp only at hrun
      split_ifs at hrun with hfilled
      · exact hat.bothFilled_iff hpe hlegs hfilled hrun
      have hready₂ := hready.standing hstands
      have hsafe := (EntryLogic.partialEntry_unwinds hready₂.pending
        hready₂.paired hready₂.tag hready₂.quantity peResult).run
        fun m hm => hcommits m (hsuffix.mem hm)
      rw [hrun] at hsafe
      have hunwound : Unwound ctx d w₂ w' := by
        cases ending with
        | crashed => exact absurd rfl hended
        | returned _ => exact hsafe hpriced
        | raised _ => exact hsafe hpriced
      exact hat.unwound_iff hpe hlegs hfilled hunwound

/-- From the durable record on. -/
private theorem placed_iff {inputs : EntryInputs} {ms ms₀ rest : List Move}
    {w w₀ w' : World} {ending : Prog.Ending Exc EntryResult}
    (hbegin : (EntryLogic.begin ctx inputs).run ms w
      = (.returned (.ok d), w₀, ms₀))
    (hcalls₀ : w₀.broker.calls = w.broker.calls)
    (hready : Ready ctx d w₀.db.rows) (hcommits : ∀ m ∈ ms₀, m.fault = none)
    (hpriced : w'.broker.Priced) (hended : ending ≠ .crashed)
    (hrun : (EntryLogic.placeAndFinalize ctx d).run ms₀ w₀
      = (ending, w', rest)) :
    NoNakedCe ctx inputs ms w w' ↔ PeHandled w w' := by
  unfold EntryLogic.placeAndFinalize at hrun
  rw [Prog.run_bind] at hrun
  obtain ⟨⟨ce, w₁, ms₁⟩, hce⟩ :
    ∃ x, (EntryLogic.placeLeg ctx d.ce d.quantity).run ms₀ w₀ = x := ⟨_, rfl⟩
  obtain ⟨hsuffix, hstands, hlegs⟩ := EntryLogic.placeLeg_run hce
  rw [hce] at hrun
  have hnone : (∀ result, ce = .returned result → result.outcome ≠ .filled) →
      ∀ d', ¬ PartialEntry ctx inputs ms w d' := by
    intro hno d' hpartial
    obtain ⟨_, _, _, _, _, hbegin', hce', hfilled, -⟩ := hpartial
    cases hbegin.symm.trans hbegin'
    cases hce.symm.trans hce'
    exact hno _ rfl hfilled
  cases ce with
  | crashed =>
      cases hrun
      exact absurd rfl hended
  | raised e =>
      cases hrun
      cases hlegs with
      | unplaced same internal =>
          have hnil : w'.broker.calls = w.broker.calls ++ [] := by
            rw [List.append_nil]
            exact same.trans hcalls₀
          exact noNakedCe_short hnil (Nat.zero_le 1) (List.forall_mem_nil _)
            (hnone nofun)
      | @placed _ c calls sells escapes =>
          rw [hcalls₀] at calls
          refine noNakedCe_short calls (le_refl 1) (fun c' hc' => ?_)
            (hnone nofun)
          rw [List.mem_singleton.1 hc']
          exact sells
  | returned ceResult =>
      cases hlegs with
      | @placed _ c calls sells escapes =>
          rw [hcalls₀] at calls
          have hunfilled : ceResult.outcome ≠ .filled →
              w'.broker.calls = w₁.broker.calls →
              (NoNakedCe ctx inputs ms w w' ↔ PeHandled w w') := by
            intro hno hsame
            refine noNakedCe_short (hsame.trans calls) (le_refl 1)
              (fun c' hc' => ?_) (hnone fun result h => ?_)
            · rw [List.mem_singleton.1 hc']
              exact sells
            · cases h
              exact hno
          dsimp only at hrun
          cases houtcome : ceResult.outcome with
          | filled =>
              rw [houtcome] at hrun
              exact peLeg_iff
                ⟨⟨w₀, ms₀, hbegin, hce⟩, houtcome, calls, sells⟩
                (hready.standing hstands)
                (fun m hm => hcommits m (hsuffix.mem hm)) hpriced hended hrun
          | failed =>
              rw [houtcome] at hrun
              refine hunfilled (by rw [houtcome]; exact nofun)
                (calls_of_waits ?_ hrun)
              exact Prog.along_bind (Program.along_unitOfWork_anyRows _)
                fun _ => Prog.along_pure _
          | ambiguous =>
              rw [houtcome] at hrun
              refine hunfilled (by rw [houtcome]; exact nofun)
                (calls_of_waits ?_ hrun)
              exact Prog.along_bind along_recordBreak fun _ =>
                Prog.along_bind (Program.along_unitOfWork_anyRows _)
                  fun _ => Prog.along_pure _

/-- `enter`, whatever the broker answers, where commits succeed and
COMPLETE orders have positive prices: CE is never left naked exactly when
the placement of PE raises nothing but what `_place_leg` handles. -/
theorem noNakedCe_iff (ctx : StrategyContext) (inputs : EntryInputs)
    (ms rest : List Move) (w w' : World) (ending : Prog.Ending Exc EntryResult)
    (hpaired : ∀ type, Paired ctx type w.db.rows)
    (hcommits : ∀ m ∈ ms, m.fault = none) (hpriced : w'.broker.Priced)
    (hended : ending ≠ .crashed)
    (hrun : (EntryLogic.enter ctx inputs).run ms w = (ending, w', rest)) :
    NoNakedCe ctx inputs ms w w' ↔ PeHandled w w' := by
  unfold EntryLogic.enter at hrun
  rw [Prog.run_bind] at hrun
  obtain ⟨⟨begun, w₀, ms₀⟩, hbegin⟩ :
    ∃ x, (EntryLogic.begin ctx inputs).run ms w = x := ⟨_, rfl⟩
  have hsuffix := Prog.run_suffix (EntryLogic.begin ctx inputs) ms w
  have hready := (EntryLogic.begin_ready inputs hpaired).run
    fun m (_ : m ∈ ms) => trivial
  rw [hbegin] at hrun hsuffix hready
  have hnone : (∀ d, begun ≠ .returned (.ok d)) →
      ∀ d, ¬ PartialEntry ctx inputs ms w d := by
    intro hno d hpartial
    obtain ⟨_, _, _, _, _, hbegin', -⟩ := hpartial
    cases hbegin.symm.trans hbegin'
    exact hno d rfl
  have hquiet : ∀ {v : World}, v.broker.calls = w.broker.calls →
      v.broker.calls = w.broker.calls ++ [] := by
    intro v h
    rw [List.append_nil]
    exact h
  cases begun with
  | crashed =>
      cases hrun
      exact absurd rfl hended
  | raised e =>
      cases hrun
      exact noNakedCe_short (hquiet hready.1) (Nat.zero_le 1)
        (List.forall_mem_nil _) (hnone nofun)
  | returned begun =>
      cases begun with
      | error result =>
          cases hrun
          exact noNakedCe_short (hquiet hready.1) (Nat.zero_le 1)
            (List.forall_mem_nil _) (hnone nofun)
      | ok d =>
          refine placed_iff hbegin hready.1 (hready.2 d rfl)
            (fun m hm => hcommits m (hsuffix.mem hm)) hpriced hended hrun

end Entry

-- ============================================================ the defect

instance (b : Broker) : Decidable b.Priced :=
  decidable_of_iff (∀ bo ∈ b.log, bo.status = .complete →
    bo.averagePrice.any (0 < ·) = true)
    (forall₃_congr fun bo _ _ => by simp [Option.any_eq_true])

namespace SampleDay

/-- The day's durable record. -/
def dayRecord : DurableRecord where
  positionId := 0
  quantity := 75
  ce := { tradeId := 0, intentId := 0
          tradingsymbol := (contract .ce).tradingsymbol
          contract := contract .ce }
  pe := { tradeId := 1, intentId := 1
          tradingsymbol := (contract .pe).tradingsymbol
          contract := contract .pe }

/-- An entry whose CE leg fills, and to whose PE order the broker answers
with `e`. -/
def peRefused (e : BrokerError) : List Move :=
  [still, still]
    ++ legMoves (snapshot "A1" "E0-240704-CE" .sell .ce .complete lot (some 100))
    ++ [still, { place := .refuse e }]

/-- The moves after a rejection: it is recorded; the unwind is started,
accepted, polled once it has filled, settled; break and halt. -/
def unwindMoves : List Move :=
  [still, still, { place := .ack "U1" },
    { events := [.works (snapshot "U1" "U0-240704-CE" .buy .ce .complete lot
      (some 101))] },
    still, still, still]

/-- The access token has run out when PE is placed. -/
def unauthenticated : Prog.Ending Exc EntryResult × World × List Move :=
  (EntryLogic.enter ctx inputs).run
    (peRefused ⟨.authentication, "Incorrect api_key or access_token."⟩) morning

private theorem unauthenticated_eq : unauthenticated
    = (.raised (.broker
        ⟨.authentication, "Incorrect api_key or access_token."⟩),
      unauthenticated.2.1, []) :=
  Prod.ext (by decide +kernel) (Prod.ext rfl (by decide +kernel))

/-- CE is filled when the placement of PE raises. -/
private theorem unauthenticated_partial : PartialEntry ctx inputs
    (peRefused ⟨.authentication, "Incorrect api_key or access_token."⟩) morning
    dayRecord :=
  ⟨_, _, _, _, { outcome := .filled, reason := "filled", fillPrice := some 100 },
    Prod.ext (by decide +kernel) rfl, Prod.ext (by decide +kernel) rfl, rfl,
    .inr ⟨⟨.authentication, "Incorrect api_key or access_token."⟩,
      by decide +kernel⟩⟩

/-- PE is rejected for want of funds. -/
def rejected : Prog.Ending Exc EntryResult × World × List Move :=
  (EntryLogic.enter ctx inputs).run
    (peRefused ⟨.orderRejected, "Insufficient funds."⟩ ++ unwindMoves) morning

private theorem rejected_eq : rejected
    = (.returned { outcome := .partialEntryError,
                   message := "partial entry (PE FAILED); CE unwound",
                   positionId := some 0 },
      rejected.2.1, []) :=
  Prod.ext (by decide +kernel) (Prod.ext rfl (by decide +kernel))

private theorem morning_paired (type : OptionType) :
    Paired ctx type morning.db.rows :=
  List.forall_mem_nil _

end SampleDay

/-- CE is left naked when the access token runs out between the legs. -/
theorem enter_leaves_naked :
    ¬ ∀ (ctx : StrategyContext) (inputs : EntryInputs) (ms rest : List Move)
        (w w' : World) (ending : Prog.Ending Exc EntryResult),
        (∀ type, Paired ctx type w.db.rows) →
        (∀ m ∈ ms, m.fault = none) → w'.broker.Priced → ending ≠ .crashed →
        (EntryLogic.enter ctx inputs).run ms w = (ending, w', rest) →
        NoNakedCe ctx inputs ms w w' := by
  intro hclaim
  have hnaked := hclaim SampleDay.ctx SampleDay.inputs
    (SampleDay.peRefused ⟨.authentication, "Incorrect api_key or access_token."⟩)
    [] SampleDay.morning SampleDay.unauthenticated.2.1 (.raised _)
    SampleDay.morning_paired (by decide +kernel) (by decide +kernel) nofun
    SampleDay.unauthenticated_eq
  obtain ⟨⟨c, hc, -⟩, -⟩ := hnaked.1 _ SampleDay.unauthenticated_partial
  have hnone : SampleDay.morning.buysSince SampleDay.unauthenticated.2.1
      = [] := by decide +kernel
  exact List.cons_ne_nil _ _ (hc.symm.trans hnone)

/-- A rejection is handled. -/
theorem noNakedCe_iff_rejected :
    NoNakedCe SampleDay.ctx SampleDay.inputs
        (SampleDay.peRefused ⟨.orderRejected, "Insufficient funds."⟩
          ++ SampleDay.unwindMoves) SampleDay.morning SampleDay.rejected.2.1
      ↔ PeHandled SampleDay.morning SampleDay.rejected.2.1 :=
  noNakedCe_iff SampleDay.ctx SampleDay.inputs _ [] SampleDay.morning _
    (.returned _) SampleDay.morning_paired (by decide +kernel)
    (by decide +kernel) nofun
    SampleDay.rejected_eq

end AlgoPlatform
