/-
The law of endings in every interleaving, and what a quarantine is worth.

# The walk

Each act of each activity keeps `Vouched` and moves along `Vouches`
whatever the others did before it. What a thread must remember is small:
that the position it looked up is its own instance's, and, in a recovery,
that the trail has the row it is about to read the reason from.

# The quarantine

A FROZEN instance fails the risk core's second check, so an entry that
starts once an instance is FROZEN ends before its durable record; and
nothing but an operator's `unfreeze` makes the instance ACTIVE again.
-/
import AlgoPlatform.Proofs.Endings
import AlgoPlatform.Proofs.EntryCap
import AlgoPlatform.Proofs.Recovery

open Basis Basis.Session

namespace AlgoPlatform

/-- The law, in a world. -/
def VouchedIn (given : ExitReason → Prop) (cleared : Nat → Prop) (w : World) :
    Prop :=
  Vouched given cleared w.db.rows

variable {given : ExitReason → Prop} {cleared : Nat → Prop} {seen : World}
  {ctx : StrategyContext}

-- ============================================================== the acts

theorem turnKeeps_vouched :
    TurnKeeps (VouchedIn given cleared) (OnRows (Vouches given cleared)) := by
  intro m w hw
  have hturn : Waits (Vouches given cleared) w (w.interfere m) :=
    waits_interfere w m
  exact ⟨hturn.rows.vouched hw, hturn.rows⟩

/-- A program whose acts all vouch is right beside the others. -/
theorem beside_of_vouches {α : Type} {p : Program α}
    (h : Prog.Along (OnRows (Vouches given cleared)) p) :
    p.Beside (VouchedIn given cleared) (OnRows (Vouches given cleared)) seen
      fun _ _ => True :=
  h.beside fun _ _ hw hs => ⟨hw.vouched hs, hw⟩

/-- A session, by what it does where the thread finds the law and has seen
`seen`. -/
private theorem beside_vouching {α : Type} {body : List Nat → Session α}
    {P : α → Rows → Prop}
    (hbody : ∀ scan (db : Db), Vouches given cleared seen.db.rows db.rows →
      Vouched given cleared db.rows → Meets (body scan) db
        (fun a db' => Vouches given cleared db.rows db'.rows ∧ P a db'.rows)
        fun _ => True) :
    (Program.unitOfWork body).Beside (VouchedIn given cleared)
      (OnRows (Vouches given cleared)) seen
      fun r w => ∀ a, r = .ok a → P a w.db.rows := by
  refine Program.beside_unitOfWork turnKeeps_vouched (fun f w _ _ a ha => ?_)
    fun scan w hseen hw => (hbody scan w.db hseen hw).imp
      (fun a db h => ?_) fun e _ a ha => ?_
  · cases ha
  · refine ⟨⟨h.1.vouched hw, h.1⟩, fun a' ha' => ?_⟩
    cases ha'
    exact h.2
  · cases ha

/-- Whose a position is stays known. -/
private theorem belongs_stable {id k : Nat} (s t : World)
    (h : OnRows (Vouches given cleared) s t) (hb : s.db.rows.Belongs id k) :
    t.db.rows.Belongs id k :=
  hb.kept h.accrues

/-- `_fail_to_error`, on a position known to be the instance's. -/
private theorem failToError_beside {id k : Nat}
    (hbelongs : seen.db.rows.Belongs id k) (reason : String) :
    (Bookkeeping.failToError k id reason).Beside (VouchedIn given cleared)
      (OnRows (Vouches given cleared)) seen fun _ _ => True :=
  (beside_vouching (P := fun _ _ => True) fun _ _ hseen _ =>
    (failToError_vouches (hbelongs.kept hseen.accrues) reason).imp
      (fun _ _ h => ⟨h, trivial⟩) fun _ h => h).mono fun _ _ _ => trivial

-- ============================================================= the entry

namespace EntryLogic

/-- The insert of the day's position. -/
private theorem getOrCreate_vouches (given : ExitReason → Prop)
    (cleared : Nat → Prop) (ctx : StrategyContext)
    (selection : StraddleStrikeSelection) (db : Db) :
    Meets (PositionRepository.getOrCreate (newPosition ctx selection)) db
      (fun x db' => Vouches given cleared db.rows db'.rows
        ∧ (x.2 = true → db'.rows.Belongs x.1.1 ctx.instanceId))
      fun _ => True := by
  refine getOrCreate_meets ?_ fun _ => ?_
  · refine (getByInstanceAndDate_meets ctx db).imp (fun row db' hrow => ?_)
      fun _ _ => trivial
    obtain ⟨rfl, -, -⟩ := hrow
    exact ⟨rfl, fun x _ => ⟨Session.Frame.refl _, fun h => by cases h⟩⟩
  · unfold PositionRepository.insert
    rw [meets_bind, meets_fetch, meets_bind, meets_flush]
    refine ⟨fun _ => ?_, fun _ => trivial⟩
    rw [meets_pure]
    refine ⟨⟨?_, fun _ _ h => h, fun h => ?_⟩, fun _ =>
      ⟨_, List.getElem?_concat_length, rfl⟩⟩
    · refine ⟨fun i p hp => ⟨p, ?_, rfl⟩, List.prefix_refl _⟩
      dsimp only
      rw [List.getElem?_append_left (List.getElem?_eq_some_iff.1 hp).1]
      exact hp
    · refine h.of_positions (List.prefix_refl _) (fun _ _ h => h)
        (fun t ht => .inl ht) fun i q hq => ?_
      dsimp only at hq
      by_cases hi : i < db.rows.positions.length
      · rw [List.getElem?_append_left hi] at hq
        exact .inl hq
      · rw [List.getElem?_append_right (Nat.not_lt.1 hi)] at hq
        have hnew := List.mem_singleton.1 (List.mem_of_getElem? hq)
        subst hnew
        refine .inr ⟨fun hs => ?_, fun x hx => ?_, fun hs => ?_⟩
        · cases hs
        · cases hx
        · cases hs

private theorem keeps_vouches_createLeg (positionId quantity : Nat)
    (strike : ℚ) (contract : BrokerInstrument) :
    Keeps (Vouches given cleared)
      (createLeg ctx positionId quantity strike contract) := by
  refine keeps_bind (keeps_bind (keeps_fetch _) fun _ =>
    keeps_bind (keeps_flush fun _ => vouches_of_eq rfl rfl rfl) fun _ =>
      keeps_pure _) fun tradeId => ?_
  refine keeps_bind (keeps_lift _) fun tag => ?_
  exact keeps_bind (keeps_getOrCreateIntent addsIntents_vouches) fun _ =>
    keeps_pure _

/-- The durable record is of a position of the instance. -/
theorem createDurableRecord_beside (selection : StraddleStrikeSelection) :
    (createDurableRecord ctx selection).Beside (VouchedIn given cleared)
      (OnRows (Vouches given cleared)) seen fun r w =>
        ∀ d, r = .ok (some d) → w.db.rows.Belongs d.positionId ctx.instanceId := by
  refine (beside_vouching (P := fun a r => ∀ d, a = some d →
    r.Belongs d.positionId ctx.instanceId) fun _ db _ _ => ?_).mono
    fun r w h d hd => h _ hd d rfl
  rw [meets_bind]
  refine (getOrCreate_vouches given cleared ctx selection db).imp
    (fun x db₁ hx => ?_) fun _ h => h
  obtain ⟨⟨positionId, position⟩, created⟩ := x
  obtain ⟨hinserted, hbelongs⟩ := hx
  dsimp only
  rw [meets_ite]
  refine ⟨fun hcreated => ?_, fun _ => ⟨hinserted, fun _ hd => by cases hd⟩⟩
  have hleg : ∀ contract, Keeps (Vouches given cleared) (createLeg ctx positionId
      (ctx.config.lots * selection.call.lotSize) selection.atmStrike contract) :=
    fun _ => keeps_vouches_createLeg _ _ _ _
  rw [meets_bind]
  refine (hleg _ db₁).imp (fun ce db₂ hce => ?_) fun _ _ => trivial
  rw [meets_bind]
  refine (hleg _ db₂).imp (fun pe db₃ hpe => ?_) fun _ _ => trivial
  rw [meets_pure]
  have hlegs := Session.Frame.trans (R := Vouches given cleared) hce hpe
  refine ⟨Session.Frame.trans hinserted hlegs, fun d hd => ?_⟩
  cases hd
  exact (hbelongs hcreated).kept hlegs.accrues

/-- Both fills, and OPEN. -/
private theorem along_vouches_finalizeOpen (durable : DurableRecord)
    (ceResult peResult : LegResult) :
    Prog.Along (Waits (Vouches given cleared))
      (finalizeOpen ctx durable ceResult peResult) :=
  along_finalizeOpen ctx (fun thresholds cePrice pePrice => keeps_openPosition
    (fun r => vouches_setTrade r _ _) (fun r => vouches_setTrade r _ _)
    (fun r _ _ _ => vouches_update r _ fun _ => ⟨⟨rfl, rfl, rfl⟩, .inl rfl⟩)
    (fun _ => keeps_vouches_transition (by decide) (by decide) _ _ _)
    fun i => (writesIntent_vouches i).status _) _ _

/-- The buy-back of a filled leg. -/
private theorem along_vouches_autoUnwind (leg : LegIds) (quantity : Nat) :
    Prog.Along (OnRows (Vouches given cleared))
      (autoUnwind ctx leg quantity) := by
  refine Prog.along_bind (Program.along_tryBroker (takes_buyBack
    (R := Vouches given cleared) ctx addsIntents_vouches writesIntent_vouches
    quantity)) fun bought => ?_
  cases bought with
  | error e => exact Prog.along_pure _
  | ok bought =>
      obtain ⟨intentId, bo⟩ := bought
      refine Prog.along_bind (along_onRows (Program.along_unitOfWork
        fun _ => ?_)) fun _ => Prog.along_pure _
      refine keeps_bind (keeps_bind (keeps_fetch _) fun row => ?_) fun _ => ?_
      · cases row with
        | none => exact keeps_pure _
        | some trade => exact keeps_flush fun r => vouches_setTrade r _ _
      · exact keeps_bind (keeps_getIntent _) fun _ => keeps_ite
          (keeps_markStatus ((writesIntent_vouches _).status _))
          (keeps_markStatus ((writesIntent_vouches _).status _))

/-- Everything an entry does once its record is committed. -/
theorem placeAndFinalize_vouching {durable : DurableRecord}
    (hbelongs : seen.db.rows.Belongs durable.positionId ctx.instanceId) :
    (placeAndFinalize ctx durable).Beside (VouchedIn given cleared)
      (OnRows (Vouches given cleared)) seen fun _ _ => True := by
  have hfail : ∀ {seen : World} outcome reason,
      seen.db.rows.Belongs durable.positionId ctx.instanceId →
      (failToError ctx durable.positionId outcome reason).Beside
        (VouchedIn given cleared) (OnRows (Vouches given cleared)) seen
        fun _ _ => True :=
    fun _ reason hb => Prog.beside_bind (failToError_beside hb reason)
      (fun _ _ _ => trivial) fun _ _ _ => trivial
  -- a break, then the failure: the position stays the instance's
  have hbroken : ∀ {seen : World} intentId breakType outcome reason,
      seen.db.rows.Belongs durable.positionId ctx.instanceId →
      (do recordBreak durable.positionId intentId breakType
          failToError ctx durable.positionId outcome reason :
        Program EntryResult).Beside (VouchedIn given cleared)
        (OnRows (Vouches given cleared)) seen fun _ _ => True :=
    fun _ _ _ _ hb => Prog.beside_bind ((beside_of_vouches
      (along_onRows along_recordBreak)).carry hb belongs_stable)
      (fun _ _ h => hfail _ _ h.2) fun _ _ _ => trivial
  have hleg : ∀ {seen : World} leg,
      seen.db.rows.Belongs durable.positionId ctx.instanceId →
      (placeLeg ctx leg durable.quantity).Beside (VouchedIn given cleared)
        (OnRows (Vouches given cleared)) seen fun _ w =>
          True ∧ w.db.rows.Belongs durable.positionId ctx.instanceId :=
    fun leg hb => (beside_of_vouches (takes_placeLeg
      (R := Vouches given cleared) ctx (writesIntent_vouches _) _)).carry hb belongs_stable
  unfold placeAndFinalize
  refine Prog.beside_bind (hleg _ hbelongs) (fun ceResult w hw => ?_)
    fun _ _ _ => trivial
  cases ceResult.outcome with
  | failed => exact hfail _ _ hw.2
  | ambiguous => exact hbroken _ _ _ _ hw.2
  | filled =>
      refine Prog.beside_bind (hleg _ hw.2) (fun peResult w' hw' => ?_)
        fun _ _ _ => trivial
      refine Prog.beside_ite (fun _ => beside_of_vouches
        (along_onRows (along_vouches_finalizeOpen _ _ _))) fun _ => ?_
      exact Prog.beside_bind ((beside_of_vouches
        (along_vouches_autoUnwind _ _)).carry hw'.2 belongs_stable)
        (fun _ _ h => hbroken _ _ _ _ h.2) fun _ _ _ => trivial

/-- The risk gates, by what the gateway's approval leaves known. -/
private theorem blockedBy_beside {I : World → Prop} {R : World → World → Prop}
    {approve : Program (Bool × Option String)} {P : World → Prop}
    (inputs : EntryInputs)
    (happrove : ∀ seen, approve.Beside I R seen fun r w =>
      ∀ decision, r = .ok decision → decision.1 = true → P w) :
    (beginUnder.blockedBy approve inputs).Beside I R seen fun r w =>
      r = .ok none → P w := by
  unfold beginUnder.blockedBy
  refine Prog.beside_bind (P := fun _ _ => True) trivial (fun halted w _ => ?_)
    fun _ _ _ h => by cases h
  refine Prog.beside_ite (fun _ h => by cases h) fun _ => ?_
  refine Prog.beside_bind (happrove w) (fun decision w' hw' => ?_)
    fun _ _ _ h => by cases h
  obtain ⟨approved, reason⟩ := decision
  cases approved with
  | true => exact fun _ => hw' _ rfl rfl
  | false =>
      cases reason with
      | none => exact fun h => by cases h
      | some text => exact fun h => by cases h

/-- An entry, by what its gates leave known, what its record does and what
follows. -/
theorem enterUnder_beside {I : World → Prop} {R : World → World → Prop}
    {approve : Program (Bool × Option String)} {inputs : EntryInputs}
    {P : World → Prop} {Q : DurableRecord → World → Prop}
    (hfind : ∀ seen, (findExistingPosition ctx).Beside I R seen fun _ _ => True)
    (happrove : ∀ seen, approve.Beside I R seen fun r w =>
      ∀ decision, r = .ok decision → decision.1 = true → P w)
    (hrecord : ∀ selection w, P w →
      (createDurableRecord ctx selection).Beside I R w fun r w' =>
        ∀ d, r = .ok (some d) → Q d w')
    (hplace : ∀ d w, Q d w →
      (placeAndFinalize ctx d).Beside I R w fun _ _ => True) :
    (enterUnder ctx approve inputs).Beside I R seen fun _ _ => True := by
  refine Prog.beside_bind (P := fun r w => ∀ d, r = .ok (.ok d) → Q d w) ?_
    (fun begun w hw => ?_) fun _ _ _ => trivial
  · unfold beginUnder
    refine Prog.beside_bind (hfind seen) (fun found w _ => ?_)
      fun _ _ _ _ hd => by cases hd
    cases found with
    | some state => exact fun _ hd => by cases hd
    | none =>
        refine Prog.beside_bind (P := fun _ _ => True) trivial
          (fun skip w _ => ?_) fun _ _ _ _ hd => by cases hd
        refine Prog.beside_ite (fun _ _ hd => by cases hd) fun _ => ?_
        refine Prog.beside_bind (blockedBy_beside inputs happrove)
          (fun blocked w hw => ?_) fun _ _ _ _ hd => by cases hd
        cases blocked with
        | some reason => exact fun _ hd => by cases hd
        | none =>
            refine Prog.beside_bind (P := fun _ w => P w) (hw rfl)
              (fun selection w hw => ?_) fun _ _ _ _ hd => by cases hd
            refine Prog.beside_bind (hrecord selection w hw)
              (fun durable w hw => ?_) fun _ _ _ _ hd => by cases hd
            cases durable with
            | none => exact fun _ hd => by cases hd
            | some durable =>
                intro d hd
                cases hd
                exact hw _ rfl
  · cases begun with
    | error result => trivial
    | ok durable => exact hplace durable w (hw durable rfl)

end EntryLogic

namespace RiskCore

/-- The checks of the risk core only read. -/
theorem along_approveEntry {R : Rows → Rows → Prop} [BlindToOrders R]
    (config : RiskCoreConfig) (accountId : Nat) (inputs : RiskInputs) :
    Prog.Along (Waits R) (approveEntry config accountId ctx inputs) := by
  have hchecks : ∀ (checks : List (String × Program RiskCheckResult)),
      (∀ x ∈ checks, Prog.Along (Waits R) x.2) →
      ∀ failed, Prog.Along (Waits R) (runChecks failed checks) := by
    intro checks
    induction checks with
    | nil => exact fun _ _ => Prog.along_pure _
    | cons x checks ih =>
        intro hall failed
        obtain ⟨hcheck, hrest⟩ := List.forall_mem_cons.1 hall
        cases failed with
        | true =>
            exact Prog.along_bind (ih hrest true) fun _ => Prog.along_pure _
        | false =>
            exact Prog.along_bind hcheck fun _ =>
              Prog.along_bind (ih hrest _) fun _ => Prog.along_pure _
  have hstate : Prog.Along (Waits R) (checkStrategyState ctx inputs.freezeFlags) := by
    refine Program.along_unitOfWork fun _ => keeps_bind (keeps_fetch _)
      fun row => ?_
    cases row with
    | none => exact keeps_pure _
    | some inst =>
        exact keeps_ite (keeps_pure _) (keeps_ite (keeps_pure _) (keeps_pure _))
  have hduplicate : Prog.Along (Waits R) (checkDuplicatePosition ctx) := by
    refine Program.along_unitOfWork fun _ =>
      keeps_bind (keeps_getByInstanceAndDate _ _) fun row => ?_
    cases row with
    | none => exact keeps_pure _
    | some row => exact keeps_pure _
  have hentries : Prog.Along (Waits R)
      (checkMaxDailyEntries config accountId ctx) :=
    Program.along_unitOfWork fun _ => keeps_bind (keeps_fetch _) fun _ =>
      keeps_ite (keeps_pure _) (keeps_pure _)
  refine Prog.along_bind (Prog.along_bind (hchecks _ ?_ _)
    fun _ => Prog.along_pure _) fun _ => Prog.along_pure _
  simp only [List.forall_mem_cons, List.not_mem_nil, false_imp_iff,
    implies_true, and_true]
  exact ⟨Prog.along_done _, hstate, Prog.along_pure _, Prog.along_pure _,
    Prog.along_done _, hduplicate, hentries, Prog.along_done _,
    Prog.along_done _⟩

end RiskCore

-- ============================================================== the exit

namespace ExitLogic

/-- The exit record is of a position of the instance. -/
private theorem prepareExit_vouching {reason : ExitReason} (hreason : given reason) :
    (prepareExit ctx reason (actorByReason reason)).Beside
      (VouchedIn given cleared) (OnRows (Vouches given cleared)) seen fun r w =>
        ∀ prepared, r = .ok (.ok prepared) →
          w.db.rows.Belongs prepared.positionId ctx.instanceId := by
  refine (beside_vouching (P := fun a r => ∀ prepared, a = .ok prepared →
    r.Belongs prepared.positionId ctx.instanceId) fun scan db _ _ => ?_).mono
    fun r w h prepared hprepared => h _ hprepared prepared rfl
  have hended : ∀ result : ExitResult, Vouches given cleared db.rows db.rows
      ∧ ∀ prepared, (.error result : Except ExitResult PreparedExit)
          = .ok prepared → db.rows.Belongs prepared.positionId ctx.instanceId :=
    fun _ => ⟨Session.Frame.refl _, fun _ h => by cases h⟩
  have hlegs : ∀ (trades : List (Nat × Trade)) legs,
      Keeps (Vouches given cleared) (prepareLegs ctx trades legs) := by
    intro trades
    induction trades with
    | nil => exact fun _ => keeps_pure _
    | cons x trades ih =>
        intro legs
        refine keeps_bind ?_ fun leg => ih _
        exact keeps_bind (keeps_lift _) fun _ =>
          keeps_bind (keeps_getOrCreateIntent addsIntents_vouches)
            fun _ => keeps_pure _
  unfold prepareSession
  rw [meets_bind]
  refine (getByInstanceAndDate_meets ctx db).imp (fun row db₀ hrow => ?_)
    fun _ h => h
  obtain ⟨rfl, hfound, -⟩ := hrow
  cases row with
  | none => exact hended _
  | some row =>
      obtain ⟨positionId, position⟩ := row
      obtain ⟨hp, hday⟩ := hfound positionId position rfl
      dsimp only
      rw [meets_ite, meets_ite]
      refine ⟨fun _ => hended _, fun _ => ⟨fun _ => hended _, fun _ => ?_⟩⟩
      have hbegin : Meets (beginExit positionId position reason
          (actorByReason reason)) db₀
          (fun _ db' => Vouches given cleared db₀.rows db'.rows)
          fun _ => True := by
        unfold beginExit
        rw [meets_ite]
        exact ⟨fun _ => transition_vouches (fun _ => ⟨reason, hreason, rfl⟩)
          fun _ _ h => (by cases h), fun _ => keeps_pure () db₀⟩
      rw [meets_bind]
      refine hbegin.imp (fun _ db₁ hbegun => ?_) fun _ h => h
      unfold PositionRepository.listTradesForPosition
      rw [meets_bind, meets_fetch, meets_bind]
      refine (hlegs _ _ db₁).imp (fun legs db₂ hprepared => ?_) fun _ _ => trivial
      rw [meets_pure]
      have hboth := Session.Frame.trans (R := Vouches given cleared) hbegun
        hprepared
      refine ⟨hboth, fun prepared h => ?_⟩
      cases h
      exact Rows.Belongs.kept ⟨position, hp, hday.1⟩ hboth.accrues

/-- The close writes the reason it was given. -/
private theorem keeps_vouches_closePosition {reason : ExitReason}
    (hreason : given reason) (positionId : Nat) (actor : StateTransitionActor)
    (scan : List Nat) :
    Keeps (Vouches given cleared)
      (closePosition ctx positionId reason actor scan) := by
  refine keeps_bind (keeps_fetch _) fun row => ?_
  cases row with
  | none => exact keeps_throw _
  | some position =>
      refine keeps_bind (keeps_fetch _) fun trades =>
        keeps_bind (keeps_lift _) fun legs => ?_
      refine keeps_bind (keeps_flush fun r => vouches_update r _ fun _ =>
        ⟨⟨rfl, rfl, rfl⟩, .inr ⟨reason, rfl, .inr hreason⟩⟩) fun _ => ?_
      exact keeps_bind
        (keeps_vouches_transition (by decide) (by decide) _ _ _) fun _ =>
          keeps_pure _

private theorem exit_vouching (acquired : Bool) {reason : ExitReason}
    (hreason : given reason) :
    (exit ctx acquired reason).Beside (VouchedIn given cleared)
      (OnRows (Vouches given cleared)) seen fun _ _ => True := by
  have hlegs : ∀ legs, Prog.Along (OnRows (Vouches given cleared))
      (closeLegs ctx legs) := by
    intro legs
    induction legs with
    | nil => exact Prog.along_pure _
    | cons leg legs ih =>
        have hclose : ClosesLeg (Vouches given cleared) leg :=
          closesLeg_vouches leg
        exact Prog.along_bind
          (takes_closeLeg (R := Vouches given cleared) ctx
            (writesIntent_vouches _) hclose.under) fun _ =>
            Prog.along_bind ih fun _ => Prog.along_pure _
  refine Prog.beside_ite (fun _ => ?_) fun _ => trivial
  refine Prog.beside_bind (prepareExit_vouching hreason)
    (fun prepared w hw => ?_) fun _ _ _ => trivial
  cases prepared with
  | error result => trivial
  | ok prepared =>
      refine Prog.beside_bind ((beside_of_vouches (hlegs _)).carry
        (hw prepared rfl) belongs_stable) (fun results w' hw' => ?_)
        fun _ _ _ => trivial
      unfold conclude
      refine Prog.beside_ite (fun _ => beside_of_vouches (along_onRows ?_))
        fun _ => ?_
      · refine Prog.along_tryCatch (Prog.along_bind
          (Program.along_unitOfWork fun scan =>
            keeps_vouches_closePosition hreason _ _ scan)
          fun _ => Prog.along_pure _) fun _ => ?_
        exact Prog.along_bind along_recordBreak fun _ => Prog.along_pure _
      · refine Prog.beside_bind ((beside_of_vouches
          (along_onRows along_recordBreak)).carry hw'.2 belongs_stable)
          (fun _ w'' hw'' => ?_) fun _ _ _ => trivial
        exact Prog.beside_bind (failToError_beside hw''.2 _)
          (fun _ _ _ => trivial) fun _ _ _ => trivial

end ExitLogic

-- ========================================================== the recovery

namespace Strategy1

/-- A reason is read back from the row it was written to. -/
private theorem triggerReason_eq {t : PositionStateTransition} {x : ExitReason}
    (hto : t.toState = .exitPending)
    (hreason : t.reason = some ("exit triggered: " ++ x.value)) :
    triggerReason t = some x := by
  unfold triggerReason
  rw [if_pos hto, hreason]
  cases x <;> decide

/-- What `_infer_pending_exit_reason` looks for in the trail of a
position. -/
def trailReason (r : Rows) (id : Nat) : Option ExitReason :=
  (r.transitions.filter (·.positionId = id)).reverse.findSome? triggerReason

/-- A trail into EXIT_PENDING names the reason of an exit. -/
theorem trailReason_given {r : Rows} (h : Vouched given cleared r) {id : Nat}
    (htrail : ∃ t ∈ r.transitions,
      t.positionId = id ∧ t.toState = .exitPending) :
    ∃ x, given x ∧ trailReason r id = some x := by
  obtain ⟨t, ht, hof, hto⟩ := htrail
  unfold trailReason
  cases hfound : ((r.transitions.filter
      (·.positionId = id)).reverse.findSome? triggerReason) with
  | none =>
      -- the row is there, and it names a reason
      obtain ⟨x, -, hx⟩ := h.named t ht hto
      have hnone := List.findSome?_eq_none_iff.1 hfound t
        (List.mem_reverse.2 (List.mem_filter.2 ⟨ht, by simpa using hof⟩))
      rw [triggerReason_eq hto hx] at hnone
      cases hnone
  | some x =>
      refine ⟨x, ?_, rfl⟩
      obtain ⟨u, hu, hux⟩ := List.exists_of_findSome?_eq_some hfound
      have hu' := (List.mem_filter.1 (List.mem_reverse.1 hu)).1
      by_cases huto : u.toState = .exitPending
      · obtain ⟨y, hy, hnamed⟩ := h.named u hu' huto
        rw [triggerReason_eq huto hnamed] at hux
        cases hux
        exact hy
      · unfold triggerReason at hux
        rw [if_neg huto] at hux
        cases hux

/-- The reason a recovery goes on under was given. -/
private theorem inferPendingExitReason_vouching {id : Nat}
    (htrail : ∃ t ∈ seen.db.rows.transitions,
      t.positionId = id ∧ t.toState = .exitPending) :
    (inferPendingExitReason id).Beside (VouchedIn given cleared)
      (OnRows (Vouches given cleared)) seen fun r _ =>
        ∀ x, r = .ok x → given x := by
  refine Prog.beside_bind (beside_vouching (P := fun ts _ =>
    given ((ts.reverse.findSome? triggerReason).getD .manual))
    fun _ db hseen hdb => ?_) (fun ts w hts x hx => ?_) fun _ _ _ _ hx => ?_
  · unfold PositionRepository.listStateTransitions
    rw [meets_fetch]
    refine ⟨Session.Frame.refl _, ?_⟩
    obtain ⟨t, ht, hof, hto⟩ := htrail
    obtain ⟨x, hx, hfound⟩ := trailReason_given hdb
      ⟨t, hseen.accrues.transitions.subset ht, hof, hto⟩
    unfold trailReason at hfound
    rw [hfound]
    exact hx
  · cases hx
    exact hts ts rfl
  · cases hx

private theorem recover_vouching (acquired : Bool) :
    (recover ctx acquired).Beside (VouchedIn given cleared)
      (OnRows (Vouches given cleared)) seen fun _ _ => True := by
  refine Prog.beside_bind (beside_vouching (P := fun row r =>
    ∀ id p, row = some (id, p) → r.Belongs id ctx.instanceId
      ∧ (p.state = .exitPending → ∃ t ∈ r.transitions,
        t.positionId = id ∧ t.toState = .exitPending))
    fun _ db _ hdb => ?_) (fun found w hw => ?_) fun _ _ _ => trivial
  · refine (getByInstanceAndDate_meets ctx db).imp (fun row db' hrow => ?_)
      fun _ h => h
    obtain ⟨rfl, hfound, -⟩ := hrow
    refine ⟨Session.Frame.refl _, fun id p hidp => ?_⟩
    obtain ⟨hp, hday⟩ := hfound id p hidp
    exact ⟨⟨p, hp, hday.1⟩, (hdb.positions id p hp).trailed⟩
  cases found with
  | none => trivial
  | some row =>
      obtain ⟨positionId, position⟩ := row
      obtain ⟨hbelongs, htrail⟩ := hw _ rfl positionId position rfl
      dsimp only
      cases hstate : position.state with
      | exitPending =>
          refine Prog.beside_bind
            (inferPendingExitReason_vouching (htrail hstate))
            (fun reason w' hreason => ?_) fun _ _ _ => trivial
          exact Prog.beside_bind
            (ExitLogic.exit_vouching acquired (hreason reason rfl))
            (fun _ _ _ => trivial) fun _ _ _ => trivial
      | entryPending =>
          refine Prog.beside_bind (P := fun _ _ => True) ?_
            (fun _ _ _ => trivial) fun _ _ _ => trivial
          exact (beside_vouching (P := fun _ _ => True) fun _ _ hseen _ =>
            (markPositionError_vouches (hbelongs.kept hseen.accrues) _).imp
              (fun _ _ h => ⟨h, trivial⟩) fun _ h => h).mono
            fun _ _ _ => trivial
      | «open» => exact beside_of_vouches (along_onRows (along_attach ctx))
      | _ => trivial

end Strategy1

-- ======================================================== the activities

/-- The exit, if it is one, has a given reason, and the instance, if one
is unfrozen, is cleared. -/
def Activity.Within (given : ExitReason → Prop) (cleared : Nat → Prop) :
    Activity → Prop
  | .exit _ _ reason => given reason
  | .admin (.unfreeze instanceId _ _) => cleared instanceId
  | _ => True

namespace InstanceAdmin

private theorem unfreezeSession_vouches {instanceId : Nat}
    (hcleared : cleared instanceId) (reason actor : String) :
    Keeps (Vouches given cleared) (unfreezeSession instanceId reason actor) := by
  refine keeps_bind (keeps_fetch _) fun row => ?_
  cases row with
  | none => exact keeps_pure _
  | some inst =>
      refine keeps_ite (keeps_pure _) (keeps_bind (keeps_flush fun r => ?_)
        fun _ => keeps_pure _)
      have hfrozen : ∀ k, ¬ cleared k → r.Frozen k →
          (r.setInstance instanceId fun s =>
            { s with status := .active }).Frozen k := by
        intro k hk h
        exact h.setOther (fun heq => hk (heq ▸ hcleared)) _
      exact ⟨accrues_of_origins rfl (List.prefix_refl _), hfrozen, fun h =>
        h.of_positions (List.prefix_refl _) hfrozen (fun t ht => .inl ht)
          fun _ _ hq => .inl hq⟩

theorem along_list {R : Rows → Rows → Prop} [BlindToOrders R] :
    Prog.Along (Waits R) list := by
  have hread : ∀ status scan,
      Keeps R (StrategyInstanceRepository.listByStatus status scan) :=
    fun _ _ => keeps_fetch _
  refine Prog.along_bind (Program.along_unitOfWork (hread .active))
    fun active => ?_
  refine Prog.along_bind (Program.along_unitOfWork (hread .frozen))
    fun frozen => ?_
  exact Prog.along_ite (Prog.along_pure _) (Prog.along_pure _)

/-- The operator thaws what he clears and nothing else. -/
private theorem along_vouches_main {command : Command}
    (hcommand : (Activity.admin command).Within given cleared) :
    Prog.Along (Waits (Vouches given cleared)) (main command) := by
  refine Prog.along_tryCatch (Prog.along_bind ?_ fun _ => Prog.along_pure _)
    fun _ => Prog.along_pure _
  cases command with
  | list => exact along_list
  | unfreeze instanceId reason actor =>
      exact Program.along_unitOfWork fun _ =>
        unfreezeSession_vouches hcommand reason actor

end InstanceAdmin

/-- Every activity is right beside the others. -/
theorem activity_vouching {reconciler : Option PositionReconciler}
    (hseam : ∀ s ∈ reconciler, s.Documented ∧ s.SparesEndings)
    {activity : Activity} (hwithin : activity.Within given cleared)
    (seen : World) :
    (activity.program reconciler).Beside (VouchedIn given cleared)
      (OnRows (Vouches given cleared)) seen fun _ _ => True := by
  have hdiscard : ∀ {α : Type} {p : Program α},
      p.Beside (VouchedIn given cleared) (OnRows (Vouches given cleared)) seen
        (fun _ _ => True) →
      (discard p).Beside (VouchedIn given cleared)
        (OnRows (Vouches given cleared)) seen fun _ _ => True :=
    fun hp => Prog.beside_bind hp (fun _ _ _ => trivial) fun _ _ _ => trivial
  cases activity with
  | enter config accountId call =>
      refine hdiscard (EntryLogic.enterUnder_beside (P := fun _ => True)
        (Q := fun d w => w.db.rows.Belongs d.positionId call.ctx.instanceId)
        (fun _ => ?_) (fun _ => ?_)
        (fun selection _ _ => EntryLogic.createDurableRecord_beside selection)
        fun _ _ hb => EntryLogic.placeAndFinalize_vouching hb)
      · exact beside_of_vouches (along_onRows (Program.along_unitOfWork
          fun _ => keeps_bind (keeps_getByInstanceAndDate _ _) fun _ =>
            keeps_pure _))
      · exact (beside_of_vouches (along_onRows
          (RiskCore.along_approveEntry config accountId _))).mono
          fun _ _ _ _ _ _ => trivial
  | exit ctx acquired reason =>
      exact hdiscard (ExitLogic.exit_vouching acquired hwithin)
  | recover ctx acquired =>
      exact hdiscard (Strategy1.recover_vouching acquired)
  | reconcile =>
      exact hdiscard (beside_of_vouches (along_onRows
        (ReconciliationEngine.along_reconcile
          ReconciliationEngine.keeps_vouches_intentSession
          ReconciliationEngine.allowsFills_vouches.breaks
          (ReconciliationEngine.keeps_vouches_positionSession hseam))))
  | freeze instanceId =>
      exact beside_of_vouches (along_onRows (Prog.along_tryCatch
        (Program.along_unitOfWork fun _ db =>
          (freezeInstance_vouches given cleared instanceId db).imp
            (fun _ _ h => h.1) fun _ h => h) fun _ => Prog.along_pure _))
  | admin command =>
      exact hdiscard (beside_of_vouches (along_onRows
        (InstanceAdmin.along_vouches_main hwithin)))

/-- The law holds throughout. -/
theorem vouched_run {reconciler : Option PositionReconciler}
    (hseam : ∀ s ∈ reconciler, s.Documented ∧ s.SparesEndings) {w : World}
    (hw : VouchedIn given cleared w) {es : List (Pool.Event Activity Move)}
    (hes : ∀ activity, .start activity ∈ es → activity.Within given cleared) :
    VouchedIn given cleared
      (Pool.run (Activity.program reconciler) (Pool.idle w) es).state :=
  (Pool.run_beside (p := Pool.idle w) (R := OnRows (Vouches given cleared))
    (fun activity hstart s _ => activity_vouching hseam (hes activity hstart) s)
    (fun _ ht => nomatch ht) hw).1

/-- In every interleaving, each activity cut off anywhere, an instance
with a position in ERROR is FROZEN, unless an operator has cleared it. -/
theorem errors_quarantined {reconciler : Option PositionReconciler}
    (hseam : ∀ s ∈ reconciler, s.Documented ∧ s.SparesEndings) {w : World}
    (hw : VouchedIn given cleared w) (es : List (Pool.Event Activity Move))
    (hes : ∀ activity, .start activity ∈ es → activity.Within given cleared)
    {p : Position}
    (hp : p ∈ (Pool.run (Activity.program reconciler) (Pool.idle w)
      es).state.db.rows.positions)
    (herror : p.state = .error) (hcleared : ¬ cleared p.strategyInstanceId) :
    (Pool.run (Activity.program reconciler) (Pool.idle w)
      es).state.db.rows.Frozen p.strategyInstanceId := by
  obtain ⟨id, hid⟩ := List.getElem?_of_mem hp
  exact (((vouched_run hseam hw hes).positions id p hid).quarantined
    herror).resolve_left hcleared

/-- In every interleaving, an exit reason on record is one some exit was
triggered for, or ERROR. A position that is left EXIT_PENDING has such a
reason in its own trail, where a recovery reads it; so MANUAL, the
recovery's default, is on record only if an exit was triggered for it. -/
theorem exit_reasons_given {reconciler : Option PositionReconciler}
    (hseam : ∀ s ∈ reconciler, s.Documented ∧ s.SparesEndings) {w : World}
    (hw : VouchedIn given cleared w) (es : List (Pool.Event Activity Move))
    (hes : ∀ activity, .start activity ∈ es → activity.Within given cleared) :
    (∀ t ∈ (Pool.run (Activity.program reconciler) (Pool.idle w)
        es).state.db.rows.transitions, t.toState = .exitPending →
      ∃ x, given x ∧ t.reason = some ("exit triggered: " ++ x.value))
    ∧ (∀ p ∈ (Pool.run (Activity.program reconciler) (Pool.idle w)
        es).state.db.rows.positions, ∀ x, p.exitReason = some x →
      x = .error ∨ given x)
    ∧ ∀ id p, (Pool.run (Activity.program reconciler) (Pool.idle w)
        es).state.db.rows.positions[id]? = some p → p.state = .exitPending →
      ∃ x, given x ∧ Strategy1.trailReason (Pool.run
        (Activity.program reconciler) (Pool.idle w) es).state.db.rows id
          = some x := by
  have hrun := vouched_run hseam hw hes
  refine ⟨hrun.named, fun p hp => ?_, fun id p hp hpending => ?_⟩
  · obtain ⟨id, hid⟩ := List.getElem?_of_mem hp
    exact (hrun.positions id p hid).ended
  · exact Strategy1.trailReason_given hrun
      ((hrun.positions id p hp).trailed hpending)

namespace SampleDay

/-- The sample seam moves the position by `transition_state` alone. -/
theorem seam_sparesEndings : seam.SparesEndings := by
  have hmove : ∀ id toState, Keeps SameEndings
      (PositionRepository.transitionState id toState .recovery none) := by
    intro id toState db
    unfold PositionRepository.transitionState PositionRepository.getById
    rw [meets_bind, meets_fetch, meets_bind, meets_orRaise]
    refine ⟨fun _ _ => ?_, fun _ => trivial⟩
    rw [meets_flush]
    exact ⟨fun _ => ⟨rfl, map_modify_of_eq fun _ _ => rfl⟩, fun _ => trivial⟩
  exact fun id => ⟨hmove id .open, hmove id .closed⟩

theorem seam_documents : ∀ s ∈ some seam, s.Documented ∧ s.SparesEndings := by
  intro s hs
  cases hs
  exact ⟨seam_documented, seam_sparesEndings⟩

/-- An entry behind the risk core whose first leg the broker rejects. -/
def declined : List (Pool.Event Activity Move) :=
  .start (.enter oneEntry 1 firstCall) :: (List.replicate 6 still
    ++ [{ place := .refuse ⟨.orderRejected, "margin"⟩ }, still, still]).map
      (.acts 0)

theorem declined_within (given : ExitReason → Prop) (cleared : Nat → Prop) :
    ∀ activity, .start activity ∈ declined →
      activity.Within given cleared := by
  intro activity hstart
  rcases List.mem_cons.1 hstart with hfirst | hrest
  · cases hfirst
    trivial
  · obtain ⟨m, -, hm⟩ := List.mem_map.1 hrest
    cases hm

/-- The position is in ERROR, and its instance FROZEN. -/
theorem declined_quarantined : ∃ p ∈ (Pool.run (Activity.program (some seam))
      (Pool.idle morning) declined).state.db.rows.positions,
    p.state = .error
      ∧ (Pool.run (Activity.program (some seam)) (Pool.idle morning)
        declined).state.db.rows.Frozen p.strategyInstanceId := by
  have herrors : (Pool.run (Activity.program (some seam)) (Pool.idle morning)
      declined).state.db.rows.positions.any (·.state = .error) = true := by
    decide +kernel
  obtain ⟨p, hp, herror⟩ := List.any_eq_true.1 herrors
  have hmorning : VouchedIn (fun _ => False) (fun _ => False) morning :=
    vouched_of_empty rfl
  exact ⟨p, hp, of_decide_eq_true herror, errors_quarantined seam_documents
    hmorning declined (declined_within _ _) hp (of_decide_eq_true herror) id⟩

/-- An entry that fills, a target exit that dies once its record is
committed, and the recovery that completes it. -/
def interrupted : List (Pool.Event Activity Move) :=
  .start (.enter oneEntry 1 firstCall)
    :: (List.replicate 3 still ++ entry.moves).map (.acts 0)
    ++ .start (.exit SampleDay.ctx true .target) :: .acts 1 still
    :: .start (.recover SampleDay.ctx true)
    :: (List.replicate 2 still ++ exit.moves).map (.acts 2)

private theorem interrupted_within : ∀ activity,
    .start activity ∈ interrupted →
      activity.Within (· = .target) fun _ => False := by
  intro activity hstart
  have hacts : ∀ (i : Nat) (ms : List Move),
      (.start activity : Pool.Event Activity Move) ∉ ms.map (.acts i) := by
    intro i ms hmem
    obtain ⟨m, -, hm⟩ := List.mem_map.1 hmem
    cases hm
  unfold interrupted at hstart
  simp only [List.mem_append, List.mem_cons, hacts, or_false, false_or,
    reduceCtorEq, Pool.Event.start.injEq] at hstart
  rcases hstart with rfl | rfl | rfl
  · trivial
  · rfl
  · trivial

/-- TARGET is what the position says it was closed for. -/
theorem interrupted_reasons :
    ((Pool.run (Activity.program (some seam)) (Pool.idle morning)
        interrupted).state.db.rows.positions.map (·.exitReason)
      = [some .target])
    ∧ ∀ p ∈ (Pool.run (Activity.program (some seam)) (Pool.idle morning)
        interrupted).state.db.rows.positions, ∀ x, p.exitReason = some x →
      x = .error ∨ x = .target :=
  ⟨by decide +kernel, (exit_reasons_given seam_documents
    (vouched_of_empty rfl) interrupted interrupted_within).2.1⟩

end SampleDay

end AlgoPlatform
