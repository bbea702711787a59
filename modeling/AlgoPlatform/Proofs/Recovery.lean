/-
A recovery, seen from another instance's position.

`SparesStraddle R id own` says of a relation that it keeps position `id`
and its trades and allows whatever is written of the others. An exit
writes the position of its own day and the legs of the record it made
for it (`prepareSession_records`), and a recovery exits, watches or
fails that same position. So both keep every such relation as long as
the position is not the one of their day (`exit_spares`,
`recover_spares`): runs of different instances do not meet.
-/
import AlgoPlatform.Proofs.Jobs
import AlgoPlatform.Proofs.LedgerRuns
import AlgoPlatform.Proofs.Settlement

open Basis Basis.Session

namespace AlgoPlatform

-- ============================================================== sparing

variable {id : Nat} {own : Nat → Prop} {r r' : Rows}

/-- The relation spares position `id` and the trades of `own`: it keeps
them, and allows what the cycle of any other position writes. -/
structure SparesStraddle (R : Rows → Rows → Prop) (id : Nat)
    (own : Nat → Prop) :
    Prop where
  straddle : ∀ k, k ≠ id → AllowsStraddle R k fun j => ¬ own j
  position : ∀ {r r'}, R r r' → r'.positions[id]? = r.positions[id]?
  legs : ∀ {r r'}, R r r' → ∀ j, own j → r'.legs[j]? = r.legs[j]?

-- ======================================================= the day's position

/-- The lookup of the day's position. -/
theorem getByInstanceAndDate_meets (ctx : StrategyContext) (db : Db) :
    Meets (PositionRepository.getByInstanceAndDate ctx.instanceId ctx.today) db
      (fun row db' => db' = db
        ∧ (∀ k p, row = some (k, p) →
          db.rows.positions[k]? = some p ∧ OfDay ctx p)
        ∧ ∀ k p, db.rows.positions[k]? = some p → OfDay ctx p →
          row = some (k, p))
      fun _ => True := by
  have hfound : ∀ k p, (k, p) ∈ select (fun p : Position =>
      p.strategyInstanceId = ctx.instanceId ∧ p.tradeDate = ctx.today)
        db.rows.positions
      ↔ db.rows.positions[k]? = some p ∧ OfDay ctx p := by
    intro k p
    rw [mem_select]
    exact and_congr_right fun _ => decide_eq_true_iff
  unfold PositionRepository.getByInstanceAndDate
  rw [meets_bind, meets_fetch, meets_scalarOneOrNone]
  refine ⟨fun hnone => ⟨rfl, fun _ _ h => (nomatch h),
      fun k p hp hday => ?_⟩,
    fun row hone => ⟨rfl, fun k p hrow => ?_, fun k p hp hday => ?_⟩,
    fun _ => trivial⟩
  · have hmem := (hfound k p).2 ⟨hp, hday⟩
    rw [hnone] at hmem
    cases hmem
  · cases hrow
    refine (hfound k p).1 ?_
    rw [hone]
    exact List.mem_singleton_self _
  · have hmem := (hfound k p).2 ⟨hp, hday⟩
    rw [hone] at hmem
    rw [List.mem_singleton.1 hmem]

-- ======================================================= the exit record

namespace ExitLogic

variable (ctx : StrategyContext)

theorem mem_putLeg {legs : List ExitLegIds} {leg l : ExitLegIds}
    (h : l ∈ putLeg legs leg) : l = leg ∨ l ∈ legs := by
  unfold putLeg at h
  split_ifs at h
  · obtain ⟨l', hl', rfl⟩ := List.mem_map.1 h
    split_ifs
    · exact .inl rfl
    · exact .inr hl'
  · exact (List.mem_append.1 h).elim .inr fun h =>
      .inl (List.mem_singleton.1 h)

/-- The legs of the record are the trades it is made from. -/
private theorem prepareLegs_records (trades : List (Nat × Trade)) :
    ∀ (legs : List ExitLegIds) (db : Db),
      Meets (prepareLegs ctx trades legs) db
        (fun legs' db' => LedgerKept db.rows db'.rows
          ∧ ∀ leg ∈ legs', leg ∈ legs ∨ ∃ x ∈ trades, leg.tradeId = x.1)
        fun _ => True := by
  induction trades with
  | nil => exact fun legs db => ⟨⟨rfl, rfl, rfl⟩, fun leg hleg => .inl hleg⟩
  | cons x trades ih =>
      obtain ⟨tradeId, t⟩ := x
      intro legs db
      unfold prepareLegs
      rw [meets_bind]
      refine (prepareLeg_meets db tradeId t).imp (fun leg db₁ hleg => ?_)
        fun _ h => h
      obtain ⟨hof, -, hkept₁⟩ := hleg
      refine (ih (putLeg legs leg) db₁).imp (fun legs' db₂ h => ?_) fun _ h => h
      obtain ⟨hkept₂, hlegs⟩ := h
      refine ⟨Session.Frame.trans hkept₁ hkept₂, fun l hl => ?_⟩
      rcases hlegs l hl with hl | ⟨y, hy, heq⟩
      · rcases mem_putLeg hl with rfl | hl
        · exact .inr ⟨_, List.mem_cons_self .., hof⟩
        · exact .inl hl
      · exact .inr ⟨y, List.mem_cons_of_mem _ hy, heq⟩

/-- An exit record: the position is one of the day, and every leg a trade
of it. -/
structure Recorded (prepared : PreparedExit) (r : Rows) : Prop where
  position : ∃ p, r.positions[prepared.positionId]? = some p ∧ OfDay ctx p
  legs : ∀ leg ∈ prepared.legs, ∃ t, r.trades[leg.tradeId]? = some t
    ∧ t.positionId = prepared.positionId

/-- `_prepare_exit`: the record is of the day's position. -/
theorem prepareSession_records (db : Db) (reason : ExitReason)
    (actor : StateTransitionActor) (scan : List Nat) :
    Meets (prepareSession ctx reason actor scan) db
      (fun r db' => ∀ prepared, r = .ok prepared → Recorded ctx prepared db'.rows)
      fun _ => True := by
  unfold prepareSession
  rw [meets_bind]
  refine (getByInstanceAndDate_meets ctx db).imp (fun row db₁ h => ?_)
    fun _ h => h
  obtain ⟨rfl, hrow, -⟩ := h
  cases row with
  | none => exact fun _ h => (nomatch h)
  | some row =>
      obtain ⟨positionId, p⟩ := row
      obtain ⟨hp, hday⟩ := hrow positionId p rfl
      dsimp only
      rw [meets_ite]
      refine ⟨fun _ _ h => (nomatch h), fun _ => ?_⟩
      rw [meets_ite]
      refine ⟨fun _ _ h => (nomatch h), fun _ => ?_⟩
      unfold beginExit
      rw [meets_bind]
      have hbegun : Meets (if p.state = .open then
            PositionStateMachine.transition positionId .exitPending actor
              ("exit triggered: " ++ reason.value)
          else pure ()) db₁
          (fun _ db' => ∃ q, db'.rows.positions[positionId]? = some q
            ∧ OfDay ctx q) fun _ => True := by
        rw [meets_ite, meets_pure]
        refine ⟨fun _ => ?_, fun _ => ⟨p, hp, hday⟩⟩
        refine (transition_meets db₁ _ _ _ _).imp (fun _ db₂ h => ?_)
          fun _ h => h
        obtain ⟨_, -, -, hpositions, -⟩ := h
        refine ⟨{ p with state := .exitPending }, ?_, hday⟩
        rw [hpositions, List.getElem?_modify_eq, hp]
        rfl
      refine hbegun.imp (fun _ db₂ hposition => ?_) fun _ h => h
      unfold PositionRepository.listTradesForPosition
      rw [meets_bind, meets_fetch, meets_bind]
      refine (prepareLegs_records ctx _ [] db₂).imp (fun legs db₃ h => ?_)
        fun _ h => h
      obtain ⟨hkept, hlegs⟩ := h
      rw [meets_pure]
      intro prepared hprepared
      cases hprepared
      refine ⟨by rw [hkept.1]; exact hposition, fun leg hleg => ?_⟩
      rcases hlegs leg hleg with h | ⟨x, hx, heq⟩
      · cases h
      · obtain ⟨ht, hof⟩ := ReconciliationEngine.mem_listTrades.1 hx
        exact ⟨x.2, by rw [hkept.2, heq]; exact ht, hof⟩

end ExitLogic

-- =================================================== another's recovery

/-- The trade is a leg of the position. -/
def Rows.LegOf (r : Rows) (id j : Nat) : Prop :=
  ∃ leg, r.legs[j]? = some leg ∧ leg.positionId = id

/-- What a program keeps from here on, it keeps from where the state
comes from. -/
theorem along_from {R : World → World → Prop} [Prog.Frame R] {α : Type}
    {p : Program α} (h : Prog.Along R p) {C : Move → Prop} {v w : World}
    (hv : R w v) : p.Safe C (R w) v fun _ v' => R w v' :=
  (h.safe v).imp (fun _ h => Prog.Frame.trans hv h)
    fun _ _ h => Prog.Frame.trans hv h

/-- The position is not the one of the context's day. -/
def ElsewhereThan (ctx : StrategyContext) (id : Nat) (w : World) : Prop :=
  ∀ p, w.db.rows.positions[id]? = some p → ¬ OfDay ctx p

variable {ctx : StrategyContext} {v w : World} {C : Move → Prop}
variable {R : Rows → Rows → Prop} (hspares : SparesStraddle R id own)

include hspares in
theorem SparesStraddle.elsewhere (hother : ElsewhereThan ctx id w)
    (hv : R w.db.rows v.db.rows) : ElsewhereThan ctx id v := by
  intro p hp
  rw [hspares.position hv] at hp
  exact hother p hp

variable [BlindToOrders R]

theorem grows_interfere (w : World) (m : Move) :
    Grows R w (w.interfere m) :=
  Outlasts.waits (waits_interfere (R := R) w m)

namespace ExitLogic

include hspares in
private theorem prepareSession_spares {db : Db}
    (hother : ∀ p, db.rows.positions[id]? = some p → ¬ OfDay ctx p)
    (reason : ExitReason) (actor : StateTransitionActor) (scan : List Nat) :
    Meets (prepareSession ctx reason actor scan) db
      (fun _ db' => R db.rows db'.rows) fun _ => True := by
  unfold prepareSession
  rw [meets_bind]
  refine (getByInstanceAndDate_meets ctx db).imp (fun row db₁ h => ?_)
    fun _ h => h
  obtain ⟨rfl, hrow, -⟩ := h
  cases row with
  | none => exact Frame.refl _
  | some row =>
      obtain ⟨positionId, p⟩ := row
      obtain ⟨hp, hday⟩ := hrow positionId p rfl
      have hne : positionId ≠ id := by
        intro hid
        subst hid
        exact hother p hp hday
      exact keeps_ite (keeps_pure _) (keeps_ite (keeps_pure _)
        ((hspares.straddle _ hne).bears (A := Prog.Anyhow)
          (J := Prog.Moves (Waits R)) |>.prepare ctx _ _ _ _)) db₁

include hspares in
/-- An exit leaves the positions of other instances and days alone. -/
theorem exit_spares (hother : ElsewhereThan ctx id v)
    (hown : ∀ j, own j → v.db.rows.LegOf id j) (acquired : Bool)
    (reason : ExitReason) :
    (exit ctx acquired reason).Safe C (Grows R v) v
      fun _ v' => Grows R v v' := by
  unfold exit
  have hrefl : Grows R v v := Prog.Frame.refl v
  cases acquired with
  | false => exact hrefl
  | true =>
      rw [if_pos rfl, Prog.safe_bind]
      refine Program.safe_unitOfWork hrefl
        (fun m _ _ _ => grows_interfere v m) fun m _ _ => ?_
      have hturn : Grows R v (v.interfere m) := grows_interfere v m
      have hother' : ElsewhereThan ctx id (v.interfere m) :=
        hspares.elsewhere hother hturn.rows
      refine ((prepareSession_records ctx (v.interfere m).db reason _ m.scan).and
        (prepareSession_spares hspares hother' reason _ m.scan)).imp
        (fun res db h => ?_) fun _ _ => hturn
      obtain ⟨hrecord, hkept⟩ := h
      have hmade : Grows R v { v.interfere m with db } :=
        Prog.Frame.trans (R := Grows R) hturn ⟨hkept, List.suffix_refl _⟩
      rw [Prog.andThen_ok]
      cases res with
      | error result => exact hmade
      | ok prepared =>
          obtain ⟨⟨p, hp, hday⟩, hlegs⟩ := hrecord prepared rfl
          have hne : prepared.positionId ≠ id := by
            intro hid
            rw [hid] at hp
            exact hspares.elsewhere hother hmade.rows p hp hday
          -- the legs of the record are not the position's
          have hnone : ∀ leg ∈ prepared.legs, ¬ own leg.tradeId := by
            intro leg hleg hj
            obtain ⟨t, ht, hof⟩ := hlegs leg hleg
            obtain ⟨l, hl, hlof⟩ := hown _ hj
            rw [← hspares.legs hmade.rows _ hj] at hl
            unfold Rows.legs at hl
            rw [List.getElem?_map, ht] at hl
            cases hl
            exact hne (hof.symm.trans hlof)
          exact along_from ((hspares.straddle _ hne).bears.closeAndConclude ctx rfl
            hnone reason) hmade

end ExitLogic

include hspares in
/-- A recovery leaves the positions of other instances and days alone. -/
theorem Strategy1.recover_spares (hother : ElsewhereThan ctx id v)
    (hown : ∀ j, own j → v.db.rows.LegOf id j) (acquired : Bool) :
    (Strategy1.recover ctx acquired).Safe C (Grows R v) v
      fun _ v' => Grows R v v' := by
  unfold Strategy1.recover
  rw [Prog.safe_bind]
  refine Program.safe_unitOfWork (Prog.Frame.refl (R := Grows R) v)
    (fun m _ _ _ => grows_interfere v m) fun m _ _ => ?_
  have hturn : Grows R v (v.interfere m) := grows_interfere v m
  refine (getByInstanceAndDate_meets ctx (v.interfere m).db).imp
    (fun row db h => ?_) fun _ _ => hturn
  obtain ⟨rfl, hrow, -⟩ := h
  rw [Prog.andThen_ok]
  cases row with
  | none => exact hturn
  | some row =>
      obtain ⟨positionId, p⟩ := row
      obtain ⟨hp, hday⟩ := hrow positionId p rfl
      have hne : positionId ≠ id := by
        intro hid
        rw [hid] at hp
        exact hspares.elsewhere hother hturn.rows p hp hday
      dsimp only
      cases p.state with
      | exitPending =>
          dsimp only
          rw [Prog.safe_bind]
          refine (along_from (along_outlasts (R := R)
            (along_inferPendingExitReason positionId)) hturn).mono
            fun res v₁ hv₁ => ?_
          cases res with
          | error e => exact hv₁
          | ok reason =>
              rw [Prog.andThen_ok, Prog.safe_bind]
              have hown₁ : ∀ j, own j → v₁.db.rows.LegOf id j := by
                intro j hj
                obtain ⟨leg, hleg, hof⟩ := hown j hj
                exact ⟨leg, (hspares.legs hv₁.rows j hj).trans hleg, hof⟩
              refine (ExitLogic.exit_spares hspares
                (hspares.elsewhere hother hv₁.rows) hown₁ acquired
                reason).imp (fun _ hv₂ => Prog.Frame.trans hv₁ hv₂)
                fun res v₂ hv₂ => ?_
              have hend : Grows R v v₂ := Prog.Frame.trans hv₁ hv₂
              cases res <;> exact hend
      | entryPending =>
          exact along_from (along_outlasts (R := R) (Prog.along_bind
            ((hspares.straddle _ hne).markPositionErrorAndFreeze ctx _)
            fun _ => Prog.along_pure _)) hturn
      | «open» =>
          exact along_from (along_outlasts (R := R) (along_attach ctx)) hturn
      | idle => exact hturn
      | closed => exact hturn
      | error => exact hturn

end AlgoPlatform
