/-
A quarantined instance opens nothing.

`_check_strategy_state` refuses an instance that is not ACTIVE, so an
entry that starts while its instance is FROZEN ends at the risk core. An
instance with a position in ERROR is FROZEN (`Vouched`), and stays so
until an operator clears it: whatever else runs, on that day or a later
one, it gets no new position.
-/
import AlgoPlatform.Proofs.Quarantine

open Basis Basis.Session

namespace AlgoPlatform

/-- The instance gets no position. -/
def OpensNone (k : Nat) (r r' : Rows) : Prop :=
  ∀ id, r'.Belongs id k → r.Belongs id k

variable {given : ExitReason → Prop} {cleared : Nat → Prop} {k : Nat}
  {r r' : Rows} {seen : World} {ctx : StrategyContext}

theorem SameOrigins.opensNone (h : SameOrigins r r') : OpensNone k r r' := by
  intro id hid
  obtain ⟨q, hq, hk⟩ := hid
  have horigin := congrArg (fun origins => origins[id]?) h
  simp only [List.getElem?_map, hq, Option.map_some] at horigin
  obtain ⟨p, hp, hpq⟩ := Option.map_eq_some_iff.1 horigin.symm
  exact ⟨p, hp, (congrArg Prod.fst hpq).trans hk⟩

instance : BlindToOrders (OpensNone k) where
  refl := fun _ _ h => h
  trans := fun h h' id hid => h id (h' id hid)
  orders := fun _ _ _ h => h
  breaks := fun _ _ _ h => h

theorem allowsTrading_opensNone : AllowsTrading (OpensNone k) where
  intents := fun _ _ _ h => h
  intent := fun _ => ⟨fun _ _ _ h => h, fun _ _ h => h⟩
  trades := fun _ _ _ _ h => h
  trade := fun _ _ _ _ _ h => h
  inst := fun _ _ _ _ h => h
  position := fun _ _ _ hf => SameOrigins.opensNone (map_modify_of_eq fun p _ =>
    Prod.ext (hf p).strategyInstanceId (hf p).tradeDate)
  transition := fun _ _ _ _ => keeps_bind (keeps_fetch _) fun _ =>
    keeps_bind (keeps_orRaise _ _) fun _ => keeps_ite (keeps_pure _)
      (keeps_ite (keeps_bind (keeps_fetch _) fun _ =>
        keeps_bind (keeps_orRaise _ _) fun _ => keeps_flush fun _ =>
          SameOrigins.opensNone (map_modify_of_eq fun _ _ => rfl))
        (keeps_throw _))

/-- Another instance's position. -/
theorem allowsEntry_opensNone (hne : ctx.instanceId ≠ k) :
    AllowsEntry (OpensNone k) ctx := by
  intro selection
  refine keeps_getOrCreate (keeps_getByInstanceAndDate _ _) ?_
  refine keeps_bind (keeps_fetch _) fun _ =>
    keeps_bind (keeps_flush fun r id hid => ?_) fun _ => keeps_pure _
  obtain ⟨q, hq, hk⟩ := hid
  dsimp only at hq
  by_cases hi : id < r.positions.length
  · rw [List.getElem?_append_left hi] at hq
    exact ⟨q, hq, hk⟩
  · rw [List.getElem?_append_right (Nat.not_lt.1 hi)] at hq
    rw [List.mem_singleton.1 (List.mem_of_getElem? hq)] at hk
    exact absurd hk hne

-- ============================================================== the gate

namespace RiskCore

/-- After a failed check nothing is evaluated. -/
private theorem runChecks_failed
    (checks : List (String × Program RiskCheckResult)) :
    ∃ results, runChecks true checks = pure (true, results) := by
  induction checks with
  | nil => exact ⟨[], rfl⟩
  | cons x checks ih =>
      obtain ⟨name, check⟩ := x
      obtain ⟨results, hresults⟩ := ih
      refine ⟨⟨name, .skipped,
        "not evaluated: an earlier check already failed (fail-fast)"⟩ :: results,
        ?_⟩
      unfold runChecks
      rw [hresults]
      rfl

variable {I : World → Prop} {R : World → World → Prop}

/-- A check that never passes fails the validation. -/
private theorem runChecks_beside {name : String}
    {check : Program RiskCheckResult}
    {rest : List (String × Program RiskCheckResult)}
    (hcheck : check.Beside I R seen fun r _ =>
      ∀ result, r = .ok result → result.status = .failed) :
    (runChecks false ((name, check) :: rest)).Beside I R seen fun r _ =>
      ∀ x, r = .ok x → x.1 = true := by
  refine Prog.beside_bind hcheck (fun result w hfailed => ?_)
    fun _ _ _ _ hx => by cases hx
  rw [hfailed result rfl]
  obtain ⟨results, hresults⟩ := runChecks_failed rest
  show ((runChecks true rest >>= fun x => pure (x.1, result :: x.2)) :
    Program _).Beside I R w _
  rw [hresults]
  intro x hx
  cases hx
  rfl

/-- A FROZEN instance is not approved. -/
theorem approveEntry_frozen [Prog.Frame R] (hturn : TurnKeeps I R)
    (hfrozen : ∀ w, I w → w.db.rows.Frozen ctx.instanceId)
    (config : RiskCoreConfig) (accountId : Nat) (inputs : RiskInputs) :
    (approveEntry config accountId ctx inputs).Beside I R seen fun r _ =>
      ∀ decision, r = .ok decision → decision.1 = true → False := by
  have hstate : ∀ {seen : World},
      (checkStrategyState ctx inputs.freezeFlags).Beside I R seen fun r _ =>
        ∀ result, r = .ok result → result.status = .failed := by
    intro seen
    refine Program.beside_unitOfWork hturn (fun _ _ _ _ _ h => by cases h)
      fun _ w _ hw => ?_
    obtain ⟨inst, hinst, hstatus⟩ := hfrozen w hw
    unfold StrategyInstanceRepository.getById
    rw [meets_bind, meets_fetch, hinst]
    dsimp only
    rw [meets_ite]
    refine ⟨fun _ => ⟨⟨hw, Prog.Frame.refl w⟩, fun result hresult => ?_⟩,
      fun hactive => ?_⟩
    · cases hresult
      rfl
    · rw [hstatus] at hactive
      exact absurd nofun hactive
  -- the trading hours come first, and may fail too
  have hchecks : (validateEntry config accountId ctx inputs).Beside I R seen
      fun r _ => ∀ result, r = .ok result → result.approved = false := by
    refine Prog.beside_bind (P := fun r _ => ∀ x, r = .ok x → x.1 = true) ?_
      (fun x w hx result hresult => ?_) fun _ _ _ _ h => by cases h
    · unfold runChecks
      refine Prog.beside_bind (P := fun _ _ => True) trivial
        (fun result w _ => ?_) fun _ _ _ _ h => by cases h
      refine Prog.beside_bind (P := fun r _ => ∀ x, r = .ok x → x.1 = true) ?_
        (fun x w hx y hy => ?_) fun _ _ _ _ h => by cases h
      · cases decide (result.status = .failed) with
        | true =>
            obtain ⟨results, hresults⟩ := runChecks_failed _
            rw [hresults]
            intro x hx
            cases hx
            rfl
        | false => exact runChecks_beside hstate
      · cases hy
        exact hx x rfl
    · cases hresult
      rw [hx x rfl]
      rfl
  refine Prog.beside_bind hchecks (fun result w hresult decision hdecision => ?_)
    fun _ _ _ _ h => by cases h
  cases hdecision
  rw [RiskValidationResult.toRiskDecision, hresult result rfl]
  exact fun h => by cases h

end RiskCore

-- ================================================================== runs

/-- Every commit vouches, and the instance gets no position. -/
def Seals (given : ExitReason → Prop) (cleared : Nat → Prop) (k : Nat)
    (w w' : World) : Prop :=
  OnRows (Vouches given cleared) w w' ∧ OnRows (OpensNone k) w w'

instance : Prog.Frame (Seals given cleared k) where
  refl := fun w => ⟨Prog.Frame.refl w, Prog.Frame.refl w⟩
  trans := fun h h' => ⟨Prog.Frame.trans h.1 h'.1, Prog.Frame.trans h.2 h'.2⟩

/-- The law, and the instance is FROZEN. -/
def Sealed (given : ExitReason → Prop) (cleared : Nat → Prop) (k : Nat)
    (w : World) : Prop :=
  VouchedIn given cleared w ∧ w.db.rows.Frozen k

/-- A program that vouches, and opens none, where the instance is not
cleared. -/
private theorem beside_sealed {α : Type} {p : Program α}
    {Q : Except Exc α → World → Prop} (hk : ¬ cleared k)
    (h : p.Beside (VouchedIn given cleared) (OnRows (Vouches given cleared))
      seen Q) (hnone : p.Along (OnRows (OpensNone k))) :
    p.Beside (Sealed given cleared k) (Seals given cleared k) seen Q :=
  (h.along hnone).stable fun _ _ hmoved => hmoved.1.frozen k hk

private theorem turnKeeps_sealed (hk : ¬ cleared k) :
    TurnKeeps (Sealed given cleared k) (Seals given cleared k) := by
  intro m w hw
  obtain ⟨hvouched, hmoved⟩ : VouchedIn given cleared (w.interfere m)
    ∧ OnRows (Vouches given cleared) w (w.interfere m) :=
    turnKeeps_vouched m w hw.1
  have hturn : Waits (OpensNone k) w (w.interfere m) := waits_interfere w m
  exact ⟨⟨hvouched, hmoved.frozen k hk hw.2⟩, hmoved, hturn.rows⟩

/-- An entry, of this instance or another. -/
private theorem enter_sealed (hk : ¬ cleared k) (config : RiskCoreConfig)
    (accountId : Nat) (risk : RiskInputs) (inputs : EntryInputs) :
    (EntryLogic.enterUnder ctx
      (RiskCore.approveEntry config accountId ctx risk) inputs).Beside
      (Sealed given cleared k) (Seals given cleared k) seen
      fun _ _ => True := by
  have hfind : ∀ seen, (EntryLogic.findExistingPosition ctx).Beside
      (Sealed given cleared k) (Seals given cleared k) seen
      fun _ _ => True := by
    have halong : ∀ {R : Rows → Rows → Prop} [BlindToOrders R],
        Prog.Along (OnRows R) (EntryLogic.findExistingPosition ctx) :=
      along_onRows (Program.along_unitOfWork fun _ =>
        keeps_bind (keeps_getByInstanceAndDate _ _) fun _ => keeps_pure _)
    exact fun _ => beside_sealed hk (beside_of_vouches halong) halong
  by_cases hown : ctx.instanceId = k
  · -- the risk core turns it away
    exact EntryLogic.enterUnder_beside (P := fun _ => False)
      (Q := fun _ _ => False) hfind
      (fun _ => RiskCore.approveEntry_frozen (turnKeeps_sealed hk)
        (fun w hw => hown ▸ hw.2) config accountId risk)
      (fun _ _ h => h.elim) fun _ _ h => h.elim
  · refine EntryLogic.enterUnder_beside (P := fun _ => True)
      (Q := fun d w => w.db.rows.Belongs d.positionId ctx.instanceId) hfind
      (fun _ => ?_) (fun selection _ _ => ?_) fun d _ hb => ?_
    · exact (beside_sealed hk (beside_of_vouches (along_onRows
        (RiskCore.along_approveEntry config accountId risk)))
        (along_onRows (RiskCore.along_approveEntry config accountId risk))).mono
        fun _ _ _ _ _ _ => trivial
    · exact beside_sealed hk (EntryLogic.createDurableRecord_beside selection)
        (along_onRows (allowsTrading_opensNone.createDurableRecord ctx
          (allowsEntry_opensNone hown) selection))
    · exact beside_sealed hk (EntryLogic.placeAndFinalize_vouching hb)
        (allowsTrading_opensNone.placeAndFinalize ctx d)

/-- Every activity leaves the quarantine standing. -/
private theorem activity_sealed {reconciler : Option PositionReconciler}
    (hseam : ∀ s ∈ reconciler, s.Disciplined ∧ s.SparesEndings)
    (hk : ¬ cleared k) {activity : Activity}
    (hwithin : activity.Within given cleared) (seen : World) :
    (activity.program reconciler).Beside (Sealed given cleared k)
      (Seals given cleared k) seen fun _ _ => True := by
  have hvouching : (activity.program reconciler).Beside
      (VouchedIn given cleared) (OnRows (Vouches given cleared)) seen
      fun _ _ => True :=
    activity_vouching (fun s hs => ⟨(hseam s hs).1.documented, (hseam s hs).2⟩)
      hwithin seen
  have hcycles : AllowsCycles (OpensNone k) := allowsTrading_opensNone.cycles
  cases activity with
  | enter config accountId call =>
      exact Prog.beside_bind (enter_sealed hk config accountId call.risk
        call.inputs) (fun _ _ _ => trivial) fun _ _ _ => trivial
  | exit ctx acquired reason =>
      exact beside_sealed hk hvouching
        (Prog.along_discard (hcycles.bears.exit ctx acquired reason))
  | recover ctx acquired =>
      exact beside_sealed hk hvouching
        (Prog.along_discard (hcycles.bears.recover ctx acquired))
  | reconcile =>
      have hpass : Prog.Along (Waits SameOrigins)
          (ReconciliationEngine.reconcile reconciler) :=
        ReconciliationEngine.along_reconcile
          ReconciliationEngine.keeps_sameOrigins_intentSession (fun _ _ => rfl)
          (ReconciliationEngine.keeps_sameOrigins_positionSession
            fun s hs => (hseam s hs).1.finishes)
      exact beside_sealed hk hvouching (Prog.along_discard
        (hpass.mono fun _ _ h => h.rows.opensNone))
  | freeze instanceId =>
      exact beside_sealed hk hvouching (along_onRows (Prog.along_tryCatch
        (Program.along_unitOfWork fun _ =>
          keeps_freezing allowsTrading_opensNone.inst instanceId)
        fun _ => Prog.along_pure _))
  | admin command =>
      refine beside_sealed hk hvouching (Prog.along_discard (along_onRows
        (Prog.along_tryCatch (Prog.along_bind ?_ fun _ => Prog.along_pure _)
          fun _ => Prog.along_pure _)))
      cases command with
      | list => exact InstanceAdmin.along_list
      | unfreeze instanceId reason actor =>
          refine Program.along_unitOfWork fun _ =>
            keeps_bind (keeps_fetch _) fun row => ?_
          cases row with
          | none => exact keeps_pure _
          | some inst =>
              exact keeps_ite (keeps_pure _) (keeps_bind (keeps_flush fun r =>
                allowsTrading_opensNone.inst r _ _) fun _ => keeps_pure _)

/-- An instance with a position in ERROR gets no new position, and stays
FROZEN, in every interleaving in which no operator clears it. -/
theorem quarantined_opens_nothing {reconciler : Option PositionReconciler}
    (hseam : ∀ s ∈ reconciler, s.Disciplined ∧ s.SparesEndings) {w : World}
    (hw : VouchedIn given cleared w) {p : Position}
    (hp : p ∈ w.db.rows.positions) (herror : p.state = .error)
    (hk : ¬ cleared p.strategyInstanceId)
    (es : List (Pool.Event Activity Move))
    (hes : ∀ activity, .start activity ∈ es → activity.Within given cleared) :
    (Pool.run (Activity.program reconciler) (Pool.idle w)
        es).state.db.rows.Frozen p.strategyInstanceId
      ∧ ∀ id, (Pool.run (Activity.program reconciler) (Pool.idle w)
          es).state.db.rows.Belongs id p.strategyInstanceId →
        w.db.rows.Belongs id p.strategyInstanceId := by
  obtain ⟨i, hi⟩ := List.getElem?_of_mem hp
  have hfrozen : w.db.rows.Frozen p.strategyInstanceId :=
    ((hw.positions i p hi).quarantined herror).resolve_left hk
  have hprogram : ∀ activity, .start activity ∈ es → ∀ s,
      Sealed given cleared p.strategyInstanceId s →
      (activity.program reconciler).Beside
        (Sealed given cleared p.strategyInstanceId)
        (Seals given cleared p.strategyInstanceId) s fun _ _ => True :=
    fun activity hstart s _ => activity_sealed hseam hk (hes activity hstart) s
  obtain ⟨hend, hmoved⟩ := Pool.run_beside (p := Pool.idle w) hprogram
    (fun _ ht => nomatch ht) ⟨hw, hfrozen⟩
  exact ⟨hend.2, hmoved.2⟩

namespace SampleDay

/-- The morning after the rejection. -/
def afterRejection : World :=
  (Pool.run (Activity.program (some seam)) (Pool.idle morning) declined).state

/-- The next day's entry, beside a pass. -/
def nextDay : List (Pool.Event Activity Move) :=
  .start (.enter oneEntry 1 { firstCall with
      ctx := { SampleDay.ctx with today := { year := 2024, month := 7, day := 5 } } })
    :: .start .reconcile
    :: [.acts 0 still, .acts 1 still, .acts 0 still, .acts 1 still,
      .acts 0 still, .acts 0 still]

/-- It opens nothing. -/
theorem nextDay_opens_nothing :
    ∃ p ∈ afterRejection.db.rows.positions, p.state = .error
      ∧ ∀ id, (Pool.run (Activity.program (some seam))
          (Pool.idle afterRejection) nextDay).state.db.rows.Belongs id
            p.strategyInstanceId →
        afterRejection.db.rows.Belongs id p.strategyInstanceId := by
  have herrors : afterRejection.db.rows.positions.any (·.state = .error)
      = true := by
    decide +kernel
  obtain ⟨p, hp, herror⟩ := List.any_eq_true.1 herrors
  have hvouched : VouchedIn (fun _ => False) (fun _ => False)
      afterRejection :=
    vouched_run seam_documents (vouched_of_empty rfl) (declined_within _ _)
  refine ⟨p, hp, of_decide_eq_true herror, (quarantined_opens_nothing
    (fun s hs => ⟨seam_disciplined s hs, (seam_documents s hs).2⟩) hvouched hp
    (of_decide_eq_true herror) id nextDay fun activity hstart => ?_).2⟩
  unfold nextDay at hstart
  simp only [List.mem_cons, List.not_mem_nil, or_false, reduceCtorEq,
    Pool.Event.start.injEq] at hstart
  rcases hstart with rfl | rfl
  · trivial
  · trivial

end SampleDay

end AlgoPlatform
