/-
The account's entries of the day, under its cap.

# The law

`_check_max_daily_entries` counts the account's positions in one session,
the durable record is inserted by a later unit of work, and nothing
joins the two: no lock, no constraint, no second look. The cap holds in
every run in which no insert of the account comes between a call's count
and its own insert, and not in general.

# The argument

A call is `Guarded`: the only act of it that adds a position of the
account and day is the durable record, it adds one, and the act before
it is the count that found room. The rest of the entry touches no
position's instance or day (`EntriesKept`).
-/
import AlgoPlatform.Basis.Quota
import AlgoPlatform.Model.Risk
import AlgoPlatform.Proofs.Jobs

open Basis Basis.Session

namespace AlgoPlatform

-- ======================================================= what is counted

/-- The account's entries of the day, in a world. -/
def World.entriesOn (accountId : Nat) (day : Date) (w : World) : Nat :=
  w.db.rows.entriesOn accountId day

/-- The count is what it was, for this account and day. -/
def EntriesKept (accountId : Nat) (day : Date) (r r' : Rows) : Prop :=
  r'.entriesOn accountId day = r.entriesOn accountId day

variable {accountId : Nat} {day : Date} {r r' : Rows}

/-- The columns the count reads. -/
private theorem entriesOn_columns (r : Rows) (accountId : Nat) (day : Date) :
    r.entriesOn accountId day
      = (r.positions.map fun p => (p.strategyInstanceId, p.tradeDate)).countP
          fun x => x.2 = day
            ∧ (r.instances.map (·.accountId))[x.1]? = some accountId := by
  unfold Rows.entriesOn
  rw [List.countP_map]
  congr 1
  funext p
  rw [Function.comp_apply, List.getElem?_map]
  cases r.instances[p.strategyInstanceId]? <;> simp

theorem entriesKept_of_columns
    (hpositions : (r'.positions.map fun p => (p.strategyInstanceId, p.tradeDate))
      = r.positions.map fun p => (p.strategyInstanceId, p.tradeDate))
    (hinstances : r'.instances.map (·.accountId)
      = r.instances.map (·.accountId)) :
    EntriesKept accountId day r r' := by
  unfold EntriesKept
  rw [entriesOn_columns, entriesOn_columns, hpositions, hinstances]

instance (accountId : Nat) (day : Date) :
    BlindToOrders (EntriesKept accountId day) where
  refl := fun _ => rfl
  trans := fun h h' => h'.trans h
  orders := fun _ _ => rfl
  breaks := fun _ _ => rfl

theorem entriesKept_modify {i : Nat} {f : Position → Position}
    (hf : ∀ p : Position, (f p).strategyInstanceId = p.strategyInstanceId
      ∧ (f p).tradeDate = p.tradeDate)
    (hpositions : r'.positions = r.positions.modify i f)
    (hinstances : r'.instances = r.instances) :
    EntriesKept accountId day r r' := by
  refine entriesKept_of_columns ?_ (by rw [hinstances])
  rw [hpositions]
  refine map_modify_of_eq fun p _ => ?_
  rw [(hf p).1, (hf p).2]

/-- An insert adds one at most, and none on another day. -/
theorem entriesOn_insert (r : Rows) (p : Position) :
    ({ r with positions := r.positions ++ [p] } : Rows).entriesOn accountId day
      ≤ r.entriesOn accountId day + if p.tradeDate = day then 1 else 0 := by
  rw [entriesOn_columns, entriesOn_columns]
  dsimp only
  rw [List.map_append, List.countP_append, List.map_singleton,
    List.countP_singleton]
  by_cases hday : p.tradeDate = day
  · rw [if_pos hday]
    split_ifs <;> omega
  · simp [hday]

-- ============================================================== the entry

private theorem keeps_transitionState_entries (id : Nat)
    (toState : PositionState) (actor : StateTransitionActor)
    (reason : Option String) :
    Keeps (EntriesKept accountId day)
      (PositionRepository.transitionState id toState actor reason) := by
  refine keeps_bind (keeps_fetch _) fun row => keeps_bind (keeps_orRaise _ _)
    fun position => keeps_flush fun r => ?_
  refine entriesKept_modify ?_ rfl rfl
  intro p
  exact ⟨rfl, rfl⟩

theorem allowsTrading_entriesKept :
    AllowsTrading (EntriesKept accountId day) where
  intents := fun _ _ => rfl
  intent := fun _ => ⟨fun _ _ => rfl, fun _ => rfl⟩
  trades := fun _ _ _ => rfl
  trade := fun _ _ _ _ => rfl
  inst := by
    intro r i status
    refine entriesKept_of_columns rfl ?_
    exact map_modify_of_eq fun _ _ => rfl
  position := by
    intro r i f hf
    exact entriesKept_modify (fun p => ⟨(hf p).strategyInstanceId,
      (hf p).tradeDate⟩) rfl rfl
  transition := by
    intro id toState actor reason
    refine keeps_bind (keeps_fetch _) fun row => keeps_bind (keeps_orRaise _ _)
      fun position => keeps_ite (keeps_pure _) (keeps_ite ?_ (keeps_throw _))
    exact keeps_transitionState_entries _ _ _ _

-- ============================================================== the check

variable {config : RiskCoreConfig} {ctx : StrategyContext} {w seen : World}

/-- What a thread whose call concerns this day last saw: room for one
more. -/
def Room (config : RiskCoreConfig) (accountId : Nat) (day : Date)
    (ctx : StrategyContext) (seen : World) : Prop :=
  ctx.today = day → seen.entriesOn accountId day < config.maxDailyEntriesPerAccount

/-- A program that keeps the count raises nothing. -/
theorem guarded_of_along {α : Type} {p : Program α}
    (h : Prog.Along (OnRows (EntriesKept accountId day)) p) {bound : Nat} :
    p.Guarded (World.entriesOn accountId day) bound seen fun _ _ => True :=
  h.guarded fun _ _ hkept => le_of_eq hkept

/-- A read that changes nothing. -/
private theorem along_reading {α : Type} {body : List Nat → Session α}
    (h : ∀ scan, Keeps (EntriesKept accountId day) (body scan)) :
    Prog.Along (OnRows (EntriesKept accountId day)) (Program.unitOfWork body) :=
  along_onRows (Program.along_unitOfWork h)

/-- The environment's turn keeps the count. -/
private theorem entriesOn_interfere (w : World) (m : Move) :
    (w.interfere m).entriesOn accountId day = w.entriesOn accountId day :=
  (waits_interfere (R := EntriesKept accountId day) w m).rows

/-- One unit of work: what its commit adds, and what holds of the value
and the state it leaves. -/
private theorem guarded_unitOfWork {α : Type} {body : List Nat → Session α}
    {bound : Nat} {Q : Except Exc α → World → Prop}
    (hbody : ∀ scan (w : World), Meets (body scan) w.db
      (fun a db => (w.entriesOn accountId day
            < ({ w with db } : World).entriesOn accountId day →
          seen.entriesOn accountId day < bound
            ∧ ({ w with db } : World).entriesOn accountId day
              ≤ w.entriesOn accountId day + 1)
        ∧ Q (.ok a) { w with db }) fun _ => True)
    (herror : ∀ e w, Q (.error e) w) :
    (Program.unitOfWork body).Guarded (World.entriesOn accountId day) bound
      seen Q := by
  intro m w
  have hkept : (w.interfere m).entriesOn accountId day
      = w.entriesOn accountId day := entriesOn_interfere w m
  have hmeets := hbody m.scan (w.interfere m)
  unfold Meets at hmeets
  dsimp only
  rw [← hkept]
  cases m.fault with
  | some fault =>
      exact ⟨fun h => absurd h (Nat.lt_irrefl _), herror _ _⟩
  | none =>
      dsimp only
      cases hrun : body m.scan (w.interfere m).db with
      | error e =>
          exact ⟨fun h => absurd h (Nat.lt_irrefl _), herror _ _⟩
      | ok r =>
          rw [hrun] at hmeets
          exact hmeets

namespace RiskCore

/-- The check passes only where it saw room. -/
theorem checkMaxDailyEntries_guarded :
    (checkMaxDailyEntries config accountId ctx).Guarded
      (World.entriesOn accountId day) config.maxDailyEntriesPerAccount seen
      fun r seen => ∀ result, r = .ok result → result.status ≠ .failed →
        Room config accountId day ctx seen := by
  refine guarded_unitOfWork (fun _ w => ?_) fun _ _ => nofun
  unfold PositionRepository.countForAccountOnDate
  rw [meets_bind, meets_fetch, meets_ite]
  refine ⟨fun _ => ⟨fun h => absurd h (Nat.lt_irrefl _), ?_⟩,
    fun hroom => ⟨fun h => absurd h (Nat.lt_irrefl _), ?_⟩⟩
  · intro result hresult hpassed
    cases hresult
    exact absurd rfl hpassed
  · intro result _ _ hday
    subst hday
    exact not_le.1 hroom

variable {name : String} {check : Program RiskCheckResult}
  {rest : List (String × Program RiskCheckResult)} {P : World → Prop}
  {bound : Nat}

/-- The checks ran, and if none failed, what the last act left satisfies
`P`. -/
private def Unfailed (P : World → Prop)
    (r : Except Exc (Bool × List RiskCheckResult)) (seen : World) : Prop :=
  ∀ x, r = .ok x → x.1 = false → P seen

/-- The results of the rest, behind one more. -/
private theorem guarded_consed {result : RiskCheckResult} {failed : Bool}
    (h : (runChecks failed rest).Guarded (World.entriesOn accountId day) bound
      seen (Unfailed P)) :
    (do let (failed, results) ← runChecks failed rest
        pure (failed, result :: results) :
      Program (Bool × List RiskCheckResult)).Guarded
      (World.entriesOn accountId day) bound seen (Unfailed P) := by
  refine Prog.guarded_bind h (fun x seen hx => ?_) fun _ _ _ => nofun
  intro y hy hfalse
  cases hy
  exact hx x rfl hfalse

/-- After a failure there is nothing to check. -/
private theorem guarded_failed
    (checks : List (String × Program RiskCheckResult)) :
    (runChecks true checks).Guarded (World.entriesOn accountId day) bound
      seen (Unfailed P) := by
  induction checks with
  | nil =>
      intro x hx hfalse
      cases hx
      cases hfalse
  | cons x checks ih => exact guarded_consed ih

/-- A check that adds nothing, before the others. -/
private theorem guarded_cons
    (hcheck : check.Guarded (World.entriesOn accountId day) bound seen
      fun _ _ => True)
    (hrest : ∀ seen, (runChecks false rest).Guarded
      (World.entriesOn accountId day) bound seen (Unfailed P)) :
    (runChecks false ((name, check) :: rest)).Guarded
      (World.entriesOn accountId day) bound seen (Unfailed P) := by
  refine Prog.guarded_bind hcheck (fun result seen _ => guarded_consed ?_)
    fun _ _ _ => nofun
  cases hfailed : decide (result.status = .failed) with
  | true => exact guarded_failed rest
  | false => exact hrest seen

/-- Answers that take no act leave what was last seen. -/
private theorem guarded_answers (answers : List (String × Except Exc RiskCheckResult))
    (hseen : P seen) :
    (runChecks false (answers.map fun x => (x.1, Prog.done x.2))).Guarded
      (World.entriesOn accountId day) bound seen (Unfailed P) := by
  induction answers with
  | nil => exact fun _ _ _ => hseen
  | cons x answers ih =>
      obtain ⟨name, answer⟩ := x
      cases answer with
      | error e => exact nofun
      | ok result =>
          show Prog.Guarded _ _ (do
            let (failed, results) ← runChecks (decide (result.status = .failed)) _
            pure (failed, result :: results)) _ _
          refine guarded_consed ?_
          cases decide (result.status = .failed) with
          | true => exact guarded_failed _
          | false => exact ih

/-- An approval has just seen room. -/
theorem approveEntry_guarded (inputs : RiskInputs) :
    (approveEntry config accountId ctx inputs).Guarded
      (World.entriesOn accountId day) config.maxDailyEntriesPerAccount seen
      fun r seen => ∀ decision, r = .ok decision → decision.1 = true →
        Room config accountId day ctx seen := by
  have hanswer : ∀ {r : Except Exc RiskCheckResult} {seen : World},
      (Prog.done r : Program _).Guarded (World.entriesOn accountId day)
        config.maxDailyEntriesPerAccount seen fun _ _ => True :=
    Prog.guarded_done trivial
  have hstate : ∀ {seen : World}, (checkStrategyState ctx inputs.freezeFlags).Guarded
      (World.entriesOn accountId day) config.maxDailyEntriesPerAccount seen
      fun _ _ => True := by
    refine guarded_of_along (along_reading fun _ => ?_)
    refine keeps_bind (keeps_fetch _) fun row => ?_
    cases row with
    | none => exact keeps_pure _
    | some inst =>
        exact keeps_ite (keeps_pure _) (keeps_ite (keeps_pure _) (keeps_pure _))
  have hduplicate : ∀ {seen : World}, (checkDuplicatePosition ctx).Guarded
      (World.entriesOn accountId day) config.maxDailyEntriesPerAccount seen
      fun _ _ => True := by
    refine guarded_of_along (along_reading fun _ => ?_)
    refine keeps_bind (keeps_getByInstanceAndDate _ _) fun row => ?_
    cases row with
    | none => exact keeps_pure _
    | some row => exact keeps_pure _
  unfold approveEntry validateEntry
  refine Prog.guarded_bind (P := fun r seen => ∀ result, r = .ok result →
    result.approved = true → Room config accountId day ctx seen) ?_
    (fun result seen hresult => ?_) fun _ _ _ => nofun
  · refine Prog.guarded_bind (P := Unfailed (Room config accountId day ctx)) ?_
      (fun x seen hx => ?_) fun _ _ _ => nofun
    · refine guarded_cons hanswer fun _ => guarded_cons hstate fun _ => ?_
      refine guarded_cons hanswer fun _ => guarded_cons hanswer fun _ => ?_
      refine guarded_cons hanswer fun _ => guarded_cons hduplicate fun _ => ?_
      -- the count, and then nothing but answers
      refine Prog.guarded_bind checkMaxDailyEntries_guarded
        (fun result seen hroom => guarded_consed ?_) fun _ _ _ => nofun
      cases hfailed : decide (result.status = .failed) with
      | true => exact guarded_failed _
      | false =>
          exact guarded_answers
            [("broker_connectivity", inputs.brokerConnectivity),
              ("available_margin", inputs.availableMargin)]
            (hroom result rfl (by simpa using hfailed))
    · intro result hresult happroved
      cases hresult
      exact hx x rfl (by simpa using happroved)
  · intro decision hdecision happroved
    cases hdecision
    exact hresult result rfl happroved

end RiskCore

-- ============================================================ the insert

/-- The durable record adds one position, of the context's day. -/
private theorem getOrCreate_adds (accountId : Nat) (day : Date)
    (position : Position) (db : Db) :
    Meets (PositionRepository.getOrCreate position) db
      (fun _ db' => db'.rows.entriesOn accountId day
        ≤ db.rows.entriesOn accountId day
          + if position.tradeDate = day then 1 else 0) fun _ => True := by
  refine getOrCreate_meets ?_ fun _ => ?_
  · unfold PositionRepository.getByInstanceAndDate
    rw [meets_bind, meets_fetch, meets_scalarOneOrNone]
    exact ⟨fun _ => ⟨rfl, fun _ _ => Nat.le_add_right _ _⟩,
      fun _ _ => ⟨rfl, fun _ _ => Nat.le_add_right _ _⟩, fun _ => trivial⟩
  · unfold PositionRepository.insert
    rw [meets_bind, meets_fetch, meets_bind, meets_flush]
    refine ⟨fun _ => ?_, fun _ => trivial⟩
    rw [meets_pure]
    exact entriesOn_insert db.rows (position.kept db.rows.money)

namespace EntryLogic

/-- The durable record of a call that has seen room. -/
theorem createDurableRecord_guarded (selection : StraddleStrikeSelection)
    (hroom : Room config accountId day ctx seen) :
    (createDurableRecord ctx selection).Guarded (World.entriesOn accountId day)
      config.maxDailyEntriesPerAccount seen fun _ _ => True := by
  refine guarded_unitOfWork (fun _ w => ?_) fun _ _ => trivial
  rw [meets_bind]
  refine (getOrCreate_adds accountId day (newPosition ctx selection) w.db).imp
    (fun x db hadds => ?_) fun _ h => h
  obtain ⟨⟨positionId, position⟩, created⟩ := x
  -- the legs add no position
  refine (keeps_ite (R := EntriesKept accountId day) ?_ (keeps_pure _) db).imp
    (fun _ db' hkept => ⟨fun hraised => ?_, trivial⟩) fun _ h => h
  · exact keeps_bind (allowsTrading_entriesKept.createLeg ctx _ _ _ _) fun ce =>
      keeps_bind (allowsTrading_entriesKept.createLeg ctx _ _ _ _) fun pe =>
        keeps_pure _
  · have hcount : ({ w with db := db' } : World).entriesOn accountId day
        ≤ w.entriesOn accountId day + if ctx.today = day then 1 else 0 :=
      le_trans (le_of_eq hkept) hadds
    by_cases hday : ctx.today = day
    · rw [if_pos hday] at hcount
      exact ⟨hroom hday, hcount⟩
    · rw [if_neg hday] at hcount
      omega

/-- The risk gates let a call through only with room seen. -/
private theorem blockedBy_guarded {approve : Program (Bool × Option String)}
    (inputs : EntryInputs)
    (happrove : ∀ seen, approve.Guarded (World.entriesOn accountId day)
      config.maxDailyEntriesPerAccount seen fun r seen => ∀ decision,
        r = .ok decision → decision.1 = true →
          Room config accountId day ctx seen) :
    (beginUnder.blockedBy approve inputs).Guarded (World.entriesOn accountId day)
      config.maxDailyEntriesPerAccount seen fun r seen => r = .ok none →
        Room config accountId day ctx seen := by
  unfold beginUnder.blockedBy
  refine Prog.guarded_bind (P := fun _ _ => True) (Prog.guarded_done trivial)
    (fun halted seen _ => ?_) fun _ _ _ => nofun
  cases halted with
  | true => exact nofun
  | false =>
      refine Prog.guarded_bind (happrove seen) (fun decision seen hseen => ?_)
        fun _ _ _ => nofun
      obtain ⟨approved, reason⟩ := decision
      cases approved with
      | true => exact fun _ => hseen _ rfl rfl
      | false => cases reason <;> exact nofun

/-- An entry adds a position only right after its risk core has seen
room. -/
theorem enterUnder_guarded (inputs : EntryInputs) (risk : RiskInputs) :
    (enterUnder ctx (RiskCore.approveEntry config accountId ctx risk)
      inputs).Guarded (World.entriesOn accountId day)
      config.maxDailyEntriesPerAccount seen fun _ _ => True := by
  have hplace : ∀ {durable : DurableRecord} {seen : World},
      (placeAndFinalize ctx durable).Guarded (World.entriesOn accountId day)
        config.maxDailyEntriesPerAccount seen fun _ _ => True :=
    guarded_of_along (allowsTrading_entriesKept.placeAndFinalize ctx _)
  have hfind : (findExistingPosition ctx).Guarded
      (World.entriesOn accountId day) config.maxDailyEntriesPerAccount seen
      fun _ _ => True :=
    guarded_of_along (along_reading fun _ =>
      keeps_bind (keeps_getByInstanceAndDate _ _) fun _ => keeps_pure _)
  refine Prog.guarded_bind (P := fun _ _ => True) ?_ (fun begun seen _ => ?_)
    fun _ _ _ => trivial
  · refine Prog.guarded_bind hfind (fun found seen _ => ?_) fun _ _ _ => trivial
    cases found with
    | some state => trivial
    | none =>
        refine Prog.guarded_bind (P := fun _ _ => True)
          (Prog.guarded_done trivial) (fun skip seen _ => ?_)
          fun _ _ _ => trivial
        cases skip with
        | true => trivial
        | false =>
            refine Prog.guarded_bind (blockedBy_guarded inputs fun _ =>
              RiskCore.approveEntry_guarded risk) (fun blocked seen hseen => ?_)
              fun _ _ _ => trivial
            cases blocked with
            | some reason => trivial
            | none =>
                -- the selection takes no act
                refine Prog.guarded_bind
                  (P := fun _ seen => Room config accountId day ctx seen)
                  (Prog.guarded_done (hseen rfl)) (fun selection seen hroom => ?_)
                  fun _ _ _ => trivial
                refine Prog.guarded_bind
                  (createDurableRecord_guarded selection hroom)
                  (fun durable _ _ => ?_) fun _ _ _ => trivial
                cases durable <;> trivial
  · cases begun with
    | error result => trivial
    | ok durable => exact hplace

end EntryLogic

-- ================================================================== runs

/-- In every interleaving of the account's entry calls in which no call
adds a position on a count that is out of date, the day's entries stay
within the cap. -/
theorem entries_within_cap (config : RiskCoreConfig) (accountId : Nat)
    (day : Date) {w : World}
    (hw : w.entriesOn accountId day ≤ config.maxDailyEntriesPerAccount)
    {es : List (Pool.Event EntryCall Move)}
    (hfresh : Pool.Fresh (EntryCall.program config accountId)
      (World.entriesOn accountId day) (Pool.idle w) es) :
    (Pool.run (EntryCall.program config accountId) (Pool.idle w) es).state.entriesOn
      accountId day ≤ config.maxDailyEntriesPerAccount := by
  refine Pool.run_within (p := Pool.idle w) (fun call s => ?_)
    (fun _ ht => nomatch ht) hw hfresh
  exact Prog.guarded_bind (EntryLogic.enterUnder_guarded call.inputs call.risk)
    (fun _ _ _ => trivial) fun _ _ _ => trivial

/-- The cap as the config describes it: whatever the interleaving. -/
def CapsEntries : Prop :=
  ∀ (config : RiskCoreConfig) (accountId : Nat) (day : Date) (w : World)
    (es : List (Pool.Event EntryCall Move)),
    w.entriesOn accountId day ≤ config.maxDailyEntriesPerAccount →
    (Pool.run (EntryCall.program config accountId) (Pool.idle w) es).state.entriesOn
      accountId day ≤ config.maxDailyEntriesPerAccount

namespace SampleDay

/-- One entry a day for the whole account. -/
def oneEntry : RiskCoreConfig where
  maxDailyEntriesPerAccount := 1
  maxDailyEntries_pos := Nat.one_pos

/-- A morning with two instances of the account. -/
def twoInstances : World where
  db := ⟨{ instances := [
      { strategyId := "strategy_1", instrument := "NIFTY", accountId := 1,
        exchange := .nfo, status := .active },
      { strategyId := "strategy_1", instrument := "SENSEX", accountId := 1,
        exchange := .bfo, status := .active }] }, by decide⟩
  broker := {}

/-- Every check on what is not modelled passes. -/
def cleared : RiskInputs where
  tradingHours := .ok ⟨"trading_hours", .passed, ""⟩
  freezeFlags := 0
  killSwitchFlags := 0
  emergencyExitFlags := 0
  dailyLossLimit := .ok ⟨"daily_loss_limit", .passed, ""⟩
  brokerConnectivity := .ok ⟨"broker_connectivity", .passed, ""⟩
  availableMargin := .ok ⟨"available_margin", .passed, ""⟩

def firstCall : EntryCall := ⟨SampleDay.ctx, inputs, cleared⟩

def secondCall : EntryCall :=
  ⟨{ SampleDay.ctx with instanceId := 1 }, inputs, cleared⟩

/-- Both triggers fire at once: each call checks, then each inserts. -/
def coincident : List (Pool.Event EntryCall Move) :=
  [.start firstCall, .start secondCall]
    ++ List.replicate 4 (.acts 0 still) ++ List.replicate 4 (.acts 1 still)
    ++ [.acts 0 still, .acts 1 still]

/-- Two positions on a cap of one. -/
theorem coincident_exceeds_cap : ¬ CapsEntries := by
  intro hcap
  have hwithin := hcap oneEntry 1 SampleDay.ctx.today twoInstances coincident
    (by decide +kernel)
  exact absurd hwithin (by decide +kernel)

/-- The same calls, the second checking after the first has inserted. -/
def successive : List (Pool.Event EntryCall Move) :=
  [.start firstCall, .start secondCall]
    ++ List.replicate 5 (.acts 0 still) ++ List.replicate 5 (.acts 1 still)

theorem successive_within_cap :
    (Pool.run (EntryCall.program oneEntry 1) (Pool.idle twoInstances)
      successive).state.entriesOn 1 SampleDay.ctx.today ≤ 1 :=
  entries_within_cap oneEntry 1 SampleDay.ctx.today (by decide +kernel)
    (by decide +kernel)

end SampleDay

end AlgoPlatform
