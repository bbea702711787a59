/-
What a start and a stop of the platform do, whatever any step meets.

`Up` is what a completed start leaves, `Down` what a stop of it leaves. A
start of a container that is down completes just if everything answers
well and no two declared instances come to the same runner; one that
raises has left a ticker open, or nothing (`start_settles`). The stop with
which the application answers a failed start finds the container not
started, and does nothing (`Application.start_error`); a stop of a
container that is up takes every one of its steps, whichever raise
(`stop_eq`, `Up.takenDown`).
-/
import Mathlib.Data.List.Nodup
import AlgoPlatform.Model.Container
import AlgoPlatform.Proofs.RunnerLifecycle

open Basis

namespace AlgoPlatform

-- =============================================== statement vocabulary

/-- A ticker was made. -/
def TickerAnswer.opens : TickerAnswer → Bool
  | .connects => true
  | .factoryRaises _ => false
  | .connectRaises _ => true

/-- What was raised, if anything was, is a `BrokerError`. -/
def TickerAnswer.survived : TickerAnswer → Bool
  | .connects => true
  | .factoryRaises e | .connectRaises e =>
      match e with
      | .broker _ => true
      | _ => false

/-- Everything that comes before the sockets goes well. -/
structure StartAnswers.Prepares (a : StartAnswers) : Prop where
  authenticated : a.authenticate = .ok ()
  healthy : ∃ health, a.healthCheck = .ok health ∧ health.healthy = true
  accounts : a.ensureAccounts = .ok ()
  runners : a.buildRunners = .ok ()
  reconciled : a.reconcile = .ok ()

/-- A start of a container that is down opens a ticker. -/
def StartAnswers.Opens (a : StartAnswers) : Prop :=
  a.Prepares ∧ (a.orderTicker.opens = true
    ∨ a.orderTicker.survived = true ∧ a.tickTicker.opens = true)

/-- A start of a container that is down goes well to its end. -/
structure StartAnswers.Completes (config : ContainerConfig) (built : Nat)
    (a : StartAnswers) : Prop where
  prepares : a.Prepares
  orders : a.orderTicker.survived = true
  ticks : a.tickTicker = .connects
  triggers : ∀ r ∈ config.runnersFrom built, (a.register r).triggers = .ok ()
  distinct : (config.instances.map config.identity).Nodup

namespace Container

/-- What a completed start leaves, and threads keep. -/
structure Up (config : ContainerConfig) (s : Container) : Prop where
  started : s.started = true
  loops : s.schedulerLoop = true ∧ s.monitorLoop = true
  ticks : s.tickTicker = true
  heard : s.orderTicker = true → 0 < s.orderCallbacks
  declared : s.runners.map BuiltRunner.identity
    = config.instances.map config.identity
  scheduled : s.schedules = s.runners.map fun r => (r.identity, r)
  monitored : s.monitored = s.runners.map fun r => (r.identity, r)
  consumers : ∀ r ∈ s.runners, r ∈ s.consumers
  live : ∀ r ∈ s.runners,
    s.status r.number = .running ∨ s.status r.number = .frozen
  others : ∀ k, s.status k = .running → ∃ r ∈ s.runners, r.number = k

/-- Nothing is up. -/
structure Down (s : Container) : Prop where
  started : s.started = false
  loops : s.schedulerLoop = false ∧ s.monitorLoop = false
  tickers : s.orderTicker = false ∧ s.tickTicker = false
  scheduled : s.schedules = []
  monitored : s.monitored = []
  idle : ∀ k, s.status k ≠ .running

end Container

-- ============================================================= tickers

namespace TickerAnswer

variable {a : TickerAnswer}

theorem openTicker_closed : (Container.openTicker false a).2 = a.opens := by
  cases a with
  | connects => rfl
  | factoryRaises e => rfl
  | connectRaises e => rfl

/-- Where `connect` returns there is a ticker. -/
theorem openTicker_ok {isOpen : Bool}
    (h : (Container.openTicker isOpen a).1 = .ok ()) :
    (Container.openTicker isOpen a).2 = true := by
  cases a with
  | connects => rfl
  | factoryRaises e | connectRaises e =>
      cases isOpen with
      | true => rfl
      | false => cases h

theorem openTicker_open : Container.openTicker true a = (.ok (), true) := by
  cases a with
  | connects => rfl
  | factoryRaises e => rfl
  | connectRaises e => rfl

/-- What a surviving ticker raises, and what another one does. -/
theorem broker_of_survived {isOpen : Bool} {e : LifecycleExc}
    (h : a.survived = true) (hended : (Container.openTicker isOpen a).1 = .error e) :
    ∃ text, e = .broker text := by
  cases isOpen with
  | true => rw [openTicker_open] at hended; cases hended
  | false =>
      cases a with
      | connects => cases hended
      | factoryRaises e' | connectRaises e' =>
          cases hended
          cases e with
          | broker text => exact ⟨text, rfl⟩
          | _ => cases h

theorem raises_of_not_survived (h : a.survived = false) :
    ∃ e, (Container.openTicker false a).1 = .error e
      ∧ ∀ text, e ≠ .broker text := by
  cases a with
  | connects => cases h
  | factoryRaises e | connectRaises e =>
      exact ⟨e, rfl, fun text he => by rw [he] at h; cases h⟩

end TickerAnswer

namespace Container

variable {config : ContainerConfig} {s s' : Container} {a : StartAnswers}
  {r : BuiltRunner} {built : Nat}

-- ======================================================= one step each

theorem verifyHealth_ok {health : HealthStatus} :
    verifyHealth health = .ok () ↔ health.healthy = true := by
  unfold verifyHealth
  split
  case isTrue h => exact iff_of_true rfl h
  case isFalse h => exact iff_of_false (fun hok => by cases hok) h

theorem prepare_ok (h : a.Prepares) (s : Container) :
    prepare config a s = (.ok (), s.buildRunners config) := by
  obtain ⟨health, hread, hhealthy⟩ := h.healthy
  unfold prepare
  rw [h.authenticated, hread, h.accounts, h.runners, h.reconciled,
    Step.bind_ok (Step.lift_apply _ s), Step.bind_ok (Step.lift_apply _ s),
    verifyHealth_ok.2 hhealthy, Step.bind_ok (Step.lift_apply _ s),
    Step.bind_ok (Step.lift_apply _ s), Step.bind_ok (Step.lift_apply _ s),
    Step.bind_ok (Step.modify_apply _ s)]
  rfl

/-- A start that does not get as far as the sockets raises, and has done
no more than build its runners. -/
theorem prepare_error (h : ¬ a.Prepares) (s : Container) :
    ∃ e s', prepare config a s = (.error e, s')
      ∧ (s' = s ∨ s' = s.buildRunners config) := by
  unfold prepare
  cases hauth : a.authenticate with
  | error e => exact ⟨e, s, rfl, .inl rfl⟩
  | ok _ =>
    rw [Step.bind_ok (Step.lift_apply _ s)]
    cases hread : a.healthCheck with
    | error e => exact ⟨e, s, rfl, .inl rfl⟩
    | ok health =>
      rw [Step.bind_ok (Step.lift_apply _ s)]
      cases hverdict : verifyHealth health with
      | error e => exact ⟨e, s, rfl, .inl rfl⟩
      | ok _ =>
        rw [Step.bind_ok (Step.lift_apply _ s)]
        cases haccounts : a.ensureAccounts with
        | error e => exact ⟨e, s, rfl, .inl rfl⟩
        | ok _ =>
          rw [Step.bind_ok (Step.lift_apply _ s)]
          cases hrunners : a.buildRunners with
          | error e => exact ⟨e, s, rfl, .inl rfl⟩
          | ok _ =>
            rw [Step.bind_ok (Step.lift_apply _ s),
              Step.bind_ok (Step.modify_apply _ s)]
            cases hreport : a.reconcile with
            | error e => exact ⟨e, _, rfl, .inr rfl⟩
            | ok _ =>
                exact absurd ⟨hauth, ⟨health, hread, verifyHealth_ok.1 hverdict⟩,
                  haccounts, hrunners, hreport⟩ h

/-- The callback is registered, and the ticker's connection tried. -/
def heard (s : Container) (answer : TickerAnswer) : Container :=
  { s with
    orderCallbacks := s.orderCallbacks + 1
    orderTicker := (openTicker s.orderTicker answer).2 }

/-- The market data's ticker has been connected to. -/
def watching (s : Container) (answer : TickerAnswer) : Container :=
  { s with tickTicker := (openTicker s.tickTicker answer).2 }

theorem connectOrderTicker_eq (answer : TickerAnswer) :
    connectOrderTicker answer s
      = ((openTicker s.orderTicker answer).1, s.heard answer) := rfl

theorem startMarketData_eq (answer : TickerAnswer) :
    startMarketData answer s
      = ((openTicker s.tickTicker answer).1, s.watching answer) := rfl

/-- The `try` around the order updates. -/
theorem orderStep_ok {answer : TickerAnswer} (h : answer.survived = true) :
    Step.tryCatch (connectOrderTicker answer) unlessBroker s
      = (.ok (), s.heard answer) := by
  cases hended : (openTicker s.orderTicker answer).1 with
  | ok _ => rw [Step.tryCatch_ok (by rw [connectOrderTicker_eq, hended])]
  | error e =>
      obtain ⟨text, rfl⟩ := TickerAnswer.broker_of_survived h hended
      rw [Step.tryCatch_error (by rw [connectOrderTicker_eq, hended])]
      rfl

theorem orderStep_error {answer : TickerAnswer} (hclosed : s.orderTicker = false)
    (h : answer.survived = false) :
    ∃ e, Step.tryCatch (connectOrderTicker answer) unlessBroker s
      = (.error e, s.heard answer) := by
  obtain ⟨e, hended, hother⟩ := TickerAnswer.raises_of_not_survived h
  refine ⟨e, ?_⟩
  rw [Step.tryCatch_error (by rw [connectOrderTicker_eq, hclosed, hended])]
  cases e with
  | broker text => exact absurd rfl (hother text)
  | _ => rfl

theorem orderStep_state (answer : TickerAnswer) (s : Container) :
    (Step.tryCatch (connectOrderTicker answer) unlessBroker s).2
      = s.heard answer := by
  cases hended : (openTicker s.orderTicker answer).1 with
  | ok _ => rw [Step.tryCatch_ok (by rw [connectOrderTicker_eq, hended])]
  | error e =>
      rw [Step.tryCatch_error (by rw [connectOrderTicker_eq, hended])]
      cases e with
      | _ => rfl

theorem schedule_taken {answer : RegisterAnswer}
    (h : r.identity ∈ s.schedules.keys) :
    schedule r answer s = (.error (.alreadyRegistered r.identity), s) := by
  obtain ⟨r', hr'⟩ := Dict.mem_keys.1 h
  unfold schedule
  rw [Step.bind_ok (Step.get_apply s), if_pos (by rw [hr']; rfl)]
  rfl

theorem startRunner_created (hcreated : s.status r.number = .created)
    (raises : Bool) :
    startRunner r raises s
      = (.ok (), s.setStatus r (.afterRecover raises)) := by
  unfold startRunner
  rw [Step.bind_ok (Step.get_apply s), if_pos hcreated]
  rfl

section NewRunner

variable {answer : RegisterAnswer} (h : r.identity ∉ s.schedules.keys)
  (hcreated : s.status r.number = .created)

include h hcreated

/-- A runner that is new to the scheduler starts, and is scheduled if its
triggers can be read. -/
theorem schedule_ok (htriggers : answer.triggers = .ok ()) :
    schedule r answer s
      = (.ok (), { s.setStatus r (.afterRecover answer.recoverRaises) with
          schedules := s.schedules.put r.identity r }) := by
  unfold schedule
  rw [Step.bind_ok (Step.get_apply s),
    if_neg (by rw [Dict.get_eq_none_iff.2 h]; exact Bool.false_ne_true),
    Step.bind_ok (startRunner_created hcreated _), htriggers]
  rfl

theorem schedule_error {e : LifecycleExc} (htriggers : answer.triggers = .error e) :
    schedule r answer s
      = (.error e, s.setStatus r (.afterRecover answer.recoverRaises)) := by
  unfold schedule
  rw [Step.bind_ok (Step.get_apply s),
    if_neg (by rw [Dict.get_eq_none_iff.2 h]; exact Bool.false_ne_true),
    Step.bind_ok (startRunner_created hcreated _), htriggers]
  rfl

end NewRunner

/-- What a registration with the scheduler may do. -/
theorem schedule_cases (r : BuiltRunner) (answer : RegisterAnswer)
    (s : Container) :
    (∃ e, schedule r answer s = (.error e, s))
      ∨ r.identity ∉ s.schedules.keys ∧ s.status r.number = .created
        ∧ ((∃ e, schedule r answer s
            = (.error e, s.setStatus r (.afterRecover answer.recoverRaises)))
          ∨ schedule r answer s
            = (.ok (), { s.setStatus r (.afterRecover answer.recoverRaises) with
                schedules := s.schedules.put r.identity r })) := by
  by_cases htaken : r.identity ∈ s.schedules.keys
  · exact .inl ⟨_, schedule_taken htaken⟩
  by_cases hcreated : s.status r.number = .created
  case neg =>
    refine .inl ⟨.notCreated r.identity (s.status r.number), ?_⟩
    unfold schedule startRunner
    rw [Step.bind_ok (Step.get_apply s),
      if_neg (by rw [Dict.get_eq_none_iff.2 htaken]; exact Bool.false_ne_true)]
    refine Step.bind_error ?_
    rw [Step.bind_ok (Step.get_apply s), if_neg hcreated]
    rfl
  refine .inr ⟨htaken, hcreated, ?_⟩
  cases htriggers : answer.triggers with
  | error e => exact .inl ⟨e, schedule_error htaken hcreated htriggers⟩
  | ok _ => exact .inr (schedule_ok htaken hcreated htriggers)

-- ==================================================== the registrations

theorem afterRecover_live (raises : Bool) :
    RunnerStatus.afterRecover raises = .running
      ∨ RunnerStatus.afterRecover raises = .frozen := by
  cases raises with
  | true => exact .inr rfl
  | false => exact .inl rfl

/-- All of `rs` were registered. -/
structure Registered (s : Container) (rs : List BuiltRunner) (s' : Container) :
    Prop where
  same : s' = { s with status := s'.status
                       schedules := s.schedules ++ rs.map fun r => (r.identity, r)
                       monitored := s.monitored ++ rs.map fun r => (r.identity, r)
                       consumers := s.consumers ++ rs }
  live : ∀ r ∈ rs,
    s'.status r.number = .running ∨ s'.status r.number = .frozen
  others : ∀ k, k ∉ rs.map BuiltRunner.number → s'.status k = s.status k

/-- Nothing stands in the way of registering `rs`. -/
def Fits (a : StartAnswers) (s : Container) (rs : List BuiltRunner) : Prop :=
  (rs.map BuiltRunner.identity).Nodup
    ∧ (∀ r ∈ rs, r.identity ∉ s.schedules.keys)
    ∧ ∀ r ∈ rs, (a.register r).triggers = .ok ()

theorem fits_cons {rs : List BuiltRunner} {t : Container}
    (hkeys : t.schedules.keys = s.schedules.keys ++ [r.identity]) :
    Fits a s (r :: rs)
      ↔ r.identity ∉ s.schedules.keys ∧ (a.register r).triggers = .ok ()
        ∧ Fits a t rs := by
  unfold Fits
  rw [hkeys, List.map_cons, List.nodup_cons, List.forall_mem_cons,
    List.forall_mem_cons]
  constructor
  · rintro ⟨⟨hnew, hnodup⟩, ⟨hr, hrs⟩, htr, htrs⟩
    refine ⟨hr, htr, hnodup, fun r' hr' hmem => ?_, htrs⟩
    rcases List.mem_append.1 hmem with hmem | hmem
    · exact hrs r' hr' hmem
    · exact hnew (List.mem_singleton.1 hmem ▸ List.mem_map_of_mem hr')
  · rintro ⟨hr, htr, hnodup, hrs, htrs⟩
    refine ⟨⟨fun hmem => ?_, hnodup⟩,
      ⟨hr, fun r' hr' hmem => hrs r' hr' (List.mem_append_left _ hmem)⟩, htr, htrs⟩
    obtain ⟨r', hr', hid⟩ := List.mem_map.1 hmem
    exact hrs r' hr' (List.mem_append_right _ (hid ▸ List.mem_singleton_self _))

/-- Fresh runners are all registered, or the registration of one raises;
which of the two is known beforehand. -/
theorem registerAll_ends (a : StartAnswers) (rs : List BuiltRunner) :
    ∀ s : Container, (rs.map BuiltRunner.number).Nodup →
      (∀ r ∈ rs, s.status r.number = .created) →
      s.monitored.keys = s.schedules.keys →
      (Fits a s rs ∧ ∃ s', registerAll a rs s = (.ok (), s')
          ∧ Registered s rs s')
        ∨ ¬ Fits a s rs ∧ ∃ e s', registerAll a rs s = (.error e, s')
          ∧ s'.started = s.started ∧ s'.tickTicker = s.tickTicker := by
  induction rs with
  | nil =>
      intro s _ _ _
      refine .inl ⟨⟨List.nodup_nil, by simp, by simp⟩, s, rfl, ?_⟩
      exact ⟨by simp, by simp, fun _ _ => rfl⟩
  | cons r rs ih =>
      intro s hnumbers hcreated hkeys
      obtain ⟨hnumber, hnumbers⟩ := List.nodup_cons.1 hnumbers
      obtain ⟨hr, hrs⟩ := List.forall_mem_cons.1 hcreated
      by_cases htaken : r.identity ∈ s.schedules.keys
      · refine .inr ⟨fun hfits => hfits.2.1 r List.mem_cons_self htaken,
          _, s, Step.bind_error (schedule_taken htaken), rfl, rfl⟩
      cases htriggers : (a.register r).triggers with
      | error e =>
          refine .inr ⟨fun hfits => ?_, e, _,
            Step.bind_error (schedule_error htaken hr htriggers), rfl, rfl⟩
          have hok := hfits.2.2 r List.mem_cons_self
          rw [htriggers] at hok
          cases hok
      | ok _ =>
          -- the state in which the rest are registered
          obtain ⟨t, ht⟩ : ∃ t, t = (monitor { s.setStatus r
              (.afterRecover (a.register r).recoverRaises) with
              schedules := s.schedules.put r.identity r } r).consume r :=
            ⟨_, rfl⟩
          have hrun : registerAll a (r :: rs) s = registerAll a rs t := by
            rw [ht]
            exact Step.bind_ok (schedule_ok htaken hr htriggers)
          have hmonitored : r.identity ∉ s.monitored.keys := hkeys ▸ htaken
          have hsame : t = { s with
              status := Function.update s.status r.number
                (.afterRecover (a.register r).recoverRaises)
              schedules := s.schedules ++ [(r.identity, r)]
              monitored := s.monitored ++ [(r.identity, r)]
              consumers := s.consumers ++ [r] } := by
            rw [ht, Dict.put_of_new htaken]
            unfold monitor consume setStatus
            rw [Dict.put_of_new hmonitored]
          have hkept : ∀ k, k ≠ r.number → t.status k = s.status k := by
            intro k hk
            rw [hsame]
            exact Function.update_of_ne hk _ _
          have hfits : Fits a s (r :: rs) ↔ Fits a t rs := by
            rw [fits_cons (t := t) (by rw [hsame]; simp [Dict.keys])]
            exact ⟨fun h => h.2.2, fun h => ⟨htaken, htriggers, h⟩⟩
          rw [hrun, hfits]
          rcases ih t hnumbers (fun r' hr' => by
              rw [hkept _ fun h => hnumber (h ▸ List.mem_map_of_mem hr')]
              exact hrs r' hr') (by rw [hsame]; simp [Dict.keys] at hkeys ⊢; exact hkeys)
            with ⟨hfit, s', hended, hregistered⟩ | ⟨hmisfit, e, s', hended, hs', ht'⟩
          · refine .inl ⟨hfit, s', hended, ?_, ?_, ?_⟩
            · rw [hregistered.same, hsame]
              simp
            · refine List.forall_mem_cons.2 ⟨?_, hregistered.live⟩
              rw [hregistered.others _ hnumber, hsame]
              show Function.update _ _ _ _ = _ ∨ Function.update _ _ _ _ = _
              rw [Function.update_self]
              exact afterRecover_live _
            · intro k hk
              rw [List.map_cons, List.mem_cons, not_or] at hk
              rw [hregistered.others k hk.2, hkept k hk.1]
          · refine .inr ⟨hmisfit, e, s', hended, ?_, ?_⟩
            · rw [hs', hsame]
            · rw [ht', hsame]

-- ============================================================ one start

theorem runnersFrom_identities (first : Nat) :
    (config.runnersFrom first).map BuiltRunner.identity
      = config.instances.map config.identity := by
  unfold ContainerConfig.runnersFrom
  rw [List.map_map]
  conv_rhs => rw [← List.zipIdx_map_fst 0 config.instances, List.map_map]
  rfl

theorem runnersFrom_numbers (first : Nat) :
    (config.runnersFrom first).map BuiltRunner.number
      = (List.range' 0 config.instances.length).map (first + ·) := by
  unfold ContainerConfig.runnersFrom
  rw [List.map_map, ← List.zipIdx_map_snd 0 config.instances, List.map_map]
  rfl

theorem runnersFrom_nodup (first : Nat) :
    ((config.runnersFrom first).map BuiltRunner.number).Nodup := by
  rw [runnersFrom_numbers]
  exact (List.nodup_range' 1).map fun _ _ h => Nat.add_left_cancel h

theorem runnersFrom_number {first : Nat} (h : r ∈ config.runnersFrom first) :
    first ≤ r.number ∧ r.number < first + config.instances.length := by
  have hmem : r.number ∈ (config.runnersFrom first).map BuiltRunner.number :=
    List.mem_map_of_mem h
  rw [runnersFrom_numbers] at hmem
  obtain ⟨i, hi, hnumber⟩ := List.mem_map.1 hmem
  have hi := List.mem_range'_1.1 hi
  omega

theorem openTicker_down {answer : TickerAnswer}
    (h : (openTicker false answer).1 = .ok ()) : answer = .connects := by
  cases answer with
  | connects => rfl
  | factoryRaises e => cases h
  | connectRaises e => cases h

/-- What becomes of a start of a container that is down: it is up, or the
start raised, with a ticker left open or with nothing up. -/
def Settles (config : ContainerConfig) (built : Nat) (a : StartAnswers)
    (run : Except LifecycleExc Unit × Container) : Prop :=
  (a.Completes config built ∧ ∃ s', run = (.ok (), s') ∧ s'.Up config)
    ∨ ¬ a.Completes config built ∧ ∃ e s', run = (.error e, s')
      ∧ s'.started = false
      ∧ (a.Opens ∧ (s'.orderTicker = true ∨ s'.tickTicker = true)
        ∨ ¬ a.Opens ∧ s'.Down)

/-- What the steps before the registrations leave of a container that was
down. -/
structure Opened (a : StartAnswers) (s t : Container) : Prop where
  same : t = { s with orderCallbacks := t.orderCallbacks
                      orderTicker := a.orderTicker.opens
                      tickTicker := t.tickTicker }
  callbacks : 0 < t.orderCallbacks

theorem heard_opened (hdown : s.Down) :
    Opened a s (s.heard a.orderTicker) := by
  refine ⟨?_, Nat.succ_pos _⟩
  unfold heard
  rw [hdown.tickers.1, TickerAnswer.openTicker_closed]

theorem watching_opened (hdown : s.Down) :
    Opened a s ((s.heard a.orderTicker).watching a.tickTicker) := by
  refine ⟨?_, Nat.succ_pos _⟩
  unfold watching heard
  rw [hdown.tickers.1, TickerAnswer.openTicker_closed]

theorem watching_ticks (hdown : s.Down) :
    ((s.heard a.orderTicker).watching a.tickTicker).tickTicker
      = a.tickTicker.opens := by
  show (openTicker s.tickTicker _).2 = _
  rw [hdown.tickers.2, TickerAnswer.openTicker_closed]

/-- With no ticker opened, what was down is down. -/
theorem Opened.down {t : Container} (h : Opened a s t) (hdown : s.Down)
    (horders : a.orderTicker.opens = false) (hticks : t.tickTicker = false) :
    t.Down := by
  rw [h.same]
  exact ⟨hdown.started, hdown.loops, ⟨horders, hticks⟩, hdown.scheduled,
    hdown.monitored, hdown.idle⟩

theorem Opened.started {t : Container} (h : Opened a s t) (hdown : s.Down) :
    t.started = false := by
  rw [h.same]
  exact hdown.started

theorem built_down (hdown : s.Down) : (s.buildRunners config).Down :=
  ⟨hdown.started, hdown.loops, hdown.tickers, hdown.scheduled,
    hdown.monitored, hdown.idle⟩

section Connect

variable (hdown : s.Down) (hprepares : a.Prepares)

include hdown hprepares

/-- The order updates end the start. -/
theorem unheard_settles (hsurvived : a.orderTicker.survived = false) :
    Settles config built a (connect a s) := by
  obtain ⟨e, hended⟩ := orderStep_error hdown.tickers.1 hsurvived
  have hopened := heard_opened (a := a) hdown
  refine .inr ⟨fun h => ?_, e, _, Step.bind_error hended,
    hopened.started hdown, ?_⟩
  · rw [h.orders] at hsurvived
    cases hsurvived
  cases hopens : a.orderTicker.opens with
  | true =>
      refine .inl ⟨⟨hprepares, .inl hopens⟩, .inl ?_⟩
      rw [hopened.same]
      exact hopens
  | false =>
      refine .inr ⟨fun h => ?_, hopened.down hdown hopens hdown.tickers.2⟩
      rcases h.2 with h | h
      · rw [hopens] at h
        cases h
      · rw [hsurvived] at h
        cases h.1

/-- The market data ends the start. -/
theorem unwatched_settles (hsurvived : a.orderTicker.survived = true)
    {e : LifecycleExc} (hended : (openTicker false a.tickTicker).1 = .error e) :
    Settles config built a (connect a s) := by
  have hopened := watching_opened (a := a) hdown
  have hstarted : startMarketData a.tickTicker (s.heard a.orderTicker)
      = (.error e, (s.heard a.orderTicker).watching a.tickTicker) := by
    rw [startMarketData_eq, ← hended, ← hdown.tickers.2]
    rfl
  unfold connect
  rw [Step.bind_ok (orderStep_ok hsurvived), Step.bind_error hstarted]
  refine .inr ⟨fun h => ?_, e, _, rfl, hopened.started hdown, ?_⟩
  · rw [h.ticks] at hended
    cases hended
  cases hopens : a.tickTicker.opens with
  | true => exact .inl ⟨⟨hprepares, .inr ⟨hsurvived, hopens⟩⟩,
      .inr ((watching_ticks hdown).trans hopens)⟩
  | false =>
      cases horders : a.orderTicker.opens with
      | true =>
          refine .inl ⟨⟨hprepares, .inl horders⟩, .inl ?_⟩
          rw [hopened.same]
          exact horders
      | false =>
          refine .inr ⟨fun h => ?_,
            hopened.down hdown horders ((watching_ticks hdown).trans hopens)⟩
          rcases h.2 with h | h
          · rw [horders] at h
            cases h
          · rw [hopens] at h
            cases h.2

end Connect

/-- With every runner registered and both loops running, the container is
up. -/
theorem Registered.up {t : Container} (h : Registered t t.runners s')
    (hopened : Opened a s t) (hdown : s.Down) (hticks : t.tickTicker = true)
    (hdeclared : t.runners.map BuiltRunner.identity
      = config.instances.map config.identity) :
    ({ s' with schedulerLoop := true, monitorLoop := true, started := true }
      : Container).Up config := by
  have hrunners : s'.runners = t.runners := by rw [h.same]
  refine ⟨rfl, ⟨rfl, rfl⟩, ?_, fun _ => ?_, ?_, ?_, ?_, fun r hr => ?_,
    fun r hr => h.live r (hrunners ▸ hr), fun k hk => ?_⟩
  · show s'.tickTicker = true
    rw [h.same]
    exact hticks
  · show 0 < s'.orderCallbacks
    rw [h.same]
    exact hopened.callbacks
  · show s'.runners.map _ = _
    rw [hrunners]
    exact hdeclared
  · show s'.schedules = s'.runners.map _
    rw [hrunners, h.same, hopened.same, hdown.scheduled]
    rfl
  · show s'.monitored = s'.runners.map _
    rw [hrunners, h.same, hopened.same, hdown.monitored]
    rfl
  · show r ∈ s'.consumers
    rw [h.same]
    exact List.mem_append_right _ (hrunners ▸ hr)
  · show ∃ r ∈ s'.runners, r.number = k
    rw [hrunners]
    by_contra hnone
    refine hdown.idle k ?_
    have hother : k ∉ t.runners.map BuiltRunner.number := fun hmem =>
      hnone (List.mem_map.1 hmem)
    have hstatus : t.status = s.status := by rw [hopened.same]
    rw [← hstatus, ← h.others k hother]
    exact hk

/-- Once both sockets are dealt with, the registrations decide. -/
theorem registers_settles (hdown : s.Down)
    (hrunners : s.runners = config.runnersFrom built)
    (hfresh : ∀ r ∈ config.runnersFrom built, s.status r.number = .created)
    (hprepares : a.Prepares) (hsurvived : a.orderTicker.survived = true)
    (hconnects : a.tickTicker = .connects) :
    Settles config built a (connect a s) := by
  obtain ⟨t, ht⟩ : ∃ t, t = (s.heard a.orderTicker).watching a.tickTicker :=
    ⟨_, rfl⟩
  have hopened : Opened a s t := ht ▸ watching_opened hdown
  have hticks : t.tickTicker = true := by
    rw [ht, watching_ticks hdown, hconnects]
    rfl
  have hstarted : startMarketData a.tickTicker (s.heard a.orderTicker)
      = (.ok (), t) := by
    rw [startMarketData_eq, ← ht, hconnects]
    rfl
  have ht_runners : t.runners = config.runnersFrom built := by
    rw [hopened.same]
    exact hrunners
  have hschedules : t.schedules = [] := by
    rw [hopened.same]
    exact hdown.scheduled
  have hmonitored : t.monitored = [] := by
    rw [hopened.same]
    exact hdown.monitored
  have hfits : Fits a t t.runners ↔ a.Completes config built := by
    unfold Fits
    rw [ht_runners, runnersFrom_identities, hschedules]
    exact ⟨fun h => ⟨hprepares, hsurvived, hconnects, h.2.2, h.1⟩,
      fun h => ⟨h.distinct, fun _ _ => List.not_mem_nil, h.triggers⟩⟩
  unfold connect
  rw [Step.bind_ok (orderStep_ok hsurvived), Step.bind_ok hstarted,
    Step.bind_ok (Step.get_apply t)]
  rcases registerAll_ends a t.runners t (ht_runners ▸ runnersFrom_nodup _)
      (fun r hr => by
        rw [hopened.same]
        exact hfresh r (ht_runners ▸ hr))
      (by rw [hschedules, hmonitored])
    with ⟨hfit, s', hended, hs'⟩ | ⟨hmisfit, e, s', hended, hs', ht'⟩
  · exact .inl ⟨hfits.1 hfit, _, Step.bind_ok hended, hs'.up hopened hdown hticks
      (by rw [ht_runners, runnersFrom_identities])⟩
  · exact .inr ⟨fun h => hmisfit (hfits.2 h), e, s', Step.bind_error hended,
      hs'.trans (hopened.started hdown), .inl ⟨⟨hprepares, .inr ⟨hsurvived, by
        rw [hconnects]; rfl⟩⟩, .inr (ht'.trans hticks)⟩⟩

/-- A start of a container that is down brings it up, or raises; and if it
raises, a ticker is left open or nothing is up. -/
theorem start_settles (hdown : s.Down)
    (hfresh : ∀ k, s.built ≤ k → s.status k = .created) (a : StartAnswers) :
    Settles config s.built a (start config a s) := by
  have hrun : start config a s = (prepare config a >>= fun _ => connect a) s := by
    unfold start
    rw [Step.bind_ok (Step.get_apply s), hdown.started]
    rfl
  rw [hrun]
  by_cases hprepares : a.Prepares
  case neg =>
    obtain ⟨e, s', hended, hs'⟩ := @prepare_error config a hprepares s
    have hdown' : s'.Down := by
      rcases hs' with rfl | rfl
      · exact hdown
      · exact built_down hdown
    exact .inr ⟨fun h => hprepares h.prepares, e, s', Step.bind_error hended,
      hdown'.started, .inr ⟨fun h => hprepares h.1, hdown'⟩⟩
  rw [Step.bind_ok (prepare_ok hprepares s)]
  have hdown' : (s.buildRunners config).Down := built_down hdown
  cases hsurvived : a.orderTicker.survived with
  | false => exact unheard_settles hdown' hprepares hsurvived
  | true =>
      cases hended : (openTicker false a.tickTicker).1 with
      | error e => exact unwatched_settles hdown' hprepares hsurvived hended
      | ok _ =>
          exact registers_settles hdown' rfl
            (fun r hr => hfresh _ (runnersFrom_number hr).1) hprepares
            hsurvived (openTicker_down hended)

-- ============================================================= one stop

theorem isolated_eq (letGo : Container → Container)
    (ending : Except LifecycleExc Unit) :
    isolated letGo ending s = (.ok (), letGo s) := by
  have hlet : (do
      Step.modify letGo
      Step.lift ending : Act Unit) s = (ending, letGo s) :=
    Step.bind_ok (Step.modify_apply letGo s)
  unfold isolated
  cases ending with
  | ok _ => rw [Step.tryCatch_ok hlet]
  | error e =>
      rw [Step.tryCatch_error hlet]
      rfl

/-- Whichever of its steps raise, a stop takes all of them. -/
def takenDown (s : Container) : Container :=
  { s.stopMonitoring.stopScheduler with
    tickTicker := false, orderTicker := false, started := false }

theorem stop_eq (b : StopAnswers) :
    stop b s = (.ok (), if s.started then s.takenDown else s) := by
  unfold stop
  rw [Step.bind_ok (Step.get_apply s)]
  split
  · rw [Step.bind_ok (isolated_eq _ _), Step.bind_ok (isolated_eq _ _),
      Step.bind_ok (isolated_eq _ _), Step.bind_ok (isolated_eq _ _),
      Step.bind_ok (isolated_eq _ _)]
    rfl
  · rfl

theorem afterStop_ne_running (status : RunnerStatus) :
    status.afterStop ≠ .running := by
  cases status with
  | _ => exact RunnerStatus.noConfusion

theorem afterStop_ne_created (status : RunnerStatus) :
    status.afterStop ≠ .created := by
  cases status with
  | _ => exact RunnerStatus.noConfusion

/-- Stopping runners changes their statuses. -/
theorem stopRunners_eq (rs : List BuiltRunner) (s : Container) :
    rs.foldl stopRunner s
      = { s with status := (rs.foldl stopRunner s).status } := by
  induction rs generalizing s with
  | nil => rfl
  | cons r rs ih =>
      rw [List.foldl_cons, ih]
      rfl

theorem stopRunners_status (rs : List BuiltRunner) (s : Container) (k : Nat) :
    (rs.foldl stopRunner s).status k
      = if k ∈ rs.map BuiltRunner.number then (s.status k).afterStop
        else s.status k := by
  induction rs generalizing s with
  | nil => rfl
  | cons r rs ih =>
      have hone : (s.stopRunner r).status k
          = if k = r.number then (s.status k).afterStop else s.status k := by
        show Function.update _ _ _ _ = _
        split
        case isTrue hk => rw [hk, Function.update_self]
        case isFalse hk => rw [Function.update_of_ne hk]
      have htwice : (s.status k).afterStop.afterStop = (s.status k).afterStop := by
        cases s.status k with
        | _ => rfl
      rw [List.foldl_cons, ih, hone]
      by_cases hk : k = r.number
      · simp [hk, hk ▸ htwice]
      · simp [hk]

theorem takenDown_status (k : Nat) :
    s.takenDown.status k
      = if k ∈ (s.schedules.map Prod.snd).map BuiltRunner.number then
          (s.status k).afterStop
        else s.status k :=
  stopRunners_status _ _ k

theorem takenDown_same : s.takenDown = { s with
    status := s.takenDown.status, schedules := [], schedulerLoop := false,
    monitored := [], monitorLoop := false, tickTicker := false,
    orderTicker := false, started := false } := by
  unfold takenDown stopScheduler
  rw [stopRunners_eq]
  rfl

theorem Up.takenDown (h : s.Up config) : s.takenDown.Down := by
  have hsame := s.takenDown_same
  refine ⟨by rw [hsame], by rw [hsame]; exact ⟨rfl, rfl⟩,
    by rw [hsame]; exact ⟨rfl, rfl⟩, by rw [hsame], by rw [hsame],
    fun k hk => ?_⟩
  rw [takenDown_status] at hk
  split at hk
  case isTrue => exact afterStop_ne_running _ hk
  case isFalse hother =>
      obtain ⟨r, hr, hnumber⟩ := h.others k hk
      refine hother (List.mem_map.2 ⟨r, ?_, hnumber⟩)
      rw [h.scheduled, List.map_map]
      exact List.mem_map.2 ⟨r, hr, rfl⟩

-- ========================================================= one dispatch

theorem dispatch_status (raises : Bool) (k : Nat) :
    (s.dispatch r raises).status k = s.status k
      ∨ s.status k = .running ∧ ((s.dispatch r raises).status k = .running
        ∨ (s.dispatch r raises).status k = .frozen) := by
  show Function.update _ _ _ _ = _ ∨ _ ∧ (Function.update _ _ _ _ = _
    ∨ Function.update _ _ _ _ = _)
  by_cases hk : k = r.number
  · rw [hk, Function.update_self]
    cases hstatus : s.status r.number with
    | running => exact .inr ⟨rfl, (afterRecover_live raises)⟩
    | _ => exact .inl rfl
  · rw [Function.update_of_ne hk]
    exact .inl rfl

theorem dispatch_running {raises : Bool} {k : Nat}
    (h : (s.dispatch r raises).status k = .running) : s.status k = .running := by
  rcases dispatch_status (s := s) (r := r) raises k with hsame | ⟨hrunning, -⟩
  · exact hsame ▸ h
  · exact hrunning

theorem Up.dispatch (h : s.Up config) (raises : Bool) :
    (s.dispatch r raises).Up config :=
  { h with
    live := fun r' hr' => by
      rcases dispatch_status (s := s) (r := r) raises r'.number with
        hsame | ⟨-, hlive⟩
      · rw [hsame]
        exact h.live r' hr'
      · exact hlive
    others := fun k hk => h.others k (dispatch_running hk) }

theorem Down.dispatch (h : s.Down) (raises : Bool) :
    (s.dispatch r raises).Down :=
  { h with idle := fun k hk => h.idle k (dispatch_running hk) }

end Container

-- ===================================================== the application

namespace Application

open Container

variable {config : ContainerConfig} {s : Container} {a : StartAnswers}
  {expected : Option BrokerName}

theorem start_refused {e : LifecycleExc} (b : StopAnswers)
    (h : verifyBroker config expected = .error e) :
    start config expected a b s = (.error e, s) := by
  unfold start
  rw [h]
  rfl

theorem start_ok {s' : Container} (b : StopAnswers)
    (hverified : verifyBroker config expected = .ok ())
    (h : Container.start config a s = (.ok (), s')) :
    start config expected a b s = (.ok (), s') := by
  unfold start
  rw [hverified, Step.bind_ok (Step.lift_apply _ s), Step.tryCatch_ok h]

/-- The stop that answers a failed start finds it not started, and does
nothing. -/
theorem start_error {s' : Container} {e : LifecycleExc} (b : StopAnswers)
    (hverified : verifyBroker config expected = .ok ())
    (h : Container.start config a s = (.error e, s'))
    (hstarted : s'.started = false) :
    start config expected a b s = (.error e, s') := by
  have hstopped : stop b s' = (.ok (), s') := by
    rw [stop_eq, hstarted]
    rfl
  unfold start
  rw [hverified, Step.bind_ok (Step.lift_apply _ s), Step.tryCatch_error h,
    Step.bind_ok hstopped]
  rfl

theorem start_started (b : StopAnswers) (hstarted : s.started = true) :
    (start config expected a b s).2 = s := by
  cases hverified : verifyBroker config expected with
  | error e => rw [start_refused b hverified]
  | ok _ =>
      have hagain : Container.start config a s = (.ok (), s) := by
        unfold Container.start
        rw [Step.bind_ok (Step.get_apply s), if_pos hstarted]
        rfl
      rw [start_ok b hverified hagain]

end Application

end AlgoPlatform
