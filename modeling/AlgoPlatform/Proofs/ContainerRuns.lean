/-
The platform over whole lives of its process.

# Wholly up or wholly down

A start that fails is stopped by the application; but `stop` returns at
once unless the start had completed, so what the start had opened stays
open. A process is wholly up or wholly down at every moment if and only if
no start of it fails once a ticker is open (`up_or_down_iff`).

# No way back

A failed start that had registered a runner leaves it registered. From
then on every start of the process raises, at the latest when it comes to
that runner again, and no stop does anything (`failed_start_is_final`).

# One runner for an instance

Whatever fails, of the runners with one identity that a thread can still
reach at most one is running (`one_runner_per_instance`): `Orderly` says
that a reachable running runner is the one scheduled under its identity.
-/
import Mathlib.Data.List.Induction
import AlgoPlatform.Proofs.Container

open Basis

namespace AlgoPlatform

-- =============================================== statement vocabulary

/-- The identity of the first declared instance. -/
def ContainerConfig.first (config : ContainerConfig) : String :=
  config.identity (config.instances.head config.instances_ne)

/-- A start that opens a ticker completes. -/
def ProcessEvent.Clean (config : ContainerConfig) (s : Container) :
    ProcessEvent → Prop
  | .start expected a _ => Application.verifyBroker config expected = .ok () →
      s.started = false → a.Opens → a.Completes config s.built
  | .stop _ => True
  | .dispatch .. => True

namespace Container

/-- A thread of the scheduler, of the heartbeat or of the market data has
hold of the runner. -/
def Reaches (s : Container) (r : BuiltRunner) : Prop :=
  (∃ key, s.schedules.get key = some r)
    ∨ (∃ key, s.monitored.get key = some r) ∨ r ∈ s.consumers

variable {config : ContainerConfig} {s s' : Container} {a : StartAnswers}
  {r : BuiltRunner}

-- =============================================================== order

/-- Which runners there are, and which of them a thread can reach. -/
structure Orderly (s : Container) : Prop where
  keys : s.schedules.keys.Nodup
  fresh : ∀ k, s.built ≤ k → s.status k = .created
  reached : ∀ r, s.Reaches r → s.status r.number ≠ .created
  own : ∀ r, s.Reaches r → s.status r.number = .running →
    s.schedules.get r.identity = some r
  keyed : ∀ key r, s.schedules.get key = some r → r.identity = key
  live : ∀ key r, s.schedules.get key = some r →
    s.status r.number = .running ∨ s.status r.number = .frozen

theorem orderly_empty : Orderly {} := by
  refine ⟨List.nodup_nil, fun _ _ => rfl, fun r hr => ?_, fun r hr => ?_,
    fun _ _ h => ?_, fun _ _ h => ?_⟩
  · rcases hr with ⟨_, h⟩ | ⟨_, h⟩ | h
    · cases h
    · cases h
    · cases h
  · rcases hr with ⟨_, h⟩ | ⟨_, h⟩ | h
    · cases h
    · cases h
    · cases h
  · cases h
  · cases h

/-- What does not touch the runners keeps their order. -/
theorem Orderly.congr (h : s.Orderly)
    (hsame : s' = { s with started := s'.started, runners := s'.runners
                           schedulerLoop := s'.schedulerLoop
                           monitorLoop := s'.monitorLoop
                           orderCallbacks := s'.orderCallbacks
                           orderTicker := s'.orderTicker
                           tickTicker := s'.tickTicker }) : s'.Orderly := by
  rw [hsame]
  exact ⟨h.keys, h.fresh, h.reached, h.own, h.keyed, h.live⟩

theorem Orderly.built (h : s.Orderly) : (s.buildRunners config).Orderly :=
  ⟨h.keys, fun k hk => h.fresh k (Nat.le_trans (Nat.le_add_right _ _) hk),
    h.reached, h.own, h.keyed, h.live⟩

/-- A fresh runner starts; no thread can reach it yet. -/
theorem Orderly.start (h : s.Orderly) (hnumber : r.number < s.built)
    (hcreated : s.status r.number = .created) {status : RunnerStatus} :
    (s.setStatus r status).Orderly := by
  have hother : ∀ r', s.Reaches r' →
      (s.setStatus r status).status r'.number = s.status r'.number := by
    intro r' hr'
    refine Function.update_of_ne (fun hsame => h.reached r' hr' ?_) _ _
    rw [hsame]
    exact hcreated
  refine ⟨h.keys, fun k hk => ?_, fun r' hr' => ?_,
    fun r' hr' hrunning => ?_, h.keyed, fun key r' hr' => ?_⟩
  · have hk : s.built ≤ k := hk
    show Function.update _ _ _ _ = _
    rw [Function.update_of_ne (by omega)]
    exact h.fresh k hk
  · rw [hother r' hr']
    exact h.reached r' hr'
  · rw [hother r' hr'] at hrunning
    exact h.own r' hr' hrunning
  · rw [hother r' (.inl ⟨key, hr'⟩)]
    exact h.live key r' hr'

/-- A started runner takes its identity's place with the scheduler. -/
theorem Orderly.put (h : s.Orderly) (hnew : r.identity ∉ s.schedules.keys)
    (hlive : s.status r.number = .running ∨ s.status r.number = .frozen) :
    Orderly { s with schedules := s.schedules.put r.identity r } := by
  have hold : ∀ r', Reaches { s with
      schedules := s.schedules.put r.identity r } r' → r' = r ∨ s.Reaches r' := by
    rintro r' (⟨key, hkey⟩ | hrest)
    · have hkey : (s.schedules.put r.identity r).get key = some r' := hkey
      rw [Dict.get_put] at hkey
      split at hkey
      · exact .inl (Option.some.inj hkey).symm
      · exact .inr (.inl ⟨key, hkey⟩)
    · exact .inr (.inr hrest)
  refine ⟨Dict.nodup_keys_put h.keys _ _, h.fresh, fun r' hr' => ?_,
    fun r' hr' hrunning => ?_, fun key r' hkey => ?_, fun key r' hkey => ?_⟩
  · rcases hold r' hr' with rfl | hr'
    · intro hcreated
      have hcreated : s.status r'.number = .created := hcreated
      rw [hcreated] at hlive
      rcases hlive with h | h
      · cases h
      · cases h
    · exact h.reached r' hr'
  · show (s.schedules.put r.identity r).get r'.identity = some r'
    rw [Dict.get_put]
    rcases hold r' hr' with rfl | hr'
    · rw [if_pos rfl]
    · have hown := h.own r' hr' hrunning
      rw [if_neg, hown]
      intro hid
      rw [hid, Dict.get_eq_none_iff.2 hnew] at hown
      cases hown
  · have hkey : (s.schedules.put r.identity r).get key = some r' := hkey
    rw [Dict.get_put] at hkey
    split at hkey
    case isTrue hk => rw [← Option.some.inj hkey, hk]
    case isFalse => exact h.keyed key r' hkey
  · have hkey : (s.schedules.put r.identity r).get key = some r' := hkey
    rw [Dict.get_put] at hkey
    split at hkey
    case isTrue => rw [← Option.some.inj hkey]; exact hlive
    case isFalse => exact h.live key r' hkey

/-- One registration: what it keeps, and what it makes. -/
theorem schedule_orderly (h : s.Orderly) (hnumber : r.number < s.built)
    (answer : RegisterAnswer) :
    (∃ s', schedule r answer s = (.ok (), s') ∧ s'.Orderly
        ∧ s'.built = s.built ∧ s'.schedules.get r.identity = some r)
      ∨ ∃ e s', schedule r answer s = (.error e, s') ∧ s'.Orderly := by
  rcases schedule_cases r answer s with
    ⟨e, hended⟩ | ⟨hnew, hcreated, ⟨e, hended⟩ | hended⟩
  · exact .inr ⟨e, s, hended, h⟩
  · exact .inr ⟨e, _, hended, h.start hnumber hcreated⟩
  have hlive : (s.setStatus r
      (.afterRecover answer.recoverRaises)).status r.number = .running
      ∨ (s.setStatus r
      (.afterRecover answer.recoverRaises)).status r.number = .frozen := by
    show Function.update _ _ _ _ = _ ∨ Function.update _ _ _ _ = _
    rw [Function.update_self]
    exact afterRecover_live _
  refine .inl ⟨_, hended, (h.start hnumber hcreated).put hnew hlive, rfl, ?_⟩
  show (s.schedules.put r.identity r).get r.identity = some r
  rw [Dict.get_put, if_pos rfl]

/-- The heartbeat and the market data get hold of a scheduled runner. -/
theorem Orderly.reachable (h : s.Orderly)
    (hscheduled : s.schedules.get r.identity = some r) :
    ((s.monitor r).consume r).Orderly := by
  have hold : ∀ r', Reaches ((s.monitor r).consume r) r' → s.Reaches r' := by
    rintro r' (hkey | ⟨key, hkey⟩ | hmem)
    · exact .inl hkey
    · have hkey : (s.monitored.put r.identity r).get key = some r' := hkey
      rw [Dict.get_put] at hkey
      split at hkey
      · exact .inl ⟨r.identity, Option.some.inj hkey ▸ hscheduled⟩
      · exact .inr (.inl ⟨key, hkey⟩)
    · have hmem : r' ∈ s.consumers ++ [r] := hmem
      rcases List.mem_append.1 hmem with hmem | hmem
      · exact .inr (.inr hmem)
      · exact .inl ⟨r.identity, List.mem_singleton.1 hmem ▸ hscheduled⟩
  exact ⟨h.keys, h.fresh, fun r' hr' => h.reached r' (hold r' hr'),
    fun r' hr' => h.own r' (hold r' hr'), h.keyed, h.live⟩

theorem registerAll_orderly (a : StartAnswers) (rs : List BuiltRunner) :
    ∀ s : Container, s.Orderly → (∀ r ∈ rs, r.number < s.built) →
      (registerAll a rs s).2.Orderly := by
  induction rs with
  | nil => exact fun s h _ => h
  | cons r rs ih =>
      intro s h hnumbers
      obtain ⟨hr, hrs⟩ := List.forall_mem_cons.1 hnumbers
      rcases schedule_orderly h hr (a.register r) with
        ⟨t, hended, ht, hbuilt, hscheduled⟩ | ⟨e, t, hended, ht⟩
      · unfold registerAll
        rw [Step.bind_ok hended]
        exact ih _ (ht.reachable hscheduled) fun r' hr' => by
          show r'.number < t.built
          rw [hbuilt]
          exact hrs r' hr'
      · unfold registerAll
        rw [Step.bind_error hended]
        exact ht

/-- How the second half of a start may end. -/
theorem connect_cases (a : StartAnswers) (s : Container) :
    ∃ w, w = (s.heard a.orderTicker).watching a.tickTicker
      ∧ ((∃ e, connect a s = (.error e, s.heard a.orderTicker))
        ∨ (∃ e, connect a s = (.error e, w))
        ∨ w.tickTicker = true
          ∧ ((∃ e s', registerAll a s.runners w = (.error e, s')
            ∧ connect a s = (.error e, s'))
          ∨ ∃ s', registerAll a s.runners w = (.ok (), s')
            ∧ connect a s = (.ok (), { s' with
              schedulerLoop := true, monitorLoop := true, started := true }))) := by
  refine ⟨_, rfl, ?_⟩
  unfold connect
  rcases hfirst : Step.tryCatch (connectOrderTicker a.orderTicker)
    unlessBroker s with ⟨ended, t⟩
  obtain rfl : t = s.heard a.orderTicker := by rw [← orderStep_state, hfirst]
  cases ended with
  | error e => exact .inl ⟨e, Step.bind_error hfirst⟩
  | ok _ =>
      refine .inr ?_
      rw [Step.bind_ok hfirst]
      rcases hsecond : startMarketData a.tickTicker (s.heard a.orderTicker)
        with ⟨ended, t⟩
      obtain rfl : (s.heard a.orderTicker).watching a.tickTicker = t :=
        congrArg Prod.snd hsecond
      cases ended with
      | error e => exact .inl ⟨e, Step.bind_error hsecond⟩
      | ok _ =>
          refine .inr ⟨TickerAnswer.openTicker_ok (congrArg Prod.fst hsecond), ?_⟩
          rw [Step.bind_ok hsecond, Step.bind_ok (Step.get_apply _)]
          rcases hthird : registerAll a s.runners
            ((s.heard a.orderTicker).watching a.tickTicker) with ⟨ended, t⟩
          cases ended with
          | error e => exact .inl ⟨e, t, rfl, Step.bind_error hthird⟩
          | ok _ => exact .inr ⟨t, rfl, Step.bind_ok hthird⟩

/-- How a start may end. -/
theorem start_cases (config : ContainerConfig) (a : StartAnswers)
    (s : Container) :
    s.started = true ∧ start config a s = (.ok (), s)
      ∨ s.started = false
        ∧ ((∃ e, start config a s = (.error e, s))
          ∨ (∃ e, start config a s = (.error e, s.buildRunners config))
          ∨ start config a s = connect a (s.buildRunners config)) := by
  unfold start
  rw [Step.bind_ok (Step.get_apply s)]
  cases hstarted : s.started with
  | true => exact .inl ⟨rfl, rfl⟩
  | false =>
      refine .inr ⟨rfl, ?_⟩
      by_cases hprepares : a.Prepares
      · exact .inr (.inr (Step.bind_ok (prepare_ok hprepares s)))
      · obtain ⟨e, s', hended, hs' | hs'⟩ :=
          @prepare_error config a hprepares s
        · exact .inl ⟨e, Step.bind_error (hs' ▸ hended)⟩
        · exact .inr (.inl ⟨e, Step.bind_error (hs' ▸ hended)⟩)

theorem connect_orderly (h : s.Orderly)
    (hnumbers : ∀ r ∈ s.runners, r.number < s.built) (a : StartAnswers) :
    (connect a s).2.Orderly := by
  obtain ⟨w, hw, ⟨e, hended⟩ | ⟨e, hended⟩ | ⟨-, ⟨e, t, hrun, hended⟩ |
    ⟨t, hrun, hended⟩⟩⟩ := connect_cases a s
  · rw [hended]
    exact h.congr rfl
  · rw [hended, hw]
    exact h.congr rfl
  · have ht := registerAll_orderly a s.runners w (hw ▸ h.congr rfl)
      (hw ▸ hnumbers)
    rw [hrun] at ht
    rw [hended]
    exact ht
  · have ht := registerAll_orderly a s.runners w (hw ▸ h.congr rfl)
      (hw ▸ hnumbers)
    rw [hrun] at ht
    rw [hended]
    exact ht.congr rfl

theorem start_orderly (h : s.Orderly) (config : ContainerConfig)
    (a : StartAnswers) : (start config a s).2.Orderly := by
  rcases start_cases config a s with
    ⟨-, hended⟩ | ⟨-, ⟨e, hended⟩ | ⟨e, hended⟩ | hended⟩
  · rw [hended]
    exact h
  · rw [hended]
    exact h
  · rw [hended]
    exact h.built
  · rw [hended]
    exact connect_orderly h.built (fun r hr => (runnersFrom_number hr).2) a

theorem Orderly.takenDown (h : s.Orderly) : s.takenDown.Orderly := by
  have hsame := s.takenDown_same
  have hconsumer : ∀ r, s.takenDown.Reaches r → s.Reaches r := by
    rintro r (⟨key, hkey⟩ | ⟨key, hkey⟩ | hmem)
    · rw [hsame] at hkey
      cases hkey
    · rw [hsame] at hkey
      cases hkey
    · rw [hsame] at hmem
      exact .inr (.inr hmem)
  refine ⟨by rw [hsame]; exact List.nodup_nil, fun k hk => ?_, fun r hr => ?_,
    fun r hr hrunning => ?_, fun key r hkey => ?_, fun key r hkey => ?_⟩
  · have hk : s.built ≤ k := by rwa [hsame] at hk
    rw [takenDown_status, if_neg, h.fresh k hk]
    intro hmem
    obtain ⟨r, hr, rfl⟩ := List.mem_map.1 hmem
    obtain ⟨entry, hentry, rfl⟩ := List.mem_map.1 hr
    exact h.reached entry.2 (.inl ⟨entry.1,
      (Dict.get_eq_some_iff h.keys).2 hentry⟩) (h.fresh _ hk)
  · rw [takenDown_status]
    split
    · exact afterStop_ne_created _
    · exact h.reached r (hconsumer r hr)
  · rw [takenDown_status] at hrunning
    split at hrunning
    case isTrue => exact absurd hrunning (afterStop_ne_running _)
    case isFalse hother =>
        have hown := Dict.mem_of_get (h.own r (hconsumer r hr) hrunning)
        exact absurd (List.mem_map_of_mem (List.mem_map_of_mem hown)) hother
  · rw [hsame] at hkey
    cases hkey
  · rw [hsame] at hkey
    cases hkey

theorem Orderly.dispatch (h : s.Orderly) (raises : Bool) :
    (s.dispatch r raises).Orderly := by
  refine ⟨h.keys, fun k hk => ?_, fun r' hr' hcreated => ?_,
    fun r' hr' hrunning => h.own r' hr' (dispatch_running hrunning), h.keyed,
    fun key r' hkey => ?_⟩
  · rcases dispatch_status (s := s) (r := r) raises k with hsame | ⟨hrunning, -⟩
    · rw [hsame]
      exact h.fresh k hk
    · have hcreated := h.fresh k hk
      rw [hrunning] at hcreated
      cases hcreated
  · rcases dispatch_status (s := s) (r := r) raises r'.number with
      hsame | ⟨-, hrunning | hfrozen⟩
    · exact h.reached r' hr' (hsame ▸ hcreated)
    · rw [hrunning] at hcreated
      cases hcreated
    · rw [hfrozen] at hcreated
      cases hcreated
  · rcases dispatch_status (s := s) (r := r) raises r'.number with
      hsame | ⟨-, hlive⟩
    · rw [hsame]
      exact h.live key r' hkey
    · exact hlive

-- ==================================================== one event, and runs

/-- What one event may do to a container. -/
theorem step_cases (config : ContainerConfig) (s : Container)
    (e : ProcessEvent) :
    s.step config e = s
      ∨ (∃ expected a b, e = .start expected a b
        ∧ Application.verifyBroker config expected = .ok ()
        ∧ s.started = false
        ∧ ((∃ s', start config a s = (.ok (), s') ∧ s.step config e = s')
          ∨ ∃ exc s', start config a s = (.error exc, s')
            ∧ s.step config e = (stop b s').2))
      ∨ s.started = true ∧ s.step config e = s.takenDown
      ∨ ∃ r raises, s.step config e = s.dispatch r raises := by
  cases e with
  | start expected a b =>
      cases hstarted : s.started with
      | true => exact .inl (Application.start_started b hstarted)
      | false =>
          cases hverified : Application.verifyBroker config expected with
          | error exc =>
              exact .inl (congrArg Prod.snd
                (Application.start_refused b hverified))
          | ok _ =>
              refine .inr (.inl ⟨expected, a, b, rfl, hverified, rfl, ?_⟩)
              rcases hended : start config a s with ⟨ended, s'⟩
              cases ended with
              | ok _ =>
                  exact .inl ⟨s', rfl, congrArg Prod.snd
                    (Application.start_ok b hverified hended)⟩
              | error exc =>
                  refine .inr ⟨exc, s', rfl, ?_⟩
                  show (Application.start config expected a b s).2 = _
                  unfold Application.start
                  rw [hverified, Step.bind_ok (Step.lift_apply _ s),
                    Step.tryCatch_error hended, Step.bind_ok (stop_eq b),
                    stop_eq]
                  rfl
  | stop b =>
      show (stop b s).2 = s ∨ _ ∨ _ ∧ (stop b s).2 = s.takenDown ∨ _
      rw [stop_eq]
      cases s.started with
      | true => exact .inr (.inr (.inl ⟨rfl, rfl⟩))
      | false => exact .inl rfl
  | dispatch r raises => exact .inr (.inr (.inr ⟨r, raises, rfl⟩))

theorem Orderly.step (h : s.Orderly) (e : ProcessEvent) :
    (s.step config e).Orderly := by
  have hstop : ∀ (b : StopAnswers) {t : Container}, t.Orderly →
      (stop b t).2.Orderly := by
    intro b t ht
    rw [stop_eq]
    dsimp only
    split
    · exact ht.takenDown
    · exact ht
  rcases step_cases config s e with
    hs | ⟨_, a, b, -, -, -, ⟨s', hended, hs⟩ | ⟨_, s', hended, hs⟩⟩ | ⟨-, hs⟩ |
    ⟨r, raises, hs⟩
  · rw [hs]
    exact h
  · have hstarted := start_orderly h config a
    rw [hended] at hstarted
    rw [hs]
    exact hstarted
  · have hstarted := start_orderly h config a
    rw [hended] at hstarted
    rw [hs]
    exact hstop b hstarted
  · rw [hs]
    exact h.takenDown
  · rw [hs]
    exact h.dispatch raises

theorem run_orderly (config : ContainerConfig) (es : List ProcessEvent) :
    (run config {} es).Orderly := by
  unfold run
  exact List.foldlRecOn es (step config) orderly_empty fun _ h e _ => h.step e

theorem run_snoc (es : List ProcessEvent) (e : ProcessEvent) :
    run config s (es ++ [e]) = (run config s es).step config e :=
  List.foldl_concat ..

-- ================================================= wholly up or down

/-- A start that raised has left a ticker open: neither up nor down. -/
theorem not_settled (hstarted : s.started = false)
    (hopen : s.orderTicker = true ∨ s.tickTicker = true) :
    ¬ (s.Up config ∨ s.Down) := by
  rintro (hup | hdown)
  · rw [hup.started] at hstarted
    cases hstarted
  · rcases hopen with h | h
    · rw [hdown.tickers.1] at h
      cases h
    · rw [hdown.tickers.2] at h
      cases h

/-- From a container that is wholly up or down, an event leads to such a
one just if it is no start that fails once a ticker is open. -/
theorem step_settled (hs : s.Up config ∨ s.Down) (horderly : s.Orderly)
    (e : ProcessEvent) :
    (s.step config e).Up config ∨ (s.step config e).Down
      ↔ e.Clean config s := by
  cases e with
  | start expected a b =>
      have hstep : s.step config (.start expected a b)
          = (Application.start config expected a b s).2 := rfl
      rw [hstep]
      cases hverified : Application.verifyBroker config expected with
      | error exc =>
          rw [Application.start_refused b hverified]
          refine iff_of_true hs fun hok => ?_
          rw [hverified] at hok
          cases hok
      | ok _ =>
          rcases hs with hup | hdown
          · rw [Application.start_started b hup.started]
            refine iff_of_true (.inl hup) fun _ hstarted => ?_
            rw [hup.started] at hstarted
            cases hstarted
          rcases @start_settles config _ hdown horderly.fresh a with
            ⟨hcompletes, s', hended, hup⟩ |
            ⟨hfails, exc, s', hended, hstarted, hopened⟩
          · rw [Application.start_ok b hverified hended]
            exact iff_of_true (.inl hup) fun _ _ _ => hcompletes
          rw [Application.start_error b hverified hended hstarted]
          rcases hopened with ⟨hopens, hopen⟩ | ⟨hcloses, hdown'⟩
          · exact iff_of_false (not_settled hstarted hopen) fun hclean =>
              hfails (hclean hverified hdown.started hopens)
          · exact iff_of_true (.inr hdown') fun _ _ hopens =>
              absurd hopens hcloses
  | stop b =>
      have hstep : s.step config (.stop b)
          = if s.started then s.takenDown else s :=
        congrArg Prod.snd (stop_eq b)
      rw [hstep]
      refine iff_of_true ?_ trivial
      rcases hs with hup | hdown
      · rw [hup.started]
        exact .inr hup.takenDown
      · rw [hdown.started]
        exact .inr hdown
  | dispatch r raises =>
      exact iff_of_true (hs.imp (·.dispatch raises) (·.dispatch raises)) trivial

theorem down_empty : Down {} :=
  ⟨rfl, ⟨rfl, rfl⟩, ⟨rfl, rfl⟩, rfl, rfl, fun _ => RunnerStatus.noConfusion⟩

/-- A process is wholly up or wholly down at every moment, whatever its
threads and its stops meet, if and only if every start that opens a ticker
completes. -/
theorem up_or_down_iff (config : ContainerConfig) (es : List ProcessEvent) :
    (∀ before after, es = before ++ after →
        (run config {} before).Up config ∨ (run config {} before).Down)
      ↔ ∀ before e after, es = before ++ e :: after →
        e.Clean config (run config {} before) := by
  constructor
  · intro h before e after hes
    rw [← step_settled (h before _ hes) (run_orderly config before) e, ← run_snoc]
    exact h (before ++ [e]) after (by rw [hes, List.append_assoc]; rfl)
  · intro h before
    induction before using List.reverseRecOn with
    | nil => exact fun _ _ => .inr down_empty
    | append_singleton before e ih =>
        intro after hes
        rw [List.append_assoc] at hes
        rw [run_snoc]
        exact (step_settled (ih _ hes) (run_orderly config before) e).2
          (h before e after hes)

-- ========================================================= no way back

/-- What is scheduled, is so from the first declared instance on, beside an
open market-data ticker. -/
def Led (config : ContainerConfig) (s : Container) : Prop :=
  s.schedules ≠ [] → config.first ∈ s.schedules.keys ∧ s.tickTicker = true

/-- The registrations keep what starting, scheduling and handing out one
runner keeps. -/
theorem registerAll_stays {I : Container → Prop}
    (hstarted : ∀ s r status, I s → I (s.setStatus r status))
    (hput : ∀ s r, I s → I { s with schedules := s.schedules.put r.identity r })
    (hheld : ∀ s r, I s → I ((s.monitor r).consume r))
    (a : StartAnswers) (rs : List BuiltRunner) :
    Step.Stays I (registerAll a rs) := by
  induction rs with
  | nil => exact Step.Stays.pure ()
  | cons r rs ih =>
      refine Step.Stays.bind (fun s hs => ?_) fun _ =>
        Step.Stays.bind (Step.Stays.modify fun s => hheld s r) fun _ => ih
      rcases schedule_cases r (a.register r) s with
        ⟨e, hended⟩ | ⟨-, -, ⟨e, hended⟩ | hended⟩
      · rw [hended]
        exact hs
      · rw [hended]
        exact hstarted s r _ hs
      · rw [hended]
        exact hput (s.setStatus r _) r (hstarted s r _ hs)

theorem registerAll_keys (a : StartAnswers) (rs : List BuiltRunner) (key : String) :
    Step.Stays (fun s : Container => key ∈ s.schedules.keys)
      (registerAll a rs) :=
  registerAll_stays (I := fun s => key ∈ s.schedules.keys)
    (fun _ _ _ hs => hs) (fun _ _ hs => Dict.mem_keys_put.2 (.inr hs))
    (fun _ _ hs => hs) a rs

theorem registerAll_ticks (a : StartAnswers) (rs : List BuiltRunner) :
    Step.Stays (fun s : Container => s.tickTicker = true) (registerAll a rs) :=
  registerAll_stays (fun _ _ _ hs => hs) (fun _ _ hs => hs) (fun _ _ hs => hs)
    a rs

/-- The first runner is registered before the others. -/
theorem registerAll_led {rs : List BuiltRunner} (h : Led config s)
    (hticks : s.tickTicker = true)
    (hfirst : r.identity = config.first) :
    Led config (registerAll a (r :: rs) s).2 := by
  intro hnonempty
  refine ⟨?_, registerAll_ticks a (r :: rs) s hticks⟩
  have hrest : ∀ {t : Container}, schedule r (a.register r) s = (.ok (), t) →
      config.first ∈ t.schedules.keys →
      config.first ∈ (registerAll a (r :: rs) s).2.schedules.keys := by
    intro t hended hmem
    unfold registerAll
    rw [Step.bind_ok hended]
    exact registerAll_keys a rs _ _ hmem
  rcases schedule_cases r (a.register r) s with
    ⟨e, hended⟩ | ⟨-, -, ⟨e, hended⟩ | hended⟩
  · unfold registerAll at hnonempty ⊢
    rw [Step.bind_error hended] at hnonempty ⊢
    exact (h hnonempty).1
  · unfold registerAll at hnonempty ⊢
    rw [Step.bind_error hended] at hnonempty ⊢
    exact (h hnonempty).1
  · exact hrest hended (Dict.mem_keys_put.2 (.inl hfirst.symm))

theorem runnersFrom_cons (config : ContainerConfig) (n : Nat) :
    ∃ r rs, config.runnersFrom n = r :: rs ∧ r.identity = config.first := by
  obtain ⟨instances, activeBroker, accountId, instanceId, hne⟩ := config
  cases instances with
  | nil => exact absurd rfl hne
  | cons spec specs => exact ⟨_, _, rfl, rfl⟩

theorem Led.of_same (h : Led config s) (hschedules : s'.schedules = s.schedules)
    (hticks : s.tickTicker = true → s'.tickTicker = true) : Led config s' := by
  intro hnonempty
  rw [hschedules] at hnonempty ⊢
  exact ⟨(h hnonempty).1, hticks (h hnonempty).2⟩

theorem watching_open (answer : TickerAnswer) (hticks : s.tickTicker = true) :
    (s.watching answer).tickTicker = true := by
  show (openTicker s.tickTicker answer).2 = true
  rw [hticks, TickerAnswer.openTicker_open]

/-- The market data has its ticker by the time the first runner is
registered. -/
theorem connect_led (h : Led config s) {n : Nat}
    (hrunners : s.runners = config.runnersFrom n) (a : StartAnswers) :
    Led config (connect a s).2 := by
  obtain ⟨w, hw, hended⟩ := connect_cases a s
  have hwatching : Led config w := hw ▸ h.of_same rfl (watching_open _)
  obtain ⟨r, rs, hcons, hfirst⟩ := runnersFrom_cons config n
  rcases hended with ⟨e, hended⟩ | ⟨e, hended⟩ | ⟨hticks, hended⟩
  · rw [hended]
    exact h.of_same rfl id
  · rw [hended]
    exact hwatching
  have hregistered : Led config (registerAll a s.runners w).2 := by
    rw [hrunners, hcons]
    exact registerAll_led hwatching hticks hfirst
  rcases hended with ⟨e, t, hrun, hended⟩ | ⟨t, hrun, hended⟩
  · rw [hrun] at hregistered
    rw [hended]
    exact hregistered
  · rw [hrun] at hregistered
    rw [hended]
    exact hregistered.of_same rfl id

theorem start_led (h : Led config s) (a : StartAnswers) :
    Led config (start config a s).2 := by
  rcases start_cases config a s with
    ⟨-, hended⟩ | ⟨-, ⟨e, hended⟩ | ⟨e, hended⟩ | hended⟩
  · rw [hended]
    exact h
  · rw [hended]
    exact h
  · rw [hended]
    exact h.of_same rfl id
  · rw [hended]
    have hbuilt : Led config (s.buildRunners config) := h.of_same rfl id
    exact connect_led hbuilt rfl a

theorem stop_led (h : Led config s) (b : StopAnswers) :
    Led config (stop b s).2 := by
  rw [stop_eq]
  dsimp only
  split
  · intro hnonempty
    rw [takenDown_same] at hnonempty
    exact absurd rfl hnonempty
  · exact h

theorem Led.step (h : Led config s) (e : ProcessEvent) :
    Led config (s.step config e) := by
  rcases step_cases config s e with
    hs | ⟨_, a, b, -, -, -, ⟨s', hended, hs⟩ | ⟨_, s', hended, hs⟩⟩ | ⟨-, hs⟩ |
    ⟨r, raises, hs⟩
  · rw [hs]
    exact h
  · have hstarted := start_led h a
    rw [hended] at hstarted
    rw [hs]
    exact hstarted
  · have hstarted := start_led h a
    rw [hended] at hstarted
    rw [hs]
    exact stop_led hstarted b
  · intro hnonempty
    rw [hs, takenDown_same] at hnonempty
    exact absurd rfl hnonempty
  · rw [hs]
    exact h.of_same rfl id

theorem run_led (config : ContainerConfig) (es : List ProcessEvent) :
    Led config (run config {} es) := by
  unfold run
  exact List.foldlRecOn es (step config) (fun h => absurd rfl h)
    fun _ h e _ => h.step e

/-- What a failed start with a registered runner leaves for good. -/
structure Stuck (config : ContainerConfig) (table : Dict String BuiltRunner)
    (s : Container) : Prop where
  started : s.started = false
  ticks : s.tickTicker = true
  kept : s.schedules = table
  first : config.first ∈ table.keys
  live : ∀ key r, table.get key = some r →
    s.status r.number = .running ∨ s.status r.number = .frozen

/-- Every further start raises: it comes to the first runner again. -/
theorem Stuck.start {table : Dict String BuiltRunner}
    (h : Stuck config table s) (a : StartAnswers) :
    ∃ e s', start config a s = (.error e, s') ∧ Stuck config table s' := by
  rcases start_cases config a s with
    ⟨hstarted, -⟩ | ⟨-, ⟨e, hended⟩ | ⟨e, hended⟩ | hended⟩
  · rw [h.started] at hstarted
    cases hstarted
  · exact ⟨e, s, hended, h⟩
  · exact ⟨e, _, hended, h.started, h.ticks, h.kept, h.first, h.live⟩
  rw [hended]
  obtain ⟨w, hw, hconnect⟩ := connect_cases a (s.buildRunners config)
  have hwatching : Stuck config table w := by
    rw [hw]
    exact ⟨h.started, watching_open _ h.ticks, h.kept, h.first, h.live⟩
  obtain ⟨r, rs, hcons, hfirst⟩ := runnersFrom_cons config s.built
  have htaken : registerAll a (s.buildRunners config).runners w
      = (.error (.alreadyRegistered r.identity), w) := by
    have hrunners : (s.buildRunners config).runners = r :: rs := hcons
    rw [hrunners]
    exact Step.bind_error (schedule_taken (by
      rw [hfirst, hwatching.kept]
      exact h.first))
  rcases hconnect with
    ⟨e, hended⟩ | ⟨e, hended⟩ | ⟨-, ⟨e, t, hrun, hended⟩ | ⟨t, hrun, hended⟩⟩
  · exact ⟨e, _, hended, h.started, h.ticks, h.kept, h.first, h.live⟩
  · exact ⟨e, w, hended, hwatching⟩
  · rw [htaken] at hrun
    obtain rfl : w = t := congrArg Prod.snd hrun
    exact ⟨e, w, hended, hwatching⟩
  · rw [htaken] at hrun
    cases hrun

theorem Stuck.application {table : Dict String BuiltRunner}
    (h : Stuck config table s) (expected : Option BrokerName)
    (a : StartAnswers) (b : StopAnswers) :
    ∃ e s', Application.start config expected a b s = (.error e, s')
      ∧ Stuck config table s' := by
  cases hverified : Application.verifyBroker config expected with
  | error e => exact ⟨e, s, Application.start_refused b hverified, h⟩
  | ok _ =>
      obtain ⟨e, s', hended, hs'⟩ := h.start a
      exact ⟨e, s', Application.start_error b hverified hended hs'.started, hs'⟩

theorem Stuck.step {table : Dict String BuiltRunner}
    (h : Stuck config table s) (e : ProcessEvent) :
    Stuck config table (s.step config e) := by
  cases e with
  | start expected a b =>
      obtain ⟨e, s', hended, hs'⟩ := h.application expected a b
      have hstep : s.step config (.start expected a b) = s' :=
        congrArg Prod.snd hended
      rw [hstep]
      exact hs'
  | stop b =>
      have hstep : s.step config (.stop b) = s := by
        show (stop b s).2 = s
        rw [stop_eq, h.started]
        rfl
      rw [hstep]
      exact h
  | dispatch r raises =>
      refine ⟨h.started, h.ticks, h.kept, h.first, fun key r' hr' => ?_⟩
      rcases dispatch_status (s := s) (r := r) raises r'.number with
        hsame | ⟨-, hlive⟩
      · have hsame : (s.step config (.dispatch r raises)).status r'.number
            = s.status r'.number := hsame
        rw [hsame]
        exact h.live key r' hr'
      · exact hlive

/-- After a failed start that had registered a runner, every start of the
process raises, its stops change nothing, the runners registered then stay
registered and are never stopped, and the market data's ticker stays
open. -/
theorem failed_start_is_final (config : ContainerConfig)
    (before after : List ProcessEvent)
    (hfailed : (run config {} before).started = false)
    (hregistered : (run config {} before).schedules ≠ []) :
    (∀ expected a b, ∃ e, (Application.start config expected a b
        (run config {} (before ++ after))).1 = .error e)
      ∧ (∀ b, (stop b (run config {} (before ++ after))).2
        = run config {} (before ++ after))
      ∧ (run config {} (before ++ after)).schedules
        = (run config {} before).schedules
      ∧ (∀ key r, (run config {} before).schedules.get key = some r →
        (run config {} (before ++ after)).status r.number = .running
          ∨ (run config {} (before ++ after)).status r.number = .frozen)
      ∧ (run config {} (before ++ after)).tickTicker = true := by
  obtain ⟨hfirst, hticks⟩ := run_led config before hregistered
  have hstuck : Stuck config (run config {} before).schedules
      (run config {} before) :=
    ⟨hfailed, hticks, rfl, hfirst, (run_orderly config before).live⟩
  have hrun : run config {} (before ++ after)
      = run config (run config {} before) after := List.foldl_append
  have hlater : Stuck config (run config {} before).schedules
      (run config {} (before ++ after)) := by
    rw [hrun]
    exact List.foldlRecOn after (step config) hstuck fun _ h e _ => h.step e
  refine ⟨fun expected a b => ?_, fun b => ?_, hlater.kept, hlater.live,
    hlater.ticks⟩
  · obtain ⟨e, s', hended, -⟩ := hlater.application expected a b
    exact ⟨e, congrArg Prod.fst hended⟩
  · rw [stop_eq, hlater.started]
    rfl

/-- NIFTY, declared twice. -/
def declaredTwice : ContainerConfig where
  instances := List.replicate 2 ⟨"strategy_1", "NIFTY", "primary"⟩
  instances_ne := List.cons_ne_nil _ _

/-- A start at which everything answers well. -/
def startsOnce : List ProcessEvent := [.start (some .kite) {} {}]

/-- The second declaration fails the start, and the process with it. -/
theorem declaredTwice_final :
    (∀ expected a b, ∃ e, (Application.start declaredTwice expected a b
        (run declaredTwice {} (startsOnce ++ [.stop {}]))).1 = .error e)
      ∧ (run declaredTwice {} (startsOnce ++ [.stop {}])).tickTicker = true := by
  have hfailed : (run declaredTwice {} startsOnce).started = false := by
    decide +kernel
  have hregistered : (run declaredTwice {} startsOnce).schedules ≠ [] := by
    decide +kernel
  obtain ⟨hraises, -, -, -, hticks⟩ := failed_start_is_final declaredTwice
    startsOnce [.stop {}] hfailed hregistered
  exact ⟨hraises, hticks⟩

-- =============================================== one runner an instance

/-- Of the runners with one identity that a thread can reach, at most one
is running, whatever the starts and the stops of the process met. -/
theorem one_runner_per_instance (config : ContainerConfig)
    (es : List ProcessEvent) {r r' : BuiltRunner}
    (hr : (run config {} es).Reaches r) (hr' : (run config {} es).Reaches r')
    (hid : r.identity = r'.identity)
    (hrunning : (run config {} es).status r.number = .running)
    (hrunning' : (run config {} es).status r'.number = .running) : r = r' := by
  have horderly := run_orderly config es
  have hown := horderly.own r hr hrunning
  rw [hid, horderly.own r' hr' hrunning'] at hown
  exact (Option.some.inj hown).symm

/-- NIFTY, declared once. -/
def declaredOnce : ContainerConfig where
  instances := [⟨"strategy_1", "NIFTY", "primary"⟩]
  instances_ne := List.cons_ne_nil _ _

/-- After a restart the market data still has hold of the first runner; the
second is the one that runs. -/
theorem restarted_once :
    ∃ r, (run declaredOnce {} (startsOnce ++ .stop {} :: startsOnce)).Reaches r
      ∧ ∀ r', (run declaredOnce {}
          (startsOnce ++ .stop {} :: startsOnce)).Reaches r' →
        r.identity = r'.identity →
        (run declaredOnce {} (startsOnce ++ .stop {} :: startsOnce)).status
          r'.number = .running →
        r = r' := by
  have hreaches : (run declaredOnce {}
      (startsOnce ++ .stop {} :: startsOnce)).Reaches
        ⟨1, "strategy_1/NIFTY@acct1#inst1"⟩ := by
    refine .inr (.inr ?_)
    decide +kernel
  have hrunning : (run declaredOnce {}
      (startsOnce ++ .stop {} :: startsOnce)).status 1 = .running := by
    decide +kernel
  exact ⟨_, hreaches, fun r' hr' hid hrunning' =>
    one_runner_per_instance declaredOnce _ hreaches hr' hid hrunning hrunning'⟩

end Container

-- ============================================================= one process

namespace Application

open Container

variable {config : ContainerConfig} {s : Container}

/-- A process that comes up goes down, however its waiting ends and
whatever its stop meets. -/
theorem run_down (hdown : s.Down)
    (hfresh : ∀ k, s.built ≤ k → s.status k = .created) {a : StartAnswers}
    (hclean : a.Opens → a.Completes config s.built)
    (expected : Option BrokerName) (b : StopAnswers)
    (meanwhile : List (BuiltRunner × Bool)) (waiting : Except LifecycleExc Unit)
    (last : StopAnswers) :
    (run config expected a b meanwhile waiting last s).2.Down := by
  unfold run
  cases hverified : verifyBroker config expected with
  | error exc =>
      rw [Step.bind_error (start_refused b hverified)]
      exact hdown
  | ok _ =>
      rcases @start_settles config _ hdown hfresh a with
        ⟨-, s', hended, hup⟩ | ⟨hfails, exc, s', hended, hstarted, hopened⟩
      · rw [Step.bind_ok (start_ok b hverified hended),
          Step.bind_ok (Step.modify_apply _ s')]
        have hmeanwhile : (meanwhile.foldl
            (fun s d => s.dispatch d.1 d.2) s').Up config :=
          List.foldlRecOn meanwhile _ hup fun t ht d _ => ht.dispatch d.2
        rw [Step.bind_ok (stop_eq last), if_pos hmeanwhile.started]
        exact hmeanwhile.takenDown
      · rw [Step.bind_error (start_error b hverified hended hstarted)]
        rcases hopened with ⟨hopens, -⟩ | ⟨-, hdown'⟩
        · exact absurd (hclean hopens) hfails
        · exact hdown'

end Application

end AlgoPlatform
