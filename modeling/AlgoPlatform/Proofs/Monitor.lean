/-
What the monitor is for, and that it does it.

`Watch` is the abstract monitor: the position watched, the last price
obtained for each leg and when, and the last tick's arrival. `triggers`
lists the exit triggers by priority, each stated on its own. Together
they are a latch (`Monitor.latch`): attaching to an OPEN position arms
it, stopping disarms it, a tick or a poll is watched.

`step_tracks` is the refinement: call by call, whatever is read, the
monitor calls `ExitLogic.exit` exactly when the latch releases.
-/
import AlgoPlatform.Basis.Latch
import AlgoPlatform.Model.Monitor

open Basis

namespace AlgoPlatform

-- ============================================================ triggers

/-- When a trigger holds, by itself. -/
def ExitReason.Holds (hardCutoffTime nowIstTime : ℚ) (halted : Bool)
    (premium target stoploss : Option ℚ) : ExitReason → Bool
  | .timeout => hardCutoffTime ≤ nowIstTime
  | .killSwitch => halted
  | .stoploss => premium.any fun p => stoploss.any fun level => level ≤ p
  | .target => premium.any fun p => target.any fun level => p ≤ level
  | .manual | .error => false

/-- The triggers, highest priority first. -/
def triggers : List ExitReason := [.timeout, .killSwitch, .stoploss, .target]

/-- The decision is the first trigger that holds. -/
theorem evaluateExit_eq (now cutoff : ℚ) (halted : Bool)
    (premium target stoploss : Option ℚ) :
    evaluateExit now cutoff halted premium target stoploss
      = triggers.find?
          (ExitReason.Holds cutoff now halted premium target stoploss) := by
  unfold evaluateExit triggers
  by_cases hcutoff : cutoff ≤ now
  · simp [ExitReason.Holds, hcutoff]
  · cases halted with
    | true => simp [ExitReason.Holds, hcutoff, List.find?_cons]
    | false =>
        cases premium with
        | none => simp [ExitReason.Holds, hcutoff]
        | some p =>
            by_cases hstop : stoploss.any fun level => level ≤ p
            · simp [ExitReason.Holds, hcutoff, hstop]
            · by_cases htarget : target.any fun level => p ≤ level
              · simp [ExitReason.Holds, hcutoff, hstop, htarget]
              · simp [ExitReason.Holds, hcutoff, hstop, htarget]

-- =============================================================== watch

/-- A price and when it was obtained. -/
structure Quote where
  price : ℚ
  obtainedAt : ℚ
  deriving DecidableEq, Repr

/-- The abstract monitor of a position. -/
structure Watch where
  monitored : MonitoredPosition
  callInstrument : InstrumentIdentifier
  putInstrument : InstrumentIdentifier
  call : Option Quote := none
  put : Option Quote := none
  lastTickAt : Option ℚ := none
  deriving DecidableEq, Repr

namespace Watch

/-- A watch just begun: nothing has been observed. -/
def fresh (p : MonitoredPosition) : Watch :=
  { monitored := p, callInstrument := p.callInstrument,
    putInstrument := p.putInstrument }

/-- Both prices are known and one is negative: no premium is computed. -/
def Refused (w : Watch) : Prop :=
  ∃ c ∈ w.call, ∃ p ∈ w.put, c.price < 0 ∨ p.price < 0

instance (w : Watch) : Decidable w.Refused :=
  inferInstanceAs (Decidable (∃ c ∈ w.call, ∃ p ∈ w.put, _ ∨ _))

/-- The combined premium, once both legs have a price. -/
def premium (w : Watch) : Option ℚ :=
  match w.call, w.put with
  | some c, some p => some (c.price + p.price)
  | _, _ => none

/-- One of the two instruments the prices are kept for. -/
def IsLeg (w : Watch) (i : InstrumentIdentifier) : Prop :=
  i = w.callInstrument ∨ i = w.putInstrument

instance (w : Watch) (i : InstrumentIdentifier) : Decidable (w.IsLeg i) :=
  inferInstanceAs (Decidable (_ ∨ _))

/-- A price is obtained for an instrument. -/
def note (w : Watch) (i : InstrumentIdentifier) (price now : ℚ) : Watch :=
  if i = w.callInstrument then { w with call := some ⟨price, now⟩ }
  else if i = w.putInstrument then { w with put := some ⟨price, now⟩ }
  else w

/-- A price is obtained for an instrument, if there is one. -/
def noteIfAny (w : Watch) (i : InstrumentIdentifier) (price : Option ℚ)
    (now : ℚ) : Watch :=
  match price with
  | some price => w.note i price now
  | none => w

/-- A poll is due: the last tick, of either leg, is too old, or the
gateway does not report itself connected. -/
def Due (settings : MonitorSettings) (w : Watch) (r : PollReading) : Bool :=
  match r.connected, w.lastTickAt with
  | .ok true, some last => settings.maxStaleness < r.checkedAt - last
  | _, _ => true

/-- The call leg of a poll's answer. -/
def refreshCall (w : Watch) (ltps : List (InstrumentIdentifier × ℚ))
    (now : ℚ) : Watch :=
  w.noteIfAny w.monitored.callInstrument
    (ltps.lookup w.monitored.callInstrument) now

/-- The new call price makes the premium one that is refused, which cuts
the refresh short. -/
def CutShort (w : Watch) (ltps : List (InstrumentIdentifier × ℚ))
    (now : ℚ) : Prop :=
  (ltps.lookup w.monitored.callInstrument).isSome
    ∧ w.IsLeg w.monitored.callInstrument ∧ (w.refreshCall ltps now).Refused

instance (w : Watch) (ltps : List (InstrumentIdentifier × ℚ)) (now : ℚ) :
    Decidable (w.CutShort ltps now) :=
  inferInstanceAs (Decidable (_ ∧ _))

/-- A poll's answer: the call leg, then the put leg. -/
def refresh (w : Watch) (ltps : List (InstrumentIdentifier × ℚ)) (now : ℚ) :
    Watch :=
  if w.CutShort ltps now then w.refreshCall ltps now
  else
    (w.refreshCall ltps now).noteIfAny w.monitored.putInstrument
      (ltps.lookup w.monitored.putInstrument) now

/-- A tick's arrival: its price, and the freshness clock if it is for a
leg of the watched position. -/
def arrive (w : Watch) (tick : Tick) (now : ℚ) : Watch :=
  { w.note tick.instrument tick.lastPrice now with
    lastTickAt :=
      if tick.instrument = w.monitored.callInstrument
        ∨ tick.instrument = w.monitored.putInstrument then some now
      else w.lastTickAt }

/-- What an evaluation decides: the first trigger that holds. One that
raises, over a refused premium or a halt flag it cannot read, decides
nothing. -/
def decide (settings : MonitorSettings) (w : Watch) (r : EvaluationReading) :
    Option ExitReason :=
  match r.halted with
  | .error _ => none
  | .ok halted =>
      if w.Refused then none
      else
        triggers.find? (ExitReason.Holds settings.hardCutoffTime r.nowIstTime
          halted w.premium w.monitored.targetPremium w.monitored.stoplossPremium)

end Watch

-- =============================================================== latch

namespace Monitor

variable (ctx : StrategyContext) (settings : MonitorSettings)

/-- What a call is to the watch: an attach that finds an OPEN position
on two instruments begins one, `stop` ends it. -/
def effect : MonitorEvent → Effect Watch
  | .attach db scan =>
      match found ctx db scan with
      | .ok (.ok p) =>
          if p.callInstrument = p.putInstrument then .watch else .arm (.fresh p)
      | _ => .watch
  | .tick _ _ | .poll _ => .watch
  | .stop => .disarm

/-- What a watched call adds to what is known. -/
def observe (w : Watch) : MonitorEvent → Watch
  | .attach db scan =>
      match found ctx db scan with
      | .ok (.ok p) => { w with monitored := p }
      | _ => w
  | .tick tick r => w.arrive tick r.now
  | .poll r =>
      if w.Due settings r then
        match r.ltps with
        | .ok ltps => w.refresh ltps r.polledAt
        | .error _ => w
      else w
  | .stop => w

/-- The exit a call asks for, over what is then known. -/
def fires (w : Watch) : MonitorEvent → Option ExitReason
  | .tick _ r => w.decide settings r.evaluation
  | .poll r => w.decide settings r.evaluation
  | .attach _ _ | .stop => none

/-- The abstract monitor. -/
def latch : Latch Watch MonitorEvent ExitReason where
  effect := effect ctx
  observe := observe ctx settings
  fires := fires settings

-- ========================================================== refinement

/-- A tracker keeps the prices of a watch. -/
structure Keeps (t : CombinedPremiumTracker) (w : Watch) : Prop where
  callInstrument : t.callInstrument = w.callInstrument
  putInstrument : t.putInstrument = w.putInstrument
  call : t.latestCallPrice = w.call.map Quote.price
  put : t.latestPutPrice = w.put.map Quote.price

/-- The monitor is in the state the abstract one is in. -/
def Tracks (m : Monitor) : Option Watch → Prop
  | none => m.active = false
  | some w => m.active = true ∧ m.monitored = some w.monitored
      ∧ (∃ t, m.tracker = some t ∧ Keeps t w) ∧ m.lastTickAt = w.lastTickAt

section Tracker

variable {t : CombinedPremiumTracker} {w : Watch}

theorem Keeps.snapshot (h : Keeps t w) :
    (w.Refused → ∃ e, t.currentSnapshot = .error e)
      ∧ (¬ w.Refused → t.currentSnapshot = .ok w.premium) := by
  unfold CombinedPremiumTracker.currentSnapshot Watch.Refused Watch.premium
  rw [h.call, h.put]
  cases w.call with
  | none => simp
  | some c =>
      cases w.put with
      | none => simp
      | some p =>
          simp only [Option.map_some, Option.mem_some_iff, exists_eq_left',
            computeCombinedPremium]
          by_cases hc : c.price < 0
          · simp [hc, Except.map]
          · by_cases hp : p.price < 0
            · simp [hc, hp, Except.map]
            · simp [hc, hp, Except.map]

theorem Keeps.record (h : Keeps t w) (tick : Tick) (now : ℚ) :
    Keeps (t.record tick) (w.note tick.instrument tick.lastPrice now) := by
  unfold CombinedPremiumTracker.record Watch.note
  rw [← h.callInstrument, ← h.putInstrument]
  by_cases hc : tick.instrument = t.callInstrument
  · rw [if_pos hc, if_pos hc]
    exact ⟨rfl, rfl, rfl, h.put⟩
  · rw [if_neg hc, if_neg hc]
    by_cases hp : tick.instrument = t.putInstrument
    · rw [if_pos hp, if_pos hp]
      exact ⟨rfl, rfl, h.call, rfl⟩
    · rw [if_neg hp, if_neg hp]
      exact h

theorem Keeps.onTick (h : Keeps t w) (tick : Tick) (now : ℚ) :
    Keeps (t.onTick tick).1 (w.note tick.instrument tick.lastPrice now) := by
  unfold CombinedPremiumTracker.onTick
  by_cases hleg :
      tick.instrument = t.callInstrument ∨ tick.instrument = t.putInstrument
  · rw [if_pos hleg]
    exact h.record tick now
  · rw [if_neg hleg]
    have hsame : t.record tick = t := by
      unfold CombinedPremiumTracker.record
      rw [if_neg fun hc => hleg (.inl hc), if_neg fun hp => hleg (.inr hp)]
    have hrecord := h.record tick now
    rwa [hsame] at hrecord

/-- The tracker raises on a tick exactly if it is for a leg and makes
the premium one to refuse. -/
theorem Keeps.onTick_raises (h : Keeps t w) (tick : Tick) (now : ℚ) :
    (∃ e, (t.onTick tick).2 = .error e)
      ↔ w.IsLeg tick.instrument
        ∧ (w.note tick.instrument tick.lastPrice now).Refused := by
  unfold CombinedPremiumTracker.onTick Watch.IsLeg
  rw [h.callInstrument, h.putInstrument]
  by_cases hleg :
      tick.instrument = w.callInstrument ∨ tick.instrument = w.putInstrument
  · rw [if_pos hleg]
    obtain ⟨hrefused, hpriced⟩ := (h.record tick now).snapshot
    constructor
    · intro hraises
      refine ⟨hleg, ?_⟩
      by_contra hno
      obtain ⟨e, he⟩ := hraises
      rw [hpriced hno] at he
      cases he
    · intro hboth
      exact hrefused hboth.2
  · rw [if_neg hleg]
    simp [hleg]

/-- One leg of a poll's answer, fed to the tracker. -/
theorem Keeps.feed (h : Keeps t w) (i : InstrumentIdentifier)
    (price : Option ℚ) (now : ℚ) :
    Keeps (feed t i price).1 (w.noteIfAny i price now)
      ∧ ((∃ e, (feed t i price).2 = .error e)
        ↔ price.isSome ∧ w.IsLeg i ∧ (w.noteIfAny i price now).Refused) := by
  cases price with
  | none =>
      refine ⟨h, ?_⟩
      simp [Monitor.feed]
  | some price =>
      refine ⟨h.onTick { instrument := i, lastPrice := price } now, ?_⟩
      have hraises := h.onTick_raises { instrument := i, lastPrice := price } now
      simp only [Monitor.feed, Option.isSome_some, true_and]
      rw [← show _ ↔ w.IsLeg i ∧ (w.noteIfAny i (some price) now).Refused from hraises]
      cases (t.onTick { instrument := i, lastPrice := price }).2 <;>
        simp [Except.map]

end Tracker

/-- What a refresh leaves the tracker with, and when it raises: only if
the premium is then one to refuse. -/
theorem Keeps.feedBoth {t : CombinedPremiumTracker} {w : Watch}
    (h : Keeps t w) (ltps : List (InstrumentIdentifier × ℚ)) (now : ℚ) :
    Keeps (feedBoth t w.monitored ltps).1 (w.refresh ltps now)
      ∧ ((∃ e, (feedBoth t w.monitored ltps).2 = .error e) →
          (w.refresh ltps now).Refused) := by
  obtain ⟨hcall, hraises⟩ := h.feed w.monitored.callInstrument
    (ltps.lookup w.monitored.callInstrument) now
  unfold Monitor.feedBoth Watch.refresh
  rw [show w.noteIfAny w.monitored.callInstrument
    (ltps.lookup w.monitored.callInstrument) now = w.refreshCall ltps now from rfl]
    at hcall hraises
  cases hfeed : Monitor.feed t w.monitored.callInstrument
    (ltps.lookup w.monitored.callInstrument) with
  | mk t' result =>
      rw [hfeed] at hcall hraises
      cases result with
      | error e =>
          have hcut : w.CutShort ltps now := hraises.1 ⟨e, rfl⟩
          rw [if_pos hcut]
          exact ⟨hcall, fun _ => hcut.2.2⟩
      | ok u =>
          have hcut : ¬ w.CutShort ltps now := by
            intro hcut
            obtain ⟨e, he⟩ := hraises.2 hcut
            cases he
          rw [if_neg hcut]
          obtain ⟨hput, hputRaises⟩ := hcall.feed w.monitored.putInstrument
            (ltps.lookup w.monitored.putInstrument) now
          exact ⟨hput, fun he => (hputRaises.1 he).2.2⟩

variable {ctx settings}

/-- The last statement of a watched call: the exit it asks for is what
the watch decides, and a monitor that asked for one is spent. -/
theorem evaluateCurrent_tracks {m : Monitor} {w : Watch}
    (h : m.Tracks (some w)) (r : EvaluationReading) :
    (m.evaluateCurrent settings r).exitCall = w.decide settings r
      ∧ (m.evaluateCurrent settings r).monitor.Tracks
          (if (w.decide settings r).isSome then none else some w) := by
  obtain ⟨active, monitored, tracker, lastTickAt, last⟩ := m
  obtain ⟨rfl, rfl, ⟨t, rfl, hkeeps⟩, rfl⟩ := h
  obtain ⟨hrefused, hpriced⟩ := hkeeps.snapshot
  unfold Monitor.evaluateCurrent Monitor.currentPremium Watch.decide
  dsimp only
  by_cases hbad : w.Refused
  · obtain ⟨e, he⟩ := hrefused hbad
    simp only [he, if_pos hbad]
    cases r.halted <;> exact ⟨rfl, rfl, rfl, ⟨t, rfl, hkeeps⟩, rfl⟩
  · simp only [hpriced hbad, if_neg hbad]
    unfold Monitor.evaluate
    cases r.halted with
    | error e => exact ⟨rfl, rfl, rfl, ⟨t, rfl, hkeeps⟩, rfl⟩
    | ok halted =>
        simp only [evaluateExit_eq]
        obtain ⟨found, hfound⟩ : ∃ found, triggers.find?
            (ExitReason.Holds settings.hardCutoffTime r.nowIstTime halted
              w.premium w.monitored.targetPremium w.monitored.stoplossPremium)
            = found := ⟨_, rfl⟩
        simp only [hfound]
        cases found with
        | none => exact ⟨rfl, rfl, rfl, ⟨t, rfl, hkeeps⟩, rfl⟩
        | some reason => exact ⟨rfl, rfl⟩

/-- The premium an evaluation is made on is the one the watch knows. -/
theorem evaluateCurrent_premium {m : Monitor} {w : Watch}
    (h : m.Tracks (some w)) (hpriced : ¬ w.Refused) (r : EvaluationReading) :
    (m.evaluateCurrent settings r).monitor.lastCombinedPremium = w.premium := by
  obtain ⟨active, monitored, tracker, lastTickAt, last⟩ := m
  obtain ⟨rfl, rfl, ⟨t, rfl, hkeeps⟩, rfl⟩ := h
  unfold Monitor.evaluateCurrent Monitor.currentPremium Monitor.evaluate
  simp only [hkeeps.snapshot.2 hpriced]
  cases r.halted with
  | error e => rfl
  | ok halted =>
      dsimp only
      cases evaluateExit r.nowIstTime settings.hardCutoffTime halted w.premium
        w.monitored.targetPremium w.monitored.stoplossPremium <;> rfl

/-- A call that raises before its evaluation asks for no exit, and the
watch, which then has a premium to refuse, decides nothing. -/
private theorem raised_tracks {m : Monitor} {w : Watch}
    (h : m.Tracks (some w)) (hbad : w.Refused) (e : Exc)
    (r : EvaluationReading) :
    ({ monitor := m, raised := some e : MonitorStep }).exitCall
        = w.decide settings r
      ∧ ({ monitor := m, raised := some e : MonitorStep }).monitor.Tracks
          (if (w.decide settings r).isSome then none else some w) := by
  have hnone : w.decide settings r = none := by
    unfold Watch.decide
    cases r.halted with
    | error e => rfl
    | ok halted => exact if_pos hbad
  rw [hnone]
  exact ⟨rfl, h⟩

theorem note_monitored (w : Watch) (i : InstrumentIdentifier) (price now : ℚ) :
    (w.note i price now).monitored = w.monitored
      ∧ (w.note i price now).lastTickAt = w.lastTickAt := by
  unfold Watch.note
  split_ifs <;> exact ⟨rfl, rfl⟩

theorem refresh_monitored (w : Watch)
    (ltps : List (InstrumentIdentifier × ℚ)) (now : ℚ) :
    (w.refresh ltps now).monitored = w.monitored
      ∧ (w.refresh ltps now).lastTickAt = w.lastTickAt := by
  have hany : ∀ (w : Watch) i price, (w.noteIfAny i price now).monitored
      = w.monitored ∧ (w.noteIfAny i price now).lastTickAt = w.lastTickAt := by
    intro w i price
    cases price with
    | none => exact ⟨rfl, rfl⟩
    | some price => exact note_monitored w i price now
  unfold Watch.refresh Watch.refreshCall
  split_ifs
  · exact hany w _ _
  · obtain ⟨hm, ht⟩ := hany (w.noteIfAny w.monitored.callInstrument
      (ltps.lookup w.monitored.callInstrument) now) w.monitored.putInstrument
      (ltps.lookup w.monitored.putInstrument)
    obtain ⟨hm', ht'⟩ := hany w w.monitored.callInstrument
      (ltps.lookup w.monitored.callInstrument)
    exact ⟨hm.trans hm', ht.trans ht'⟩

theorem onTick_tracks {m : Monitor} {w : Watch} (h : m.Tracks (some w))
    (tick : Tick) (r : TickReading) :
    (m.onTick settings tick r).exitCall
        = (w.arrive tick r.now).decide settings r.evaluation
      ∧ (m.onTick settings tick r).monitor.Tracks
          (if ((w.arrive tick r.now).decide settings r.evaluation).isSome
            then none else some (w.arrive tick r.now)) := by
  obtain ⟨active, monitored, tracker, lastTickAt, last⟩ := m
  obtain ⟨rfl, rfl, ⟨t, rfl, hkeeps⟩, rfl⟩ := h
  have hkeeps' : Keeps (t.onTick tick).1 (w.arrive tick r.now) := by
    have hnote := hkeeps.onTick tick r.now
    exact ⟨hnote.callInstrument, hnote.putInstrument, hnote.call, hnote.put⟩
  have hraises := hkeeps.onTick_raises tick r.now
  have htracks : Monitor.Tracks
      { active := true, monitored := some w.monitored,
        tracker := some (t.onTick tick).1,
        lastTickAt := if tick.instrument = w.monitored.callInstrument
            ∨ tick.instrument = w.monitored.putInstrument then some r.now
          else w.lastTickAt,
        lastCombinedPremium := last }
      (some (w.arrive tick r.now)) := by
    refine ⟨rfl, ?_, ⟨_, rfl, hkeeps'⟩, rfl⟩
    exact congrArg some (note_monitored w _ _ _).1.symm
  unfold Monitor.onTick
  dsimp only
  cases hresult : (t.onTick tick).2 with
  | error e =>
      have hbad := (hraises.1 ⟨e, hresult⟩).2
      exact raised_tracks htracks hbad e r.evaluation
  | ok snapshot => exact evaluateCurrent_tracks htracks r.evaluation

theorem due_eq (settings : MonitorSettings) {m : Monitor} {w : Watch}
    (h : m.Tracks (some w)) (r : PollReading) :
    m.isMarketDataStale settings r.connected r.checkedAt = w.Due settings r := by
  have hrefreshed := h.2.2.2
  unfold Monitor.isMarketDataStale Watch.Due
  exact hrefreshed ▸ rfl

/-- A poll first takes its prices in; it then raises over a premium it
refuses, or evaluates. -/
theorem pollAndCheck_cases (ctx : StrategyContext)
    (settings : MonitorSettings) {m : Monitor} {w : Watch}
    (h : m.Tracks (some w)) (r : PollReading) :
    ∃ m' : Monitor, m'.Tracks (some (observe ctx settings w (.poll r)))
      ∧ ((∃ e, (observe ctx settings w (.poll r)).Refused
            ∧ m.pollAndCheck settings r = { monitor := m', raised := some e })
        ∨ m.pollAndCheck settings r
            = m'.evaluateCurrent settings r.evaluation) := by
  have hdue := due_eq settings h r
  obtain ⟨active, monitored, tracker, lastTickAt, last⟩ := m
  obtain ⟨rfl, rfl, ⟨t, rfl, hkeeps⟩, rfl⟩ := id h
  unfold Monitor.pollAndCheck
  dsimp only [observe]
  rw [if_pos rfl, hdue]
  by_cases hd : w.Due settings r
  · simp only [if_pos hd]
    unfold Monitor.pollPrices
    cases hltps : r.ltps with
    | error e => exact ⟨_, h, .inr rfl⟩
    | ok ltps =>
        dsimp only
        obtain ⟨hkeeps', hraises⟩ := hkeeps.feedBoth ltps r.polledAt
        obtain ⟨hm, hl⟩ := refresh_monitored w ltps r.polledAt
        have htracks : Monitor.Tracks
            { active := true, monitored := some w.monitored,
              tracker := some (Monitor.feedBoth t w.monitored ltps).1,
              lastTickAt := w.lastTickAt, lastCombinedPremium := last }
            (some (w.refresh ltps r.polledAt)) :=
          ⟨rfl, congrArg some hm.symm, ⟨_, rfl, hkeeps'⟩, hl.symm⟩
        refine ⟨_, htracks, ?_⟩
        cases hresult : (Monitor.feedBoth t w.monitored ltps).2 with
        | error e => exact .inl ⟨e, hraises ⟨e, hresult⟩, rfl⟩
        | ok u => exact .inr rfl
  · simp only [if_neg hd]
    exact ⟨_, h, .inr rfl⟩

theorem pollAndCheck_tracks {m : Monitor} {w : Watch}
    (h : m.Tracks (some w)) (r : PollReading) :
    (m.pollAndCheck settings r).exitCall
        = (observe ctx settings w (.poll r)).decide settings r.evaluation
      ∧ (m.pollAndCheck settings r).monitor.Tracks
          (if ((observe ctx settings w (.poll r)).decide settings
              r.evaluation).isSome
            then none else some (observe ctx settings w (.poll r))) := by
  obtain ⟨m', htracks, ⟨e, hbad, heq⟩ | heq⟩ :=
    pollAndCheck_cases ctx settings h r
  · rw [heq]
    exact raised_tracks htracks hbad e r.evaluation
  · rw [heq]
    exact evaluateCurrent_tracks htracks r.evaluation

theorem pollAndCheck_premium {m : Monitor} {w : Watch}
    (h : m.Tracks (some w)) (r : PollReading)
    (hpriced : ¬ (observe ctx settings w (.poll r)).Refused) :
    (m.pollAndCheck settings r).monitor.lastCombinedPremium
      = (observe ctx settings w (.poll r)).premium := by
  obtain ⟨m', htracks, ⟨e, hbad, -⟩ | heq⟩ :=
    pollAndCheck_cases ctx settings h r
  · exact absurd hbad hpriced
  · rw [heq]
    exact evaluateCurrent_premium htracks hpriced r.evaluation

/-- What a watched call decides is what the latch releases on it. -/
private theorem latch_watched {w : Watch} {e : MonitorEvent}
    {st : MonitorStep} (he : effect ctx e = .watch)
    (hcall : st.exitCall = fires settings (observe ctx settings w e) e)
    (htracks : st.monitor.Tracks
      (if (fires settings (observe ctx settings w e) e).isSome then none
        else some (observe ctx settings w e))) :
    st.exitCall = ((latch ctx settings).step (some w) e).2
      ∧ st.monitor.Tracks ((latch ctx settings).step (some w) e).1 := by
  cases hfires : fires settings (observe ctx settings w e) e with
  | none =>
      rw [hfires] at hcall htracks
      rw [Latch.step_of_quiet (l := latch ctx settings) he hfires]
      exact ⟨hcall, htracks⟩
  | some r =>
      rw [hfires] at hcall htracks
      rw [Latch.step_of_fires (l := latch ctx settings) he hfires]
      exact ⟨hcall, htracks⟩

/-- One call: the monitor asks for the exit the abstract one releases,
and goes where it goes. -/
theorem step_tracks {m : Monitor} {s : Option Watch} (h : m.Tracks s)
    (e : MonitorEvent) :
    (m.step ctx settings e).exitCall = ((latch ctx settings).step s e).2
      ∧ (m.step ctx settings e).monitor.Tracks
          ((latch ctx settings).step s e).1 := by
  cases e with
  | attach db scan =>
      show (Monitor.attach m (found ctx db scan)).1.exitCall = _ ∧ _
      cases hfound : found ctx db scan with
      | error e =>
          cases s <;> simpa [Latch.step, latch, effect, observe, fires, step,
            hfound, Monitor.attach] using h
      | ok result =>
          cases result with
          | error outcome =>
              cases s <;> simpa [Latch.step, latch, effect, observe, fires,
                step, hfound, Monitor.attach] using h
          | ok p =>
              by_cases hsame : p.callInstrument = p.putInstrument
              · cases s with
                | none =>
                    simp only [Latch.step, latch, effect, step, hfound, hsame,
                      Monitor.attach, if_true, dite_true]
                    exact ⟨trivial, h⟩
                | some w =>
                    obtain ⟨hactive, -, ⟨t, ht, hkeeps⟩, htick⟩ := h
                    simp only [Latch.step, latch, effect, observe, fires, step,
                      hfound, hsame, Monitor.attach, if_true, dite_true]
                    exact ⟨trivial, hactive, rfl,
                      ⟨t, ht, hkeeps.callInstrument, hkeeps.putInstrument,
                        hkeeps.call, hkeeps.put⟩, htick⟩
              · simp only [Latch.step, latch, effect, step, hfound, hsame,
                  Monitor.attach, if_false, dite_false]
                exact ⟨trivial, rfl, rfl, ⟨_, rfl, rfl, rfl, rfl, rfl⟩, rfl⟩
  | tick tick r =>
      cases s with
      | none =>
          have hm : m.onTick settings tick r = { monitor := m } := by
            unfold Monitor.onTick
            rw [h]
          simp only [step, hm]
          exact ⟨rfl, h⟩
      | some w =>
          obtain ⟨hcall, htracks⟩ := onTick_tracks h tick r
          exact latch_watched rfl hcall htracks
  | poll r =>
      cases s with
      | none =>
          have hm : m.pollAndCheck settings r = { monitor := m } := by
            unfold Monitor.pollAndCheck
            rw [h]
            rfl
          simp only [step, hm]
          exact ⟨rfl, h⟩
      | some w =>
          obtain ⟨hcall, htracks⟩ := pollAndCheck_tracks h r
          exact latch_watched rfl hcall htracks
  | stop =>
      cases hactive : m.active with
      | true => simp [step, Monitor.stop, hactive, Latch.step, latch, effect, Tracks]
      | false => simp [step, Monitor.stop, hactive, Latch.step, latch, effect, Tracks]

end Monitor

end AlgoPlatform
