/-
What the monitor does over any sequence of its calls.

`exit_firstFiring` is the latch: one exit for each attach, at the first
evaluation a trigger holds at. `poll_priceIndependent_iff` says when the
two triggers that need no price are blocked all the same.
-/
import Mathlib.Tactic.Ring
import AlgoPlatform.Model.Premium
import AlgoPlatform.Model.Runs
import AlgoPlatform.Proofs.Monitor

open Basis

namespace AlgoPlatform.Monitor

variable {ctx : StrategyContext} {settings : MonitorSettings}

-- ================================================================ runs

/-- The exit the last call of a sequence asks for, from a monitor that
has not been attached yet. -/
def exitOn (ctx : StrategyContext) (settings : MonitorSettings)
    (history : List MonitorEvent) (e : MonitorEvent) : Option ExitReason :=
  ((Monitor.after ctx settings {} history).step ctx settings e).exitCall

theorem after_append (m : Monitor) (es es' : List MonitorEvent) :
    m.after ctx settings (es ++ es')
      = (m.after ctx settings es).after ctx settings es' :=
  List.foldl_append

/-- After any sequence of calls the monitor is where the abstract one
is. -/
theorem after_tracks (ctx : StrategyContext) (settings : MonitorSettings)
    (history : List MonitorEvent) :
    (Monitor.after ctx settings {} history).Tracks
      ((latch ctx settings).after history) := by
  induction history using List.reverseRecOn with
  | nil => exact rfl
  | append_singleton history e ih =>
      rw [after_append, Latch.after_append]
      exact (step_tracks ih e).2

theorem exitOn_eq (history : List MonitorEvent) (e : MonitorEvent) :
    exitOn ctx settings history e
      = (latch ctx settings).released history e :=
  (step_tracks (after_tracks ctx settings history) e).1

/-- The call is an attach that begins to monitor a position. -/
def Begins (ctx : StrategyContext) : MonitorEvent → Prop
  | .attach db scan =>
      ∀ m : Monitor, (m.attach (found ctx db scan)).2 = some .monitoring
  | _ => False

theorem begins_of_arm {e : MonitorEvent} {w : Watch}
    (h : effect ctx e = .arm w) : Begins ctx e := by
  cases e with
  | attach db scan =>
      intro m
      cases hfound : found ctx db scan with
      | error e => simp [effect, hfound] at h
      | ok result =>
          cases result with
          | error outcome => simp [effect, hfound] at h
          | ok p =>
              by_cases hsame : p.callInstrument = p.putInstrument
              · simp [effect, hfound, hsame] at h
              · simp [Monitor.attach, hsame]
  | tick tick r => cases h
  | poll r => cases h
  | stop => cases h

/-- After a call of the exit, or a stop, another call of the exit takes
an attach that begins anew. -/
theorem begins_between {history mid : List MonitorEvent} {x e : MonitorEvent}
    {r : ExitReason}
    (hspent : (latch ctx settings).after (history ++ [x]) = none)
    (h : exitOn ctx settings (history ++ x :: mid) e = some r) :
    ∃ a ∈ mid, Begins ctx a := by
  by_contra hno
  have hnone : ∀ a ∈ mid, ∀ f, (latch ctx settings).effect a ≠ .arm f := by
    intro a ha f harm
    exact hno ⟨a, ha, begins_of_arm harm⟩
  have hafter := Latch.after_of_spent hspent hnone
  rw [List.append_assoc, List.singleton_append] at hafter
  rw [exitOn_eq, Latch.released_of_spent hafter] at h
  cases h

-- ============================================================== levels

/-- A column read back is within half its last digit of what was
written. -/
theorem numeric4_bounds {x : ℚ} (hx : 0 ≤ x) :
    x - 1 / 20000 < numeric4 x ∧ numeric4 x ≤ x + 1 / 20000 := by
  have hbounds := round_bounds (by norm_num : 0 < 10000) hx
  norm_num at hbounds
  exact hbounds

/-- Thresholds whose distance from the entry premium exceeds half the
last digit of their columns do not hold at the entry premium. -/
theorem levels_quiet {premium targetPct slPct cutoff now : ℚ} {halted : Bool}
    {t : PremiumThresholds}
    (h : computeThresholds premium targetPct slPct = .ok t)
    (htarget : 1 / 20000 < premium * targetPct)
    (hstop : 1 / 20000 < premium * slPct) (reason : ExitReason)
    (hprice : reason = .stoploss ∨ reason = .target) :
    reason.Holds cutoff now halted (some premium)
      (some (numeric4 t.targetPremium)) (some (numeric4 t.stoplossPremium))
      = false := by
  obtain ⟨hpos, ht, hs, hlevel, hlevel'⟩ := computeThresholds_levels h
  have hlow := (numeric4_bounds (x := t.targetPremium) (by
    rw [hlevel]
    exact mul_nonneg hpos.le (by linarith))).2
  have hhigh := (numeric4_bounds (x := t.stoplossPremium) (by
    rw [hlevel']
    exact mul_nonneg hpos.le (by linarith))).1
  rcases hprice with rfl | rfl
  · show decide (numeric4 t.stoplossPremium ≤ premium) = false
    rw [decide_eq_false_iff_not, not_le]
    rw [hlevel'] at hhigh ⊢
    linarith
  · show decide (premium ≤ numeric4 t.targetPremium) = false
    rw [decide_eq_false_iff_not, not_le]
    rw [hlevel] at hlow ⊢
    linarith

-- ============================================================ a sample

namespace Sample

open SampleDay

/-- The cutoff at 15:15, a budget of five seconds. -/
def watchSettings : MonitorSettings where
  hardCutoffTime := 54900
  maxStaleness := 5
  maxStaleness_pos := by decide +kernel

def instrument (optionType : OptionType) : InstrumentIdentifier :=
  { exchange := .nfo, tradingsymbol := (contract optionType).tradingsymbol }

/-- The sample day's OPEN position, as attach finds it. -/
def monitored : MonitoredPosition where
  positionId := 0
  callInstrument := instrument .ce
  putInstrument := instrument .pe
  targetPremium := some 90
  stoplossPremium := some 225

def attach : MonitorEvent := .attach open_.db []

def reading (nowIstTime : ℚ) (halted : Bool) : EvaluationReading :=
  { nowIstTime, halted := .ok halted }

/-- A leg's tick, at ten in the morning. -/
def tick (optionType : OptionType) (lastPrice now : ℚ) : MonitorEvent :=
  .tick { instrument := instrument optionType, lastPrice }
    { now, evaluation := reading 36000 false }

/-- A poll at one instant, and what the gateway would answer it. -/
def poll (now call put : ℚ) (evaluation : EvaluationReading) : PollReading where
  connected := .ok true
  checkedAt := now
  ltps := .ok [(instrument .ce, call), (instrument .pe, put)]
  polledAt := now
  evaluatedAt := now
  evaluation

end Sample

-- ======================================================= one exit each

/-- One exit for each attach, at the first evaluation at which a trigger
holds. -/
theorem exit_firstFiring (ctx : StrategyContext) (settings : MonitorSettings)
    (history : List MonitorEvent) :
    (∀ e r, exitOn ctx settings history e = some r
      ↔ (latch ctx settings).FirstFiring history e r)
    ∧ (∀ e r mid e' r', exitOn ctx settings history e = some r →
        exitOn ctx settings (history ++ e :: mid) e' = some r' →
        ∃ a ∈ mid, Begins ctx a)
    ∧ (∀ mid e r, exitOn ctx settings (history ++ .stop :: mid) e = some r →
        ∃ a ∈ mid, Begins ctx a)
    ∧ ∀ (premium targetPct slPct : ℚ) (t : PremiumThresholds) (cutoff now : ℚ)
        (halted : Bool), computeThresholds premium targetPct slPct = .ok t →
        1 / 20000 < premium * targetPct → 1 / 20000 < premium * slPct →
        ∀ reason : ExitReason, reason = .stoploss ∨ reason = .target →
          reason.Holds cutoff now halted (some premium)
            (some (numeric4 t.targetPremium))
            (some (numeric4 t.stoplossPremium)) = false := by
  refine ⟨?_, ?_, ?_, ?_⟩
  · intro e r
    rw [exitOn_eq]
    exact Latch.released_iff
  · intro e r mid e' r' h h'
    rw [exitOn_eq] at h
    exact begins_between (Latch.after_of_released h) h'
  · intro mid e r h
    exact begins_between (Latch.after_of_disarm rfl) h
  · intro premium targetPct slPct t cutoff now halted h htarget hstop reason
    exact levels_quiet h htarget hstop reason

namespace Sample

/-- The sample day's context, with a target of four hundredths of a
percent. -/
def fineCtx : StrategyContext :=
  { SampleDay.ctx with
    config :=
      { SampleDay.ctx.config with
        targetPct := 1 / 2500, targetPct_range := by decide +kernel } }

/-- An entry whose legs fill at five paise each. -/
def cheapEntry : Start where
  job := .enter SampleDay.inputs
  moves := [SampleDay.still, SampleDay.still]
    ++ SampleDay.legMoves (SampleDay.snapshot "A1" "E0-240704-CE" .sell .ce
        .complete SampleDay.lot (some (1 / 20)))
    ++ SampleDay.legMoves (SampleDay.snapshot "A2" "E0-240704-PE" .sell .pe
        .complete SampleDay.lot (some (1 / 20)))
    ++ [SampleDay.still]

/-- What the cheap entry leaves. -/
def cheapDb : Db := (SampleDay.morning.session fineCtx cheapEntry).db

end Sample

/-- A premium of ten paise with that target: the level 0.09996 is kept as
0.1, and the exit is called on it at the entry premium. -/
theorem exit_atEntryPremium :
    Sample.cheapDb.rows.positions.map
        (fun p => (p.state, p.combinedEntryPremium, p.targetPremium))
      = [(.open, some (1 / 10), some (1 / 10))]
    ∧ exitOn Sample.fineCtx Sample.watchSettings
        [.attach Sample.cheapDb [], Sample.tick .ce (1 / 20) 0]
        (Sample.tick .pe (1 / 20) 1) = some .target := by
  decide +kernel

/-- The sample day: quiet at the entry premium of 180, an exit on the
stoploss at 230. -/
theorem exit_firstFiring_sample :
    (latch SampleDay.ctx Sample.watchSettings).FirstFiring
      [Sample.attach, Sample.tick .ce 100 0, Sample.tick .pe 80 1]
      (Sample.tick .pe 130 2) .stoploss
    ∧ ExitReason.target.Holds 54900 36000 false (some 180) (some (numeric4 90))
        (some (numeric4 225)) = false := by
  obtain ⟨hfirst, -, -, hlevels⟩ :=
    exit_firstFiring SampleDay.ctx Sample.watchSettings
      [Sample.attach, Sample.tick .ce 100 0, Sample.tick .pe 80 1]
  constructor
  · exact (hfirst _ _).1 (by decide +kernel)
  · obtain ⟨t, ht⟩ := computeThresholds_isOk (show (0 : ℚ) < 180 by norm_num)
      (show (0 : ℚ) < 1 / 2 ∧ (1 / 2 : ℚ) < 1 by norm_num)
      (show (0 : ℚ) < 1 / 4 ∧ (1 / 4 : ℚ) < 1 by norm_num)
    obtain ⟨-, -, -, htarget, hstop⟩ := computeThresholds_levels ht
    have hquiet := hlevels 180 (1 / 2) (1 / 4) t 54900 36000 false ht
      (by norm_num) (by norm_num) .target (.inr rfl)
    rw [htarget, hstop] at hquiet
    norm_num at hquiet ⊢
    exact hquiet

-- ============================================= price-independent exits

theorem active_iff (history : List MonitorEvent) :
    (Monitor.after ctx settings {} history).active = true
      ↔ ∃ w, (latch ctx settings).after history = some w := by
  have htracks := after_tracks ctx settings history
  cases hs : (latch ctx settings).after history with
  | none =>
      rw [hs] at htracks
      simp [show (Monitor.after ctx settings {} history).active = false
        from htracks]
  | some w =>
      rw [hs] at htracks
      simp [htracks.1]

/-- What a poll asks for, while the monitor watches. -/
theorem exitOn_poll {history : List MonitorEvent} {w : Watch}
    (hw : (latch ctx settings).after history = some w) (r : PollReading) :
    exitOn ctx settings history (.poll r)
      = (observe ctx settings w (.poll r)).decide settings r.evaluation := by
  rw [exitOn_eq]
  unfold Latch.released
  rw [hw]
  cases hfires :
      (observe ctx settings w (.poll r)).decide settings r.evaluation with
  | none =>
      rw [Latch.step_of_quiet (l := latch ctx settings) (f := w) (e := .poll r)
        rfl hfires]
  | some reason =>
      rw [Latch.step_of_fires (l := latch ctx settings) (f := w) (e := .poll r)
        rfl hfires]

/-- A trigger no higher one comes before is what an evaluation decides,
unless it raises. -/
private theorem decide_eq_iff {w : Watch} {r : EvaluationReading}
    {reason : ExitReason}
    (hfirst : ∀ halted, r.halted = .ok halted →
      triggers.find? (ExitReason.Holds settings.hardCutoffTime r.nowIstTime
        halted w.premium w.monitored.targetPremium w.monitored.stoplossPremium)
      = some reason) :
    w.decide settings r = some reason
      ↔ (∃ halted, r.halted = .ok halted) ∧ ¬ w.Refused := by
  unfold Watch.decide
  cases hhalted : r.halted with
  | error e => simp
  | ok halted =>
      by_cases hbad : w.Refused
      · simp [hbad]
      · simp [hbad, hfirst halted hhalted]

/-- A poll past the cutoff exits on it, and one that reads a halt before
the cutoff exits on that, exactly if the halt flag can be read and the
prices then known make no premium that is refused. -/
theorem poll_priceIndependent_iff (ctx : StrategyContext)
    (settings : MonitorSettings) (history : List MonitorEvent)
    (hactive : (Monitor.after ctx settings {} history).active = true) :
    ∃ w, (latch ctx settings).after history = some w ∧ ∀ r : PollReading,
      (settings.hardCutoffTime ≤ r.evaluation.nowIstTime →
        (exitOn ctx settings history (.poll r) = some .timeout
          ↔ (∃ halted, r.evaluation.halted = .ok halted)
            ∧ ¬ (observe ctx settings w (.poll r)).Refused))
      ∧ (r.evaluation.nowIstTime < settings.hardCutoffTime →
          r.evaluation.halted = .ok true →
        (exitOn ctx settings history (.poll r) = some .killSwitch
          ↔ ¬ (observe ctx settings w (.poll r)).Refused)) := by
  obtain ⟨w, hw⟩ := (active_iff history).1 hactive
  refine ⟨w, hw, fun r => ⟨?_, ?_⟩⟩
  · intro hcutoff
    rw [exitOn_poll hw]
    apply decide_eq_iff
    intro halted _
    simp [triggers, ExitReason.Holds, hcutoff]
  · intro hcutoff hhalted
    rw [exitOn_poll hw]
    rw [decide_eq_iff]
    · simp [hhalted]
    · intro halted h
      rw [hhalted] at h
      cases h
      simp [triggers, ExitReason.Holds, not_le.2 hcutoff, List.find?_cons]

/-- A poll past the cutoff, with trading halted, is answered a negative
call price: the put's is known, so the poll raises and asks for nothing. -/
theorem poll_blocked :
    (Monitor.after SampleDay.ctx Sample.watchSettings {}
        [Sample.attach, Sample.tick .pe 80 0]).active = true
    ∧ exitOn SampleDay.ctx Sample.watchSettings
        [Sample.attach, Sample.tick .pe 80 0]
        (.poll (Sample.poll 6 (-1) 80 (Sample.reading 54900 true))) = none
    ∧ ((Monitor.after SampleDay.ctx Sample.watchSettings {}
        [Sample.attach, Sample.tick .pe 80 0]).step SampleDay.ctx
          Sample.watchSettings
          (.poll (Sample.poll 6 (-1) 80 (Sample.reading 54900 true)))).raised
      = some (.value "ce_price must be non-negative") := by
  decide +kernel

/-- The same poll answered a price of 100 exits on the cutoff. -/
theorem poll_priceIndependent_sample :
    exitOn SampleDay.ctx Sample.watchSettings [Sample.attach, Sample.tick .pe 80 0]
      (.poll (Sample.poll 6 100 80 (Sample.reading 54900 true)))
      = some .timeout := by
  obtain ⟨w, hw, hpoll⟩ := poll_priceIndependent_iff SampleDay.ctx
    Sample.watchSettings [Sample.attach, Sample.tick .pe 80 0] (by decide +kernel)
  have hknown : (latch SampleDay.ctx Sample.watchSettings).after
      [Sample.attach, Sample.tick .pe 80 0]
      = some { Watch.fresh Sample.monitored with
                 put := some ⟨80, 0⟩, lastTickAt := some 0 } := by
    decide +kernel
  rw [hknown] at hw
  cases hw
  exact ((hpoll _).1 (by decide +kernel)).2 ⟨⟨true, rfl⟩, by decide +kernel⟩

end AlgoPlatform.Monitor
