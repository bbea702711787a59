/-
When an exit decision rests on prices of the last seconds.

# What a poll evaluates on

The monitor keeps the last price it was given for each leg, and one stamp
for both: when a tick of either leg last arrived. A poll asks the gateway
for prices only if that stamp is too old; otherwise it evaluates on the
two prices it has, and the stamp vouches for the leg that ticked last, not
for the other.

# Read off the stream

`Gives` says which calls of the monitor give a leg its price, and as of
when, by the calls before them and nothing of the monitor's state: the
leg's own ticks, and the polls that ask (`Asks`). A poll that asks feeds
the call first; if the tracker refuses the premium this makes, the poll
ends there and the put keeps the price it had (`Reaches`). `Kept` ties
the watch to this: a leg's price was obtained when the last of these
calls gave it. The one price that may be older is a negative one of the
put, and on that no premium is evaluated.

`prices_fresh_iff` then says which streams are evaluated on fresh prices:
those in which, at each evaluation, the answer is fresh if the poll asked,
and else each leg was given its price within the budget (`Timely`).
-/
import AlgoPlatform.Basis.Since
import AlgoPlatform.Proofs.MonitorRuns

open Basis

namespace AlgoPlatform.Monitor

variable {ctx : StrategyContext} {settings : MonitorSettings}

-- =============================================== statement vocabulary

/-- A tick, or a poll that finds the gateway connected and, asked for
prices, would be given one for both legs. -/
def Observes (p : MonitoredPosition) : MonitorEvent → Prop
  | .tick _ _ => True
  | .poll r => r.connected = .ok true ∧ ∃ ltps, r.ltps = .ok ltps
      ∧ (ltps.lookup p.callInstrument).isSome
      ∧ (ltps.lookup p.putInstrument).isSome
  | .attach _ _ | .stop => False

/-- Both prices known were obtained within the staleness budget before
an instant. -/
def Fresh (settings : MonitorSettings) (w : Watch) (now : ℚ) : Prop :=
  (∀ q ∈ w.call, now - q.obtainedAt ≤ settings.maxStaleness)
    ∧ ∀ q ∈ w.put, now - q.obtainedAt ≤ settings.maxStaleness

instance (w : Watch) (now : ℚ) : Decidable (Fresh settings w now) :=
  inferInstanceAs (Decidable (_ ∧ _))

/-- The instrument of a leg. -/
def instrumentFor (p : MonitoredPosition) : OptionType → InstrumentIdentifier
  | .ce => p.callInstrument
  | .pe => p.putInstrument

/-- When a call brings a tick of either leg, if it does. -/
def legTick (p : MonitoredPosition) : MonitorEvent → Option ℚ
  | .tick tick r =>
      if tick.instrument = p.callInstrument
        ∨ tick.instrument = p.putInstrument then some r.now
      else none
  | _ => none

/-- When a tick of either leg last arrived. -/
def lastLegTick (p : MonitoredPosition) (past : List MonitorEvent) :
    Option ℚ :=
  (past.filterMap (legTick p)).getLast?

/-- A poll of a connected gateway asks for prices: no tick of a leg has
arrived yet, or the last one is too old. -/
def Asks (settings : MonitorSettings) (p : MonitoredPosition)
    (past : List MonitorEvent) (r : PollReading) : Prop :=
  ∀ last ∈ lastLegTick p past, settings.maxStaleness < r.checkedAt - last

instance (p : MonitoredPosition) (past : List MonitorEvent) (r : PollReading) :
    Decidable (Asks settings p past r) :=
  inferInstanceAs (Decidable (∀ last ∈ lastLegTick p past, _))

/-- The call brings a price of the leg, as of then: a tick of it, or a
poll that asks. -/
def Brings (settings : MonitorSettings) (p : MonitoredPosition)
    (type : OptionType) (past : List MonitorEvent) : MonitorEvent → ℚ → Prop
  | .tick tick r, t => tick.instrument = instrumentFor p type ∧ t = r.now
  | .poll r, t => Asks settings p past r ∧ t = r.polledAt
  | .attach _ _, _ | .stop, _ => False

/-- Of a poll that asks: its answer for the put is reached, since no price
of the put is known yet or the answer for the call is not negative. -/
def Reaches (settings : MonitorSettings) (p : MonitoredPosition)
    (past : List MonitorEvent) : MonitorEvent → Prop
  | .poll r => (∀ t, ¬ Latest (Brings settings p .pe) past t)
      ∨ ∀ ltps, r.ltps = .ok ltps → ∀ c ∈ ltps.lookup p.callInstrument, 0 ≤ c
  | _ => True

/-- The call gives the leg its price, as of then. -/
def Gives (settings : MonitorSettings) (p : MonitoredPosition)
    (type : OptionType) (past : List MonitorEvent) (e : MonitorEvent)
    (t : ℚ) : Prop :=
  Brings settings p type past e t ∧ (type = .pe → Reaches settings p past e)

/-- The poll's evaluation comes within the budget of its own answer if it
asks for prices, and otherwise of the calls that last gave each leg its
price. -/
def Timely (settings : MonitorSettings) (p : MonitoredPosition)
    (past : List MonitorEvent) (r : PollReading) : Prop :=
  if Asks settings p past r then
    r.evaluatedAt - r.polledAt ≤ settings.maxStaleness
  else ∀ type, ∃ t, Latest (Gives settings p type) past t
    ∧ r.evaluatedAt - t ≤ settings.maxStaleness

-- ============================================================ the watch

/-- The watch keeps its prices by the instruments of the position it
watches. -/
structure Aligned (p : MonitoredPosition) (w : Watch) : Prop where
  monitored : w.monitored = p
  callInstrument : w.callInstrument = p.callInstrument
  putInstrument : w.putInstrument = p.putInstrument

-- ============================================================ the stream

/-- When a price was obtained. -/
def obtained (q : Option Quote) : Option ℚ := q.map (·.obtainedAt)

/-- The watch holds what the stream since the attach gave it. -/
structure Kept (settings : MonitorSettings) (p : MonitoredPosition)
    (past : List MonitorEvent) (w : Watch) : Prop where
  aligned : Aligned p w
  tick : w.lastTickAt = lastLegTick p past
  call : ∀ t, obtained w.call = some t ↔ Latest (Gives settings p .ce) past t
  put : (∃ q ∈ w.put, q.price < 0)
    ∨ ∀ t, obtained w.put = some t ↔ Latest (Gives settings p .pe) past t
  known : w.put = none ↔ ∀ t, ¬ Latest (Brings settings p .pe) past t

variable {p : MonitoredPosition} {past : List MonitorEvent} {w : Watch}

theorem lastLegTick_snoc (e : MonitorEvent) :
    lastLegTick p (past ++ [e]) = (legTick p e).or (lastLegTick p past) := by
  unfold lastLegTick
  cases htick : legTick p e with
  | none => simp [List.filterMap_append, htick]
  | some t => simp [List.filterMap_append, htick]

theorem kept_fresh (p : MonitoredPosition) :
    Kept settings p [] (Watch.fresh p) where
  aligned := ⟨rfl, rfl, rfl⟩
  tick := rfl
  call := fun _ => ⟨nofun, fun h => absurd h latest_nil⟩
  put := .inr fun _ => ⟨nofun, fun h => absurd h latest_nil⟩
  known := ⟨fun _ _ => latest_nil, fun _ => rfl⟩

/-- A call that gives the leg no price. -/
private theorem gives_none {type : OptionType} {e : MonitorEvent}
    (h : ∀ t, ¬ Brings settings p type past e t) (t : ℚ) :
    Latest (Gives settings p type) (past ++ [e]) t
      ↔ Latest (Gives settings p type) past t :=
  latest_snoc_none fun t' hgives => h t' hgives.1

/-- What a poll is due for can be read off the stream. -/
theorem Kept.due_iff (h : Kept settings p past w) {r : PollReading}
    (hconnected : r.connected = .ok true) :
    w.Due settings r = true ↔ Asks settings p past r := by
  unfold Watch.Due Asks
  rw [hconnected, h.tick]
  cases lastLegTick p past with
  | none => simp
  | some last => simp

/-- A tick is taken in for the leg it is of. -/
theorem Aligned.arrive_eq (h : Aligned p w) (tick : Tick) (now : ℚ) :
    w.arrive tick now
      = if tick.instrument = p.callInstrument then
          { w with call := some ⟨tick.lastPrice, now⟩, lastTickAt := some now }
        else if tick.instrument = p.putInstrument then
          { w with put := some ⟨tick.lastPrice, now⟩, lastTickAt := some now }
        else w := by
  unfold Watch.arrive Watch.note
  simp only [h.callInstrument, h.putInstrument]
  rw [h.monitored]
  by_cases hcall : tick.instrument = p.callInstrument
  · rw [if_pos hcall, if_pos (.inl hcall), if_pos hcall]
  · by_cases hput : tick.instrument = p.putInstrument
    · rw [if_neg hcall, if_pos hput, if_pos (.inr hput), if_neg hcall,
        if_pos hput]
    · rw [if_neg hcall, if_neg hput, if_neg (not_or.2 ⟨hcall, hput⟩),
        if_neg hcall, if_neg hput]

/-- A tick of the call. -/
private theorem Kept.tick_call (h : Kept settings p past w)
    (hdistinct : p.callInstrument ≠ p.putInstrument) {tick : Tick}
    (hleg : tick.instrument = p.callInstrument) (r : TickReading) :
    Kept settings p (past ++ [.tick tick r])
      { w with call := some ⟨tick.lastPrice, r.now⟩,
               lastTickAt := some r.now } := by
  have hbrings : ∀ t, ¬ Brings settings p .pe past (.tick tick r) t :=
    fun t hb => hdistinct (hleg.symm.trans hb.1)
  refine ⟨⟨h.aligned.monitored, h.aligned.callInstrument,
    h.aligned.putInstrument⟩, ?_, fun t => ?_, ?_, ?_⟩
  · rw [lastLegTick_snoc, legTick, if_pos (.inl hleg)]
    rfl
  · rw [latest_snoc_of (b := r.now) fun t' => ?_]
    · exact ⟨fun heq => (Option.some.inj heq).symm, fun heq => by rw [heq]; rfl⟩
    · exact ⟨fun hg => hg.1.2, fun heq => ⟨⟨hleg, heq⟩, nofun⟩⟩
  · exact h.put.imp_right fun hput t => (hput t).trans (gives_none hbrings t).symm
  · rw [h.known]
    exact forall_congr' fun t => not_congr (latest_snoc_none hbrings).symm

/-- A tick of the put. -/
private theorem Kept.tick_put (h : Kept settings p past w)
    (hdistinct : p.callInstrument ≠ p.putInstrument) {tick : Tick}
    (hleg : tick.instrument = p.putInstrument) (r : TickReading) :
    Kept settings p (past ++ [.tick tick r])
      { w with put := some ⟨tick.lastPrice, r.now⟩,
               lastTickAt := some r.now } := by
  have hbrings : ∀ t, ¬ Brings settings p .ce past (.tick tick r) t :=
    fun t hb => hdistinct (hb.1.symm.trans hleg)
  have hput : ∀ t, Brings settings p .pe past (.tick tick r) t ↔ t = r.now :=
    fun t => ⟨fun hb => hb.2, fun heq => ⟨hleg, heq⟩⟩
  refine ⟨⟨h.aligned.monitored, h.aligned.callInstrument,
    h.aligned.putInstrument⟩, ?_, fun t => ?_, .inr fun t => ?_, ?_⟩
  · rw [lastLegTick_snoc, legTick, if_pos (.inr hleg)]
    rfl
  · exact (h.call t).trans (gives_none hbrings t).symm
  · rw [latest_snoc_of (b := r.now) fun t' => ?_]
    · exact ⟨fun heq => (Option.some.inj heq).symm, fun heq => by rw [heq]; rfl⟩
    · exact ⟨fun hg => hg.1.2, fun heq => ⟨⟨hleg, heq⟩, fun _ => trivial⟩⟩
  · exact ⟨nofun, fun hnone => absurd ((latest_snoc_of hput).2 rfl)
      (hnone r.now)⟩

/-- A tick of another instrument. -/
private theorem Kept.tick_other (h : Kept settings p past w) {tick : Tick}
    (hcall : tick.instrument ≠ p.callInstrument)
    (hput : tick.instrument ≠ p.putInstrument) (r : TickReading) :
    Kept settings p (past ++ [.tick tick r]) w := by
  have hbrings : ∀ type t, ¬ Brings settings p type past (.tick tick r) t := by
    intro type t hb
    cases type with
    | ce => exact hcall hb.1
    | pe => exact hput hb.1
  refine ⟨h.aligned, ?_, fun t => ?_, ?_, ?_⟩
  · rw [lastLegTick_snoc, legTick, if_neg (not_or.2 ⟨hcall, hput⟩), h.tick]
    rfl
  · exact (h.call t).trans (gives_none (hbrings .ce) t).symm
  · exact h.put.imp_right fun hold t =>
      (hold t).trans (gives_none (hbrings .pe) t).symm
  · rw [h.known]
    exact forall_congr' fun t => not_congr (latest_snoc_none (hbrings .pe)).symm

/-- A poll that does not ask. -/
private theorem Kept.poll_quiet (h : Kept settings p past w) {r : PollReading}
    (hasks : ¬ Asks settings p past r) :
    Kept settings p (past ++ [.poll r]) w := by
  have hbrings : ∀ type t, ¬ Brings settings p type past (.poll r) t :=
    fun _ _ hb => hasks hb.1
  refine ⟨h.aligned, ?_, fun t => ?_, ?_, ?_⟩
  · rw [lastLegTick_snoc, h.tick]
    rfl
  · exact (h.call t).trans (gives_none (hbrings .ce) t).symm
  · exact h.put.imp_right fun hold t =>
      (hold t).trans (gives_none (hbrings .pe) t).symm
  · rw [h.known]
    exact forall_congr' fun t => not_congr (latest_snoc_none (hbrings .pe)).symm

/-- The call's price is taken in from an answer that has one. -/
theorem Aligned.refreshCall_eq (h : Aligned p w)
    {ltps : List (InstrumentIdentifier × ℚ)} {c : ℚ}
    (hc : ltps.lookup p.callInstrument = some c) (now : ℚ) :
    w.refreshCall ltps now = { w with call := some ⟨c, now⟩ } := by
  unfold Watch.refreshCall Watch.noteIfAny Watch.note
  rw [h.monitored, hc]
  exact if_pos h.callInstrument.symm

/-- And then the put's, if the poll gets that far. -/
theorem Aligned.refresh_eq (h : Aligned p w)
    (hdistinct : p.callInstrument ≠ p.putInstrument)
    {ltps : List (InstrumentIdentifier × ℚ)} {c x : ℚ}
    (hc : ltps.lookup p.callInstrument = some c)
    (hx : ltps.lookup p.putInstrument = some x) (now : ℚ) :
    w.refresh ltps now
      = if ∃ q ∈ w.put, c < 0 ∨ q.price < 0 then
          { w with call := some ⟨c, now⟩ }
        else { w with call := some ⟨c, now⟩, put := some ⟨x, now⟩ } := by
  have hcut : w.CutShort ltps now ↔ ∃ q ∈ w.put, c < 0 ∨ q.price < 0 := by
    unfold Watch.CutShort Watch.IsLeg Watch.Refused
    rw [h.refreshCall_eq hc, h.monitored, hc, h.callInstrument]
    simp
  have hnotCall : ¬ p.putInstrument = w.callInstrument := by
    rw [h.callInstrument]
    exact hdistinct.symm
  unfold Watch.refresh
  simp only [hcut]
  rw [h.refreshCall_eq hc, h.monitored, hx]
  unfold Watch.noteIfAny Watch.note
  dsimp only
  rw [if_neg hnotCall, if_pos h.putInstrument.symm]

/-- A poll that asks: the call's price is as of its answer, and the put's
too, unless the poll ends before it. -/
private theorem Kept.poll_asks (h : Kept settings p past w)
    (hdistinct : p.callInstrument ≠ p.putInstrument) {r : PollReading}
    (hasks : Asks settings p past r)
    {ltps : List (InstrumentIdentifier × ℚ)} (hltps : r.ltps = .ok ltps)
    {c x : ℚ} (hc : ltps.lookup p.callInstrument = some c)
    (hx : ltps.lookup p.putInstrument = some x) :
    Kept settings p (past ++ [.poll r]) (w.refresh ltps r.polledAt) := by
  have hbrings : ∀ type t, Brings settings p type past (.poll r) t
      ↔ t = r.polledAt := fun _ _ => ⟨And.right, fun heq => ⟨hasks, heq⟩⟩
  have hcall : ∀ t, Latest (Gives settings p .ce) (past ++ [.poll r]) t
      ↔ t = r.polledAt := fun t => latest_snoc_of fun t' =>
    ⟨fun hg => hg.1.2, fun heq => ⟨⟨hasks, heq⟩, nofun⟩⟩
  have hreaches : Reaches settings p past (.poll r)
      ↔ w.put = none ∨ 0 ≤ c := by
    unfold Reaches
    dsimp only
    rw [h.known, hltps]
    simp [hc]
  have htick : w.lastTickAt = lastLegTick p (past ++ [.poll r]) := by
    rw [lastLegTick_snoc, h.tick]
    rfl
  have hstamp : ∀ t, some r.polledAt = some t ↔ t = r.polledAt :=
    fun t => ⟨fun heq => (Option.some.inj heq).symm, fun heq => by rw [heq]⟩
  have hnamed : ∀ {q q' : Option Quote}, Aligned p
      { w with call := q, put := q' } := fun {_ _} =>
    ⟨h.aligned.monitored, h.aligned.callInstrument, h.aligned.putInstrument⟩
  have hshown : ¬ ∀ t, ¬ Latest (Brings settings p .pe) (past ++ [.poll r]) t :=
    fun hnone => hnone r.polledAt ((latest_snoc_of (hbrings .pe)).2 rfl)
  rw [h.aligned.refresh_eq hdistinct hc hx]
  split_ifs with hcut
  · -- the poll ends with the call's price
    obtain ⟨q, hq, hneg⟩ := hcut
    have hsome : w.put ≠ none := fun hnone => by
      rw [hnone] at hq
      cases hq
    refine ⟨hnamed, htick, fun t => (hstamp t).trans (hcall t).symm, ?_,
      iff_of_false hsome hshown⟩
    by_cases hold : ∃ q ∈ w.put, q.price < 0
    · exact .inl hold
    · refine .inr fun t => (h.put.resolve_left hold t).trans
        (latest_snoc_none fun t' hg => ?_).symm
      have hc' := (hreaches.1 (hg.2 rfl)).resolve_left hsome
      exact hneg.elim (fun hlt => absurd hlt (not_lt.2 hc'))
        fun hlt => hold ⟨q, hq, hlt⟩
  · refine ⟨hnamed, htick, fun t => (hstamp t).trans (hcall t).symm,
      .inr fun t => (hstamp t).trans ?_, iff_of_false nofun hshown⟩
    refine (latest_snoc_of fun t' => ?_).symm
    refine ⟨fun hg => hg.1.2, fun heq => ⟨⟨hasks, heq⟩, fun _ => ?_⟩⟩
    rw [hreaches]
    cases hput : w.put with
    | none => exact .inl rfl
    | some q =>
        refine .inr (not_lt.1 fun hlt => hcut ?_)
        exact ⟨q, hput, .inl hlt⟩

/-- Each call keeps the watch to the stream. -/
theorem Kept.observe (h : Kept settings p past w)
    (hdistinct : p.callInstrument ≠ p.putInstrument) {e : MonitorEvent}
    (he : Observes p e) :
    Kept settings p (past ++ [e]) (observe ctx settings w e) := by
  cases e with
  | attach db scan => exact he.elim
  | stop => exact he.elim
  | tick tick r =>
      unfold Monitor.observe
      dsimp only
      rw [h.aligned.arrive_eq]
      split_ifs with hcall hput
      · exact h.tick_call hdistinct hcall r
      · exact h.tick_put hdistinct hput r
      · exact h.tick_other hcall hput r
  | poll r =>
      obtain ⟨hconnected, ltps, hltps, hc, hx⟩ := he
      obtain ⟨c, hc⟩ := Option.isSome_iff_exists.1 hc
      obtain ⟨x, hx⟩ := Option.isSome_iff_exists.1 hx
      unfold Monitor.observe
      dsimp only
      rw [hltps]
      by_cases hasks : Asks settings p past r
      · rw [if_pos ((h.due_iff hconnected).2 hasks)]
        exact h.poll_asks hdistinct hasks hltps hc hx
      · rw [if_neg fun hdue => hasks ((h.due_iff hconnected).1 hdue)]
        exact h.poll_quiet hasks

/-- From the attach on, as long as there are only ticks and polls. -/
theorem kept_after {db : Db} {scan : List Nat}
    (hfound : found ctx db scan = .ok (.ok p))
    (hdistinct : p.callInstrument ≠ p.putInstrument)
    (before : List MonitorEvent) {es : List MonitorEvent}
    (hes : ∀ e ∈ es, Observes p e) {w : Watch}
    (hw : (latch ctx settings).after (before ++ .attach db scan :: es)
      = some w) : Kept settings p es w := by
  induction es using List.reverseRecOn generalizing w with
  | nil =>
      rw [Latch.after_append] at hw
      simp only [Latch.step, latch, effect, hfound, hdistinct, if_false,
        Option.some.injEq] at hw
      rw [← hw]
      exact kept_fresh p
  | append_singleton es e ih =>
      have he := hes e (by simp)
      rw [← List.cons_append, ← List.append_assoc, Latch.after_append] at hw
      cases hs : (latch ctx settings).after (before ++ .attach db scan :: es) with
      | none =>
          rw [hs] at hw
          cases e with
          | attach db scan => exact he.elim
          | stop => exact he.elim
          | tick tick r => cases hw
          | poll r => cases hw
      | some w' =>
          have hkept := ih (fun x hx => hes x (List.mem_append_left _ hx)) hs
          have hwatch : (latch ctx settings).effect e = .watch := by
            cases e with
            | attach db scan => exact he.elim
            | stop => exact he.elim
            | tick tick r => rfl
            | poll r => rfl
          rw [hs] at hw
          cases hfires : (latch ctx settings).fires
              ((latch ctx settings).observe w' e) e with
          | some reason =>
              rw [Latch.step_of_fires hwatch hfires] at hw
              cases hw
          | none =>
              rw [Latch.step_of_quiet hwatch hfires] at hw
              cases hw
              exact hkept.observe hdistinct he

-- ======================================================= evaluations

/-- A poll, with `w` known before it, evaluates on a premium. -/
structure Evaluates (ctx : StrategyContext) (settings : MonitorSettings)
    (history : List MonitorEvent) (w : Watch) (r : PollReading) : Prop where
  watching : (latch ctx settings).after history = some w
  priced : ¬ (observe ctx settings w (.poll r)).Refused
  premium : (observe ctx settings w (.poll r)).premium.isSome

/-- The premium a poll evaluates on is the sum of the two prices known
once its own are in. -/
theorem Evaluates.premium_eq {history : List MonitorEvent} {w : Watch}
    {r : PollReading} (h : Evaluates ctx settings history w r) :
    ((Monitor.after ctx settings {} history).step ctx settings
        (.poll r)).monitor.lastCombinedPremium
      = (observe ctx settings w (.poll r)).premium := by
  have htracks := after_tracks ctx settings history
  rw [h.watching] at htracks
  exact pollAndCheck_premium htracks r h.priced

/-- What a poll that evaluates rests on, read off the stream. -/
private theorem Evaluates.fresh_iff {history past : List MonitorEvent}
    {r : PollReading} (h : Evaluates ctx settings history w r)
    (hkept : Kept settings p past w)
    (hdistinct : p.callInstrument ≠ p.putInstrument)
    (hr : Observes p (.poll r)) :
    Fresh settings (observe ctx settings w (.poll r)) r.evaluatedAt
      ↔ Timely settings p past r := by
  have hpriced := h.priced
  have hpremium := h.premium
  obtain ⟨hconnected, ltps, hltps, hc, hx⟩ := hr
  obtain ⟨c, hc⟩ := Option.isSome_iff_exists.1 hc
  obtain ⟨x, hx⟩ := Option.isSome_iff_exists.1 hx
  unfold Timely
  by_cases hasks : Asks settings p past r
  · have hobs : observe ctx settings w (.poll r) = w.refresh ltps r.polledAt := by
      simp only [observe, if_pos ((hkept.due_iff hconnected).2 hasks), hltps]
    rw [hobs, hkept.aligned.refresh_eq hdistinct hc hx] at hpriced ⊢
    rw [if_pos hasks]
    split_ifs at hpriced ⊢ with hcut
    · obtain ⟨q, hq, hneg⟩ := hcut
      exact absurd ⟨_, rfl, q, hq, hneg⟩ hpriced
    · unfold Fresh
      simp
  · have hobs : observe ctx settings w (.poll r) = w := by
      simp only [observe, if_neg fun hdue =>
        hasks ((hkept.due_iff hconnected).1 hdue)]
    rw [hobs] at hpriced hpremium ⊢
    rw [if_neg hasks]
    -- both prices are known, and neither is negative
    obtain ⟨qc, hqc⟩ : ∃ q, w.call = some q := by
      cases hcall : w.call with
      | none => simp [Watch.premium, hcall] at hpremium
      | some q => exact ⟨q, rfl⟩
    obtain ⟨qp, hqp⟩ : ∃ q, w.put = some q := by
      cases hput : w.put with
      | none => simp [Watch.premium, hput, hqc] at hpremium
      | some q => exact ⟨q, rfl⟩
    have hput := hkept.put.resolve_left fun hbad => by
      obtain ⟨q, hq, hneg⟩ := hbad
      exact hpriced ⟨qc, hqc, q, hq, .inr hneg⟩
    have hcall := hkept.call
    unfold obtained at hput hcall
    rw [hqp] at hput
    rw [hqc] at hcall
    have hlegs : ∀ {type : OptionType} {q : Quote},
        (∀ t, (some q).map (·.obtainedAt) = some t
          ↔ Latest (Gives settings p type) past t) →
        ((∃ t, Latest (Gives settings p type) past t
            ∧ r.evaluatedAt - t ≤ settings.maxStaleness)
          ↔ r.evaluatedAt - q.obtainedAt ≤ settings.maxStaleness) := by
      intro type q hq
      constructor
      · rintro ⟨t, hlatest, hle⟩
        have heq : q.obtainedAt = t := Option.some.inj ((hq t).2 hlatest)
        rw [heq]
        exact hle
      · exact fun hle => ⟨q.obtainedAt, (hq _).1 rfl, hle⟩
    unfold Fresh
    rw [hqc, hqp]
    constructor
    · intro hfresh type
      cases type with
      | ce => exact (hlegs hcall).2 (hfresh.1 qc rfl)
      | pe => exact (hlegs hput).2 (hfresh.2 qp rfl)
    · intro htimely
      refine ⟨fun q hq => ?_, fun q hq => ?_⟩
      · cases hq
        exact (hlegs hcall).1 (htimely .ce)
      · cases hq
        exact (hlegs hput).1 (htimely .pe)

/-- The evaluations of polls rest on fresh prices exactly if the stream is
timely at each of them: a poll that asks for prices evaluates within the
budget of their answer, and at one that does not, each leg, not only the
one that ticked last, was last given its price within the budget. -/
theorem prices_fresh_iff {db : Db} {scan : List Nat} {p : MonitoredPosition}
    (hfound : found ctx db scan = .ok (.ok p))
    (hdistinct : p.callInstrument ≠ p.putInstrument)
    (before : List MonitorEvent) {es : List MonitorEvent}
    (hes : ∀ e ∈ es, Observes p e) :
    (∀ pre r post w, es = pre ++ .poll r :: post →
        Evaluates ctx settings (before ++ .attach db scan :: pre) w r →
        ((Monitor.after ctx settings {}
            (before ++ .attach db scan :: pre)).step ctx settings
              (.poll r)).monitor.lastCombinedPremium
          = (observe ctx settings w (.poll r)).premium
        ∧ Fresh settings (observe ctx settings w (.poll r)) r.evaluatedAt)
      ↔ ∀ pre r post w, es = pre ++ .poll r :: post →
        Evaluates ctx settings (before ++ .attach db scan :: pre) w r →
        Timely settings p pre r := by
  have hstep : ∀ pre r post w, es = pre ++ .poll r :: post →
      Evaluates ctx settings (before ++ .attach db scan :: pre) w r →
      (Fresh settings (observe ctx settings w (.poll r)) r.evaluatedAt
        ↔ Timely settings p pre r) := by
    intro pre r post w hsplit hev
    have hpre : ∀ e ∈ pre, Observes p e := by
      intro e he
      exact hes e (by rw [hsplit]; exact List.mem_append_left _ he)
    exact hev.fresh_iff
      (kept_after hfound hdistinct before hpre hev.watching) hdistinct
      (hes _ (by rw [hsplit]; simp))
  constructor
  · intro h pre r post w hsplit hev
    exact (hstep pre r post w hsplit hev).1 (h pre r post w hsplit hev).2
  · intro h pre r post w hsplit hev
    exact ⟨hev.premium_eq,
      (hstep pre r post w hsplit hev).2 (h pre r post w hsplit hev)⟩

/-- The put ticks once, the call keeps ticking: ten minutes later the
poll, which does not ask for prices, evaluates on the old put price. -/
theorem prices_stale :
    ∃ w, Evaluates SampleDay.ctx Sample.watchSettings
        [Sample.attach, Sample.tick .ce 100 0, Sample.tick .pe 80 0,
          Sample.tick .ce 100 600] w
        (Sample.poll 601 100 400 (Sample.reading 36000 false))
      ∧ w.put = some ⟨80, 0⟩
      ∧ ¬ Fresh Sample.watchSettings (observe SampleDay.ctx Sample.watchSettings w
          (.poll (Sample.poll 601 100 400 (Sample.reading 36000 false)))) 601
      ∧ ((Monitor.after SampleDay.ctx Sample.watchSettings {}
          [Sample.attach, Sample.tick .ce 100 0, Sample.tick .pe 80 0,
            Sample.tick .ce 100 600]).step SampleDay.ctx Sample.watchSettings
            (.poll (Sample.poll 601 100 400
              (Sample.reading 36000 false)))).monitor.lastCombinedPremium
        = some 180 := by
  refine ⟨{ Watch.fresh Sample.monitored with
              call := some ⟨100, 600⟩, put := some ⟨80, 0⟩,
              lastTickAt := some 600 }, ⟨?_, ?_, ?_⟩, rfl, ?_, ?_⟩ <;>
    decide +kernel

/-- The call ticked at 0 and the put at 1: at 3 neither is too old. -/
private theorem sample_timely : Timely Sample.watchSettings Sample.monitored
    [Sample.tick .ce 100 0, Sample.tick .pe 80 1]
    (Sample.poll 3 100 80 (Sample.reading 36000 false)) := by
  unfold Timely
  rw [if_neg (by decide +kernel)]
  intro type
  cases type with
  | ce =>
      refine ⟨0, ⟨[], _, [Sample.tick .pe 80 1], rfl, ⟨⟨rfl, rfl⟩, nofun⟩,
        fun mid e' rest h b hb => ?_⟩, by decide +kernel⟩
      match mid, h with
      | [], h =>
          cases h
          exact absurd hb.1.1 (by decide)
      | _ :: _, h => simp at h
  | pe =>
      exact ⟨1, ⟨[Sample.tick .ce 100 0], _, [], rfl,
        ⟨⟨rfl, rfl⟩, fun _ => trivial⟩, fun mid _ _ h => by simp at h⟩,
        by decide +kernel⟩

/-- With both legs ticking, a poll two seconds later rests on fresh
prices. -/
theorem prices_fresh_sample :
    (∃ w, Evaluates SampleDay.ctx Sample.watchSettings
      [Sample.attach, Sample.tick .ce 100 0, Sample.tick .pe 80 1] w
      (Sample.poll 3 100 80 (Sample.reading 36000 false)))
    ∧ ∀ pre r post w,
      [Sample.tick .ce 100 0, Sample.tick .pe 80 1,
        .poll (Sample.poll 3 100 80 (Sample.reading 36000 false))]
        = pre ++ .poll r :: post →
      Evaluates SampleDay.ctx Sample.watchSettings
        ([] ++ Sample.attach :: pre) w r →
      ((Monitor.after SampleDay.ctx Sample.watchSettings {}
          ([] ++ Sample.attach :: pre)).step SampleDay.ctx Sample.watchSettings
            (.poll r)).monitor.lastCombinedPremium
        = (observe SampleDay.ctx Sample.watchSettings w (.poll r)).premium
      ∧ Fresh Sample.watchSettings
          (observe SampleDay.ctx Sample.watchSettings w (.poll r))
          r.evaluatedAt := by
  constructor
  · refine ⟨{ Watch.fresh Sample.monitored with
                call := some ⟨100, 0⟩, put := some ⟨80, 1⟩,
                lastTickAt := some 1 }, ?_, ?_, ?_⟩ <;>
      decide +kernel
  refine (prices_fresh_iff (p := Sample.monitored) (by decide +kernel)
    (by decide) [] ?_).2 ?_
  · intro e he
    simp only [List.mem_cons, List.not_mem_nil, or_false] at he
    obtain rfl | rfl | rfl := he
    · trivial
    · trivial
    · exact ⟨rfl, _, rfl, by decide, by decide⟩
  · intro pre r post w hsplit _
    obtain ⟨rfl, rfl⟩ : pre = [Sample.tick .ce 100 0, Sample.tick .pe 80 1]
        ∧ r = Sample.poll 3 100 80 (Sample.reading 36000 false) := by
      match pre, hsplit with
      | [], h => cases h
      | [_], h => cases h
      | [_, _], h => cases h; exact ⟨rfl, rfl⟩
      | _ :: _ :: _ :: _, h =>
          have hlen := congrArg List.length h
          simp at hlen
    exact sample_timely

end AlgoPlatform.Monitor
