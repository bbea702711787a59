/-
Which prices get past the market-data layer.

The websocket path gates every tick; the poll path stores and returns
whatever the poller answers, and gates only what it broadcasts. So the
gate holds in a run exactly if the poller never answers a price that is
not positive (`gated_iff`): the invariant is that every price kept, in
the cache or by a monitor's tracker, is positive.
-/
import AlgoPlatform.Model.MarketDesk
import AlgoPlatform.Proofs.MonitorRuns

namespace AlgoPlatform

-- =========================================================== invariant

/-- Every price a sighting shows is positive, unless it only shows what
the poller answered. -/
def Sighting.Plausible : Sighting → Prop
  | .polled _ => True
  | .stored price | .returned price => 0 < price
  | .decided reason call put =>
      reason = .stoploss ∨ reason = .target →
        (∀ x ∈ call, 0 < x) ∧ ∀ x ∈ put, 0 < x

namespace MarketCache

/-- Every cached price is positive. -/
def Positive (c : MarketCache) : Prop := ∀ i e, c i = some e → 0 < e.price

theorem Positive.update {c : MarketCache} (h : c.Positive)
    (i : InstrumentIdentifier) {price : ℚ} (now : ℚ) (hprice : 0 < price) :
    (c.update i price now).Positive := by
  intro j e he
  unfold MarketCache.update at he
  by_cases hj : j = i
  · rw [if_pos hj] at he
    cases he
    exact hprice
  · rw [if_neg hj] at he
    exact h j e he

theorem Positive.remove {c : MarketCache} (h : c.Positive)
    (i : InstrumentIdentifier) : (c.remove i).Positive := by
  intro j e he
  unfold MarketCache.remove at he
  by_cases hj : j = i
  · rw [if_pos hj] at he
    cases he
  · rw [if_neg hj] at he
    exact h j e he

end MarketCache

namespace CombinedPremiumTracker

/-- Every price known is positive. -/
def Positive (t : CombinedPremiumTracker) : Prop :=
  (∀ x ∈ t.latestCallPrice, 0 < x) ∧ ∀ x ∈ t.latestPutPrice, 0 < x

theorem Positive.onTick {t : CombinedPremiumTracker} (h : t.Positive)
    {tick : Tick} (htick : 0 < tick.lastPrice) : (t.onTick tick).1.Positive := by
  have hlast : ∀ x ∈ some tick.lastPrice, 0 < x := by
    intro x hx
    cases hx
    exact htick
  unfold CombinedPremiumTracker.onTick CombinedPremiumTracker.record
  split_ifs
  · exact ⟨hlast, h.2⟩
  · exact ⟨h.1, hlast⟩
  · exact h
  · exact h

end CombinedPremiumTracker

namespace Monitor

/-- Every price a monitor knows is positive. -/
def Positive (m : Monitor) : Prop := ∀ t ∈ m.tracker, t.Positive

theorem positive_fresh : ({} : Monitor).Positive := by
  intro t ht
  cases ht

/-- An evaluation, whatever it comes to, leaves the tracker alone. -/
theorem evaluateCurrent_tracker (settings : MonitorSettings) (m : Monitor)
    (r : EvaluationReading) :
    (m.evaluateCurrent settings r).monitor.tracker = m.tracker := by
  unfold Monitor.evaluateCurrent
  cases m.currentPremium with
  | error e => rfl
  | ok premium =>
      dsimp only
      unfold Monitor.evaluate
      cases m.active with
      | false => rfl
      | true =>
          cases m.monitored with
          | none => rfl
          | some p =>
              dsimp only
              cases r.halted with
              | error e => rfl
              | ok halted =>
                  dsimp only
                  cases evaluateExit r.nowIstTime settings.hardCutoffTime halted
                    premium p.targetPremium p.stoplossPremium <;> rfl

theorem Positive.evaluateCurrent {m : Monitor} (h : m.Positive)
    (settings : MonitorSettings) (r : EvaluationReading) :
    (m.evaluateCurrent settings r).monitor.Positive := by
  unfold Positive
  rw [evaluateCurrent_tracker]
  exact h

theorem Positive.onTick {m : Monitor} (h : m.Positive)
    (settings : MonitorSettings) {tick : Tick} (htick : 0 < tick.lastPrice)
    (r : TickReading) : (m.onTick settings tick r).monitor.Positive := by
  unfold Monitor.onTick
  cases hactive : m.active with
  | false => exact h
  | true =>
      cases htracker : m.tracker with
      | none => exact h
      | some t =>
          cases m.monitored with
          | none => exact h
          | some p =>
              dsimp only
              have ht : (t.onTick tick).1.Positive := (h t htracker).onTick htick
              cases (t.onTick tick).2 with
              | error e =>
                  intro t' ht'
                  cases ht'
                  exact ht
              | ok snapshot =>
                  apply Positive.evaluateCurrent
                  intro t' ht'
                  cases ht'
                  exact ht

theorem feedBoth_positive {t : CombinedPremiumTracker} (h : t.Positive)
    (p : MonitoredPosition) {ltps : List (InstrumentIdentifier × ℚ)}
    (hltps : ∀ x ∈ ltps, 0 < x.2) : (feedBoth t p ltps).1.Positive := by
  have hfeed : ∀ (t : CombinedPremiumTracker) (i : InstrumentIdentifier),
      t.Positive → (feed t i (ltps.lookup i)).1.Positive := by
    intro t i ht
    cases hlookup : ltps.lookup i with
    | none => exact ht
    | some price =>
        obtain ⟨k, hk⟩ : ∃ k, (k, price) ∈ ltps := by
          obtain ⟨l, r, hsplit, -⟩ := List.lookup_eq_some_iff.1 hlookup
          exact ⟨i, by rw [hsplit]; simp⟩
        exact ht.onTick (hltps _ hk)
  have hcall := hfeed t p.callInstrument h
  unfold Monitor.feedBoth
  revert hcall
  cases feed t p.callInstrument (ltps.lookup p.callInstrument) with
  | mk t' result =>
      intro hcall
      cases result with
      | error e => exact hcall
      | ok u => exact hfeed t' p.putInstrument hcall

theorem Positive.pollAndCheck {m : Monitor} (h : m.Positive)
    (settings : MonitorSettings) {r : PollReading}
    (hltps : ∀ ltps, r.ltps = .ok ltps → ∀ x ∈ ltps, 0 < x.2) :
    (m.pollAndCheck settings r).monitor.Positive := by
  have hpoll : (m.pollPrices r.ltps).1.Positive := by
    unfold Monitor.pollPrices
    cases m.monitored with
    | none => exact h
    | some p =>
        cases hr : r.ltps with
        | error e => exact h
        | ok ltps =>
            dsimp only
            cases htracker : m.tracker with
            | none => exact h
            | some t =>
                intro t' ht'
                cases ht'
                exact feedBoth_positive (h t htracker) p (hltps ltps hr)
  unfold Monitor.pollAndCheck
  split_ifs
  · dsimp only
    cases (m.pollPrices r.ltps).2 with
    | error e => exact hpoll
    | ok u => exact hpoll.evaluateCurrent settings r.evaluation
  · exact h.evaluateCurrent settings r.evaluation
  · exact h

theorem Positive.attach {m : Monitor} (h : m.Positive)
    (found : Except Exc (Except AttachOutcome MonitoredPosition)) :
    (m.attach found).1.monitor.Positive := by
  unfold Monitor.attach
  cases found with
  | error e => exact h
  | ok result =>
      cases result with
      | error outcome => exact h
      | ok p =>
          dsimp only
          split_ifs
          · exact h
          · intro t ht
            cases ht
            exact ⟨fun _ h => (by cases h), fun _ h => (by cases h)⟩

theorem Positive.stop {m : Monitor} (h : m.Positive) :
    m.stop.monitor.Positive := by
  unfold Monitor.stop
  split_ifs <;> exact h

end Monitor

theorem MonitorStep.seen_plausible {st : MonitorStep}
    (h : st.monitor.Positive) : ∀ s ∈ st.seen, s.Plausible := by
  unfold MonitorStep.seen
  intro s hs
  cases hcall : st.exitCall with
  | none => simp [hcall] at hs
  | some reason =>
      simp only [hcall, List.mem_singleton] at hs
      subst hs
      intro _
      cases ht : st.monitor.tracker with
      | none => exact ⟨nofun, nofun⟩
      | some t => exact h t ht

-- ============================================================= service

namespace MarketDataService

/-- Whatever the poller answered is also stored. -/
def Echoes (seen : List Sighting) : Prop :=
  ∀ price, .polled price ∈ seen → .stored price ∈ seen

/-- Every answer of the poller was positive. -/
def Answers (seen : List Sighting) : Prop :=
  ∀ price, .polled price ∈ seen → 0 < price

theorem Echoes.append {s t : List Sighting} (hs : Echoes s) (ht : Echoes t) :
    Echoes (s ++ t) := by
  intro price h
  rcases List.mem_append.1 h with h | h
  · exact List.mem_append_left _ (hs price h)
  · exact List.mem_append_right _ (ht price h)

theorem storeAll_spec (s : MarketDataService) (now : ℚ)
    (items : List (InstrumentIdentifier × ℚ)) :
    (∀ x ∈ (s.storeAll now items).2, ∃ i ∈ items, x = .stored i.2)
      ∧ (∀ i ∈ items, .stored i.2 ∈ (s.storeAll now items).2)
      ∧ (s.cache.Positive → (∀ i ∈ items, 0 < i.2) →
          (s.storeAll now items).1.cache.Positive) := by
  induction items generalizing s with
  | nil =>
      refine ⟨?_, ?_, ?_⟩
      · intro x hx
        cases hx
      · intro i hi
        cases hi
      · intro h _
        exact h
  | cons item rest ih =>
      obtain ⟨i, price⟩ := item
      obtain ⟨honly, hall, hpos⟩ :=
        ih { s with cache := s.cache.update i price now }
      refine ⟨?_, ?_, ?_⟩
      · intro x hx
        rcases List.mem_cons.1 hx with rfl | hx
        · exact ⟨(i, price), List.mem_cons_self .., rfl⟩
        · obtain ⟨j, hj, rfl⟩ := honly x hx
          exact ⟨j, List.mem_cons_of_mem _ hj, rfl⟩
      · intro j hj
        rcases List.mem_cons.1 hj with rfl | hj
        · exact List.mem_cons_self ..
        · exact List.mem_cons_of_mem _ (hall j hj)
      · intro hcache hprices
        refine hpos ?_ fun j hj => hprices j (List.mem_cons_of_mem _ hj)
        exact MarketCache.Positive.update hcache i now
          (hprices (i, price) (List.mem_cons_self ..))

/-- A poll stores all it is answered, and nothing else. -/
theorem poll_spec (s : MarketDataService) (config : MarketDataConfig)
    (answers : List PollAnswer) (now : ℚ) :
    Echoes (s.poll config answers now).2.2
      ∧ (s.cache.Positive → Answers (s.poll config answers now).2.2 →
          (s.poll config answers now).1.cache.Positive
            ∧ (∀ i ∈ (s.poll config answers now).2.1, 0 < i.2)
            ∧ ∀ x ∈ (s.poll config answers now).2.2, x.Plausible) := by
  unfold MarketDataService.poll
  cases resilientPoll config.pollRetryAttempts answers with
  | none =>
      refine ⟨?_, ?_⟩
      · intro price h
        cases h
      · intro hcache _
        refine ⟨hcache, ?_, ?_⟩
        · intro i hi
          cases hi
        · intro x hx
          cases hx
  | some prices =>
      obtain ⟨honly, hall, hpos⟩ := s.storeAll_spec now prices.items
      dsimp only
      constructor
      · intro price h
        rcases List.mem_append.1 h with h | h
        · obtain ⟨i, hi, heq⟩ := List.mem_map.1 h
          cases heq
          exact List.mem_append_right _ (hall i hi)
        · obtain ⟨i, -, heq⟩ := honly _ h
          cases heq
      · intro hcache hanswers
        have hprices : ∀ i ∈ prices.items, 0 < i.2 := by
          intro i hi
          exact hanswers i.2
            (List.mem_append_left _ (List.mem_map.2 ⟨i, hi, rfl⟩))
        refine ⟨hpos hcache hprices, hprices, ?_⟩
        intro x hx
        rcases List.mem_append.1 hx with hx | hx
        · obtain ⟨i, -, rfl⟩ := List.mem_map.1 hx
          trivial
        · obtain ⟨i, hi, rfl⟩ := honly x hx
          exact hprices i hi

theorem served_positive {s : MarketDataService} (h : s.cache.Positive)
    (config : MarketDataConfig) (now : ℚ)
    (instruments : List InstrumentIdentifier) :
    ∀ x ∈ s.served config now instruments, 0 < x.2 := by
  intro x hx
  unfold MarketDataService.served at hx
  obtain ⟨i, -, hi⟩ := List.mem_filterMap.1 hx
  split_ifs at hi
  obtain ⟨entry, hentry, rfl⟩ := Option.map_eq_some_iff.1 hi
  exact h i entry hentry

theorem getLtps_spec (s : MarketDataService) (config : MarketDataConfig)
    (instruments : List InstrumentIdentifier) (r : ReadReading) :
    Echoes (s.getLtps config instruments r).2.2
      ∧ (s.cache.Positive → Answers (s.getLtps config instruments r).2.2 →
          (s.getLtps config instruments r).1.cache.Positive
            ∧ (∀ i ∈ (s.getLtps config instruments r).2.1, 0 < i.2)
            ∧ ∀ x ∈ (s.getLtps config instruments r).2.2, x.Plausible) := by
  unfold MarketDataService.getLtps
  dsimp only
  split_ifs with hfresh
  · constructor
    · intro price h
      obtain ⟨i, -, heq⟩ := List.mem_map.1 h
      cases heq
    · intro hcache _
      have hserved := served_positive hcache config r.now instruments
      refine ⟨hcache, hserved, ?_⟩
      intro x hx
      obtain ⟨i, hi, rfl⟩ := List.mem_map.1 hx
      exact hserved i hi
  · obtain ⟨hechoes, hpoll⟩ := s.poll_spec config r.answers r.polledAt
    constructor
    · intro price h
      rcases List.mem_append.1 h with h | h
      · exact List.mem_append_left _ (hechoes price h)
      · obtain ⟨i, -, heq⟩ := List.mem_map.1 h
        cases heq
    · intro hcache hanswers
      obtain ⟨hcache', hpolled, hseen⟩ := hpoll hcache fun price h =>
        hanswers price (List.mem_append_left _ h)
      have hserved := served_positive hcache config r.now instruments
      have hresult : ∀ i ∈ (s.poll config r.answers r.polledAt).2.1
          ++ (s.served config r.now instruments).filter fun p =>
            p.1 ∉ (s.poll config r.answers r.polledAt).2.1.map Prod.fst,
          0 < i.2 := by
        intro i hi
        rcases List.mem_append.1 hi with hi | hi
        · exact hpolled i hi
        · exact hserved i (List.mem_filter.1 hi).1
      refine ⟨hcache', hresult, ?_⟩
      intro x hx
      rcases List.mem_append.1 hx with hx | hx
      · exact hseen x hx
      · obtain ⟨i, hi, rfl⟩ := List.mem_map.1 hx
        exact hresult i hi

theorem unsubscribe_positive {s : MarketDataService} (h : s.cache.Positive)
    (instruments : List InstrumentIdentifier) :
    (s.unsubscribe instruments).cache.Positive := by
  unfold MarketDataService.unsubscribe
  induction instruments generalizing s with
  | nil => exact h
  | cons i rest ih =>
      rw [List.foldl_cons]
      apply ih
      dsimp only
      split_ifs
      · exact MarketCache.Positive.remove h i
      · exact h

theorem ask_positive {s : MarketDataService} (h : s.cache.Positive)
    (call : Option GatewayCall) : (s.ask call).cache.Positive := by
  cases call with
  | none => exact h
  | some call =>
      cases call with
      | subscribe instruments => exact h
      | unsubscribe instruments => exact unsubscribe_positive h instruments

end MarketDataService

-- ================================================================ desk

namespace Desk

open MarketDataService (Echoes Answers)

/-- Every price kept, in the cache or by a tracker, is positive. -/
structure Gated (d : Desk) : Prop where
  cache : d.service.cache.Positive
  runners : ∀ r ∈ d.runners, r.monitor.Positive

/-- What an operation of the desk comes to: it stores what the poller
answered it, and keeps the gate if every answer was positive. -/
structure Sound (d : Desk) (result : Desk × List Sighting) : Prop where
  echoes : Echoes result.2
  gated : d.Gated → Answers result.2 →
    result.1.Gated ∧ ∀ x ∈ result.2, x.Plausible

theorem Sound.silent {d d' : Desk} (h : d.Gated → d'.Gated) :
    Sound d (d', []) := by
  constructor
  · intro price hmem
    cases hmem
  · intro hd _
    refine ⟨h hd, ?_⟩
    intro x hx
    cases hx

theorem Sound.append {d : Desk} {first second : Desk × List Sighting}
    (h : Sound d first) (h' : Sound first.1 second) :
    Sound d (second.1, first.2 ++ second.2) := by
  constructor
  · exact h.echoes.append h'.echoes
  · intro hd hanswers
    obtain ⟨hfirst, hseen⟩ := h.gated hd fun price hmem =>
      hanswers price (List.mem_append_left _ hmem)
    obtain ⟨hsecond, hseen'⟩ := h'.gated hfirst fun price hmem =>
      hanswers price (List.mem_append_right _ hmem)
    refine ⟨hsecond, ?_⟩
    intro x hx
    rcases List.mem_append.1 hx with hx | hx
    · exact hseen x hx
    · exact hseen' x hx

theorem seen_unpolled (st : MonitorStep) (price : ℚ) :
    .polled price ∉ st.seen := by
  unfold MonitorStep.seen
  cases st.exitCall <;> simp

theorem dispatch_unpolled (d : Desk) (k : Nat) (f : Runner → MonitorStep)
    (price : ℚ) : .polled price ∉ (d.dispatch k f).2 := by
  unfold Desk.dispatch
  cases d.runners[k]? with
  | none => exact List.not_mem_nil
  | some runner =>
      dsimp only
      split_ifs
      · exact seen_unpolled _ price
      · exact List.not_mem_nil

/-- A dispatched step that keeps a monitor's prices positive keeps the
gate. -/
theorem dispatch_gated {d : Desk} (hd : d.Gated) (k : Nat)
    {f : Runner → MonitorStep}
    (hf : ∀ r ∈ d.runners, r.monitor.Positive → (f r).monitor.Positive) :
    (d.dispatch k f).1.Gated ∧ ∀ x ∈ (d.dispatch k f).2, x.Plausible := by
  unfold Desk.dispatch
  cases hk : d.runners[k]? with
  | none =>
      refine ⟨hd, ?_⟩
      intro x hx
      cases hx
  | some runner =>
      dsimp only
      split_ifs
      · have hmem := List.mem_of_getElem? hk
        have hpos := hf runner hmem (hd.runners runner hmem)
        refine ⟨⟨MarketDataService.ask_positive hd.cache _, ?_⟩,
          MonitorStep.seen_plausible hpos⟩
        intro r hr
        rcases List.mem_or_eq_of_mem_set hr with hr | rfl
        · exact hd.runners r hr
        · exact hpos
      · refine ⟨hd, ?_⟩
        intro x hx
        cases hx

theorem dispatch_sound (d : Desk) (k : Nat) {f : Runner → MonitorStep}
    (hf : ∀ r ∈ d.runners, r.monitor.Positive → (f r).monitor.Positive) :
    Sound d (d.dispatch k f) := by
  constructor
  · intro price hmem
    exact absurd hmem (dispatch_unpolled d k f price)
  · intro hd _
    exact dispatch_gated hd k hf

/-- A positive tick is broadcast to every runner. -/
theorem broadcast_sound (d : Desk) (tick : Tick) (htick : 0 < tick.lastPrice)
    (readings : Nat → TickReading) (ks : List Nat) :
    Sound d (d.broadcast tick readings ks) := by
  induction ks generalizing d with
  | nil => exact Sound.silent fun h => h
  | cons k ks ih =>
      unfold Desk.broadcast
      refine Sound.append (dispatch_sound d k ?_) (ih _)
      intro r _ hr
      exact hr.onTick r.settings htick (readings k)

theorem broadcast_unpolled (d : Desk) (tick : Tick)
    (readings : Nat → TickReading) (ks : List Nat) (price : ℚ) :
    .polled price ∉ (d.broadcast tick readings ks).2 := by
  induction ks generalizing d with
  | nil => exact List.not_mem_nil
  | cons k ks ih =>
      unfold Desk.broadcast
      intro h
      rcases List.mem_append.1 h with h | h
      · exact dispatch_unpolled d k _ price h
      · exact ih _ h

/-- A positive price is stored. -/
theorem Gated.store {d : Desk} (hd : d.Gated) (i : InstrumentIdentifier)
    {price : ℚ} (now : ℚ) (hprice : 0 < price) :
    Gated { d with service :=
      { d.service with cache := d.service.cache.update i price now } } :=
  ⟨hd.cache.update i now hprice, hd.runners⟩

theorem onTick_sound (d : Desk) (tick : Tick) (now : ℚ)
    (readings : Nat → TickReading) : Sound d (d.onTick tick now readings) := by
  unfold Desk.onTick
  split_ifs with hplausible
  · have htick : 0 < tick.lastPrice := by
      simpa [isPlausible] using hplausible
    dsimp only
    constructor
    · intro price hmem
      rcases List.mem_cons.1 hmem with h | h
      · cases h
      · exact absurd h (broadcast_unpolled _ tick readings _ price)
    · intro hd hanswers
      obtain ⟨hgated, hseen⟩ :=
        (broadcast_sound _ tick htick readings _).gated
          (hd.store tick.instrument now htick) fun price hmem =>
            hanswers price (List.mem_cons_of_mem _ hmem)
      refine ⟨hgated, ?_⟩
      intro x hx
      rcases List.mem_cons.1 hx with rfl | hx
      · exact htick
      · exact hseen x hx
  · exact Sound.silent fun h => h

/-- The polling loop with broadcast stores every price it is given. -/
theorem storeAndBroadcast_stores (d : Desk) (now : ℚ)
    (readings : InstrumentIdentifier → Nat → TickReading)
    (items : List (InstrumentIdentifier × ℚ)) :
    (∀ i ∈ items, .stored i.2 ∈ (d.storeAndBroadcast now readings items).2)
      ∧ ∀ price, .polled price ∉ (d.storeAndBroadcast now readings items).2 := by
  induction items generalizing d with
  | nil =>
      refine ⟨?_, fun _ => List.not_mem_nil⟩
      intro i hi
      cases hi
  | cons item rest ih =>
      obtain ⟨i, price⟩ := item
      unfold Desk.storeAndBroadcast
      dsimp only
      constructor
      · intro j hj
        rcases List.mem_cons.1 hj with rfl | hj
        · exact List.mem_cons_self ..
        · exact List.mem_cons_of_mem _ (List.mem_append_right _ ((ih _).1 j hj))
      · intro p h
        rcases List.mem_cons.1 h with h | h
        · cases h
        · rcases List.mem_append.1 h with h | h
          · split_ifs at h
            · exact broadcast_unpolled _ _ _ _ p h
            · cases h
          · exact (ih _).2 p h

/-- Over positive prices it keeps the gate. -/
theorem storeAndBroadcast_gated {d : Desk} (hd : d.Gated) (now : ℚ)
    (readings : InstrumentIdentifier → Nat → TickReading)
    (items : List (InstrumentIdentifier × ℚ)) (hitems : ∀ i ∈ items, 0 < i.2) :
    (d.storeAndBroadcast now readings items).1.Gated
      ∧ ∀ x ∈ (d.storeAndBroadcast now readings items).2, x.Plausible := by
  induction items generalizing d with
  | nil =>
      refine ⟨hd, ?_⟩
      intro x hx
      cases hx
  | cons item rest ih =>
      obtain ⟨i, price⟩ := item
      have hprice : 0 < price := hitems (i, price) (List.mem_cons_self ..)
      have hstored := hd.store i now hprice
      unfold Desk.storeAndBroadcast
      dsimp only
      rw [if_pos hprice]
      obtain ⟨hgated, hseen⟩ :=
        (broadcast_sound _ { instrument := i, lastPrice := price } hprice
          (readings i) _).gated hstored fun p hmem =>
            absurd hmem (broadcast_unpolled _ _ _ _ p)
      obtain ⟨hgated', hseen'⟩ :=
        ih hgated fun j hj => hitems j (List.mem_cons_of_mem _ hj)
      refine ⟨hgated', ?_⟩
      intro x hx
      rcases List.mem_cons.1 hx with rfl | hx
      · exact hprice
      · rcases List.mem_append.1 hx with hx | hx
        · exact hseen x hx
        · exact hseen' x hx

theorem pollActive_sound (d : Desk) (answers : List PollAnswer) (now : ℚ)
    (readings : InstrumentIdentifier → Nat → TickReading) :
    Sound d (d.pollActive answers now readings) := by
  unfold Desk.pollActive
  split_ifs
  · exact Sound.silent fun h => h
  · cases MarketDataService.resilientPoll d.config.pollRetryAttempts answers with
    | none => exact Sound.silent fun h => h
    | some prices =>
        obtain ⟨hstores, hunpolled⟩ :=
          d.storeAndBroadcast_stores now readings prices.items
        dsimp only
        constructor
        · intro price hmem
          rcases List.mem_append.1 hmem with h | h
          · obtain ⟨i, hi, heq⟩ := List.mem_map.1 h
            cases heq
            exact List.mem_append_right _ (hstores i hi)
          · exact absurd h (hunpolled price)
        · intro hd hanswers
          obtain ⟨hgated, hseen⟩ := storeAndBroadcast_gated hd now readings
            prices.items fun i hi => hanswers i.2
              (List.mem_append_left _ (List.mem_map.2 ⟨i, hi, rfl⟩))
          refine ⟨hgated, ?_⟩
          intro x hx
          rcases List.mem_append.1 hx with hx | hx
          · obtain ⟨i, -, rfl⟩ := List.mem_map.1 hx
            trivial
          · exact hseen x hx

/-- A read of the service keeps the gate, and so does what it returns. -/
theorem getLtps_sound (d : Desk) (instruments : List InstrumentIdentifier)
    (r : MarketDataService.ReadReading) :
    Sound d ({ d with service := (d.service.getLtps d.config instruments r).1 },
      (d.service.getLtps d.config instruments r).2.2) := by
  obtain ⟨hechoes, hspec⟩ := d.service.getLtps_spec d.config instruments r
  constructor
  · exact hechoes
  · intro hd hanswers
    obtain ⟨hcache, -, hseen⟩ := hspec hd.cache hanswers
    exact ⟨⟨hcache, hd.runners⟩, hseen⟩

theorem askPrices_sound (d : Desk) (runner : Runner)
    (connected : Except Exc Bool) (checkedAt : ℚ)
    (read : MarketDataService.ReadReading) :
    Sound d ((d.askPrices runner connected checkedAt read).1,
        (d.askPrices runner connected checkedAt read).2.2)
      ∧ (d.Gated →
          Answers (d.askPrices runner connected checkedAt read).2.2 →
          ∀ i ∈ (d.askPrices runner connected checkedAt read).2.1, 0 < i.2) := by
  have hsilent : Sound d (d, [])
      ∧ (d.Gated → Answers [] →
          ∀ i ∈ ([] : List (InstrumentIdentifier × ℚ)), 0 < i.2) := by
    refine ⟨Sound.silent fun h => h, ?_⟩
    intro _ _ i hi
    cases hi
  unfold Desk.askPrices
  cases runner.monitor.active with
  | false => exact hsilent
  | true =>
      cases runner.monitor.monitored with
      | none => exact hsilent
      | some p =>
          dsimp only
          split_ifs
          · refine ⟨d.getLtps_sound _ read, ?_⟩
            intro hd hanswers
            exact ((d.service.getLtps_spec d.config _ read).2 hd.cache
              hanswers).2.1
          · exact hsilent

theorem cycle_sound (d : Desk) (k : Nat) (connected : Except Exc Bool)
    (checkedAt : ℚ) (read : MarketDataService.ReadReading) (evaluatedAt : ℚ)
    (evaluation : EvaluationReading) :
    Sound d (d.cycle k connected checkedAt read evaluatedAt evaluation) := by
  unfold Desk.cycle
  cases hk : d.runners[k]? with
  | none => exact Sound.silent fun h => h
  | some runner =>
      dsimp only
      split_ifs
      · obtain ⟨hask, hltps⟩ :=
          d.askPrices_sound runner connected checkedAt read
        constructor
        · refine hask.echoes.append ?_
          intro price hmem
          exact absurd hmem (dispatch_unpolled _ k _ price)
        · intro hd hanswers
          have hfirst : Answers
              (d.askPrices runner connected checkedAt read).2.2 := by
            intro price hmem
            exact hanswers price (List.mem_append_left _ hmem)
          obtain ⟨hgated, hseen⟩ := hask.gated hd hfirst
          have hpoll : ∀ r ∈ (d.askPrices runner connected checkedAt read).1.runners,
              r.monitor.Positive → (r.monitor.pollAndCheck r.settings
                { connected, checkedAt,
                  ltps := .ok (d.askPrices runner connected checkedAt read).2.1,
                  polledAt := read.polledAt, evaluatedAt,
                  evaluation }).monitor.Positive := by
            intro r _ hr
            refine hr.pollAndCheck r.settings ?_
            intro ltps heq
            cases heq
            exact hltps hd hfirst
          obtain ⟨hgated', hseen'⟩ := dispatch_gated hgated k hpoll
          refine ⟨hgated', ?_⟩
          intro x hx
          rcases List.mem_append.1 hx with hx | hx
          · exact hseen x hx
          · exact hseen' x hx
      · exact Sound.silent fun h => h

theorem stop_sound (d : Desk) (k : Nat) : Sound d (d.stop k) := by
  have hdispatch := dispatch_sound d k (f := fun r => r.monitor.stop)
    fun r _ hr => hr.stop
  constructor
  · exact hdispatch.echoes
  · intro hd hanswers
    obtain ⟨hgated, hseen⟩ := hdispatch.gated hd hanswers
    refine ⟨⟨hgated.cache, ?_⟩, hseen⟩
    intro r hr
    obtain ⟨j, hj⟩ := List.getElem?_of_mem hr
    unfold Desk.stop at hj
    rw [List.getElem?_modify] at hj
    obtain ⟨r', hr', rfl⟩ := Option.map_eq_some_iff.1 hj
    have hpos := hgated.runners r' (List.mem_of_getElem? hr')
    split_ifs <;> exact hpos

/-- One event keeps the gate as far as the poller does. -/
theorem step_sound (d : Desk) (e : DeskEvent) : Sound d (d.step e) := by
  cases e with
  | tick tick now readings => exact d.onTick_sound tick now readings
  | pollActive answers now readings =>
      exact d.pollActive_sound answers now readings
  | getLtps instruments r => exact d.getLtps_sound instruments r
  | getLtp instrument r => exact d.getLtps_sound [instrument] r
  | subscribe instruments => exact Sound.silent fun h => ⟨h.cache, h.runners⟩
  | unsubscribe instruments =>
      refine Sound.silent fun h => ⟨?_, h.runners⟩
      exact MarketDataService.unsubscribe_positive h.cache instruments
  | attach k db scan =>
      exact dispatch_sound d k fun r _ hr => hr.attach _
  | cycle k connected checkedAt read evaluatedAt evaluation =>
      exact d.cycle_sound k connected checkedAt read evaluatedAt evaluation
  | stop k => exact d.stop_sound k

/-- A run keeps it as far as the poller does. -/
theorem run_sound (d : Desk) (es : List DeskEvent) : Sound d (d.run es) := by
  induction es generalizing d with
  | nil => exact Sound.silent fun h => h
  | cons e es ih => exact (d.step_sound e).append (ih _)

/-- A desk nothing has happened at. -/
def fresh (config : MarketDataConfig)
    (runners : List (StrategyContext × MonitorSettings)) : Desk :=
  { config, runners := runners.map fun r => { ctx := r.1, settings := r.2 } }

theorem fresh_gated (config : MarketDataConfig)
    (runners : List (StrategyContext × MonitorSettings)) :
    (fresh config runners).Gated := by
  constructor
  · intro i e he
    cases he
  · intro r hr
    obtain ⟨x, -, rfl⟩ := List.mem_map.1 hr
    exact Monitor.positive_fresh

/-- Over any run, every price stored, returned or decided on is positive
exactly if every price the poller answered was. -/
theorem gated_iff (config : MarketDataConfig)
    (runners : List (StrategyContext × MonitorSettings)) (es : List DeskEvent) :
    (∀ x ∈ ((fresh config runners).run es).2, x.Plausible)
      ↔ ∀ price, .polled price ∈ ((fresh config runners).run es).2 →
          0 < price := by
  have hsound := run_sound (fresh config runners) es
  constructor
  · intro h price hmem
    exact h _ (hsound.echoes price hmem)
  · intro hanswers
    exact (hsound.gated (fresh_gated config runners) hanswers).2

open Monitor in
/-- The poller answers 0 for the call leg of the sample day's straddle:
the price is cached, returned, and its target decided on. -/
theorem zero_decided :
    ((fresh { freshnessSeconds := 5, pollRetryAttempts := 3,
              freshness_pos := Sample.watchSettings.maxStaleness_pos,
              attempts_pos := by decide }
        [(SampleDay.ctx, Sample.watchSettings)]).run
      [.attach 0 SampleDay.open_.db [],
        .cycle 0 (.ok true) 6
          { now := 6, polledAt := 6,
            answers := [.priced
              { items := [(Sample.instrument .ce, 0),
                  (Sample.instrument .pe, 80)] }] }
          6 (Sample.reading 36000 false)]).2
      = [.polled 0, .polled 80, .stored 0, .stored 80, .returned 0,
          .returned 80, .decided .target (some 0) (some 80)] := by
  decide +kernel

end Desk

end AlgoPlatform
