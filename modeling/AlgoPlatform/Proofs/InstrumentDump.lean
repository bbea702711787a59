/-
The instrument dumps follow the fetches that succeeded.

`Reflects` reads the two dicts off the calls made so far: under each
exchange they hold the rows and the day of its latest successful fetch.
Every other statement is about that fetch. A lookup fetches exactly when
it was not made today (`Reflects.hit_iff`), which on a clock that does not
run back means that no fetch of the day succeeded before, so of the
lookups of a day at most one fetches with success (`lookups_load_once`).
-/
import AlgoPlatform.Basis.Journal
import AlgoPlatform.Model.InstrumentDump

open Basis

namespace AlgoPlatform

-- =============================================== statement vocabulary

namespace DumpEntry

/-- What the call loaded of an exchange, and on which day. -/
def loaded (entry : DumpEntry) (exchange : Exchange) :
    Option (Date × List InstrumentRow) :=
  match entry.fetched with
  | some (.ok rows) =>
      if entry.call.exchange = exchange then some (entry.call.today, rows)
      else none
  | _ => none

/-- A lookup that fetched the exchange on that day, with success. -/
def isLoadingLookup (exchange : Exchange) (day : Date) (entry : DumpEntry) :
    Bool :=
  !entry.call.forced && (entry.loaded exchange).map Prod.fst == some day

end DumpEntry

/-- The latest successful fetch of an exchange. -/
def latestFetch (entries : List DumpEntry) (exchange : Exchange) :
    Option (Date × List InstrumentRow) :=
  (entries.filterMap (·.loaded exchange)).getLast?

/-- A fetch of the exchange succeeded on the day. -/
def LoadedOn (entries : List DumpEntry) (exchange : Exchange) (day : Date) :
    Prop :=
  ∃ entry ∈ entries, (entry.loaded exchange).map Prod.fst = some day

namespace InstrumentDump

variable {cfg : KiteReadConfig} {d : InstrumentDump}
  {entries : List DumpEntry} {call : DumpCall}

/-- The dicts hold what was fetched last. -/
def Reflects (d : InstrumentDump) (entries : List DumpEntry) : Prop :=
  ∀ exchange,
    d.cache.get (toKiteExchange exchange)
        = (latestFetch entries exchange).map Prod.snd
      ∧ d.cacheDate.get (toKiteExchange exchange)
        = (latestFetch entries exchange).map Prod.fst

theorem toKiteExchange_injective : Function.Injective toKiteExchange := by
  intro a b h
  cases a <;> cases b <;> first | rfl | exact absurd h (by decide)

-- ============================================================= one call

/-- What a call can come to: an answer from the cache, a load, a failure
that leaves the old rows, or one that leaves nothing to answer with. -/
theorem perform_cases (cfg : KiteReadConfig) (d : InstrumentDump)
    (call : DumpCall) :
    (call.forced = false ∧ ∃ rows,
      d.cache.get (toKiteExchange call.exchange) = some rows
        ∧ d.cacheDate.get (toKiteExchange call.exchange) = some call.today
        ∧ d.perform cfg call = (⟨call, none, .ok rows⟩, d))
    ∨ (∃ rows,
      (call.forced = false →
        d.cache.get (toKiteExchange call.exchange) = none
          ∨ d.cacheDate.get (toKiteExchange call.exchange)
            ≠ some call.today)
        ∧ d.perform cfg call = (⟨call, some (.ok rows), .ok rows⟩,
          { cache := d.cache.put (toKiteExchange call.exchange) rows
            cacheDate :=
              d.cacheDate.put (toKiteExchange call.exchange) call.today }))
    ∨ (call.forced = false ∧ ∃ rows e,
      d.cache.get (toKiteExchange call.exchange) = some rows
        ∧ d.cacheDate.get (toKiteExchange call.exchange) ≠ some call.today
        ∧ d.perform cfg call = (⟨call, some (.error e), .ok rows⟩, d))
    ∨ (∃ e,
      (call.forced = false →
        d.cache.get (toKiteExchange call.exchange) = none)
        ∧ d.perform cfg call = (⟨call, some (.error e), .error e⟩, d)) := by
  unfold perform
  cases hforced : call.forced with
  | true =>
      rw [if_pos rfl]
      unfold refreshInstruments fetchAndStore
      cases cfg.read call.answers with
      | ok rows => exact Or.inr (Or.inl ⟨rows, (fun h => nomatch h), rfl⟩)
      | error e =>
          exact Or.inr (Or.inr (Or.inr ⟨e, (fun h => nomatch h), rfl⟩))
  | false =>
      rw [if_neg (by decide)]
      unfold instrumentRows fetchAndStore
      dsimp only
      cases hcache : d.cache.get (toKiteExchange call.exchange) with
      | some cached =>
          dsimp only
          by_cases hdate : d.cacheDate.get (toKiteExchange call.exchange)
              = some call.today
          · rw [if_pos hdate]
            exact Or.inl ⟨rfl, cached, rfl, hdate, rfl⟩
          · rw [if_neg hdate]
            cases cfg.read call.answers with
            | ok rows =>
                exact Or.inr (Or.inl ⟨rows, fun _ => Or.inr hdate, rfl⟩)
            | error e =>
                exact Or.inr (Or.inr (Or.inl
                  ⟨rfl, cached, e, rfl, hdate, rfl⟩))
      | none =>
          dsimp only
          cases cfg.read call.answers with
          | ok rows =>
              exact Or.inr (Or.inl ⟨rows, fun _ => Or.inl rfl, rfl⟩)
          | error e =>
              exact Or.inr (Or.inr (Or.inr ⟨e, fun _ => rfl, rfl⟩))

theorem perform_call (cfg : KiteReadConfig) (d : InstrumentDump)
    (call : DumpCall) : (d.perform cfg call).1.call = call := by
  rcases perform_cases cfg d call with
    ⟨_, _, _, _, h⟩ | ⟨_, _, h⟩ | ⟨_, _, _, _, _, h⟩ | ⟨_, _, h⟩ <;> rw [h]

/-- A failed fetch leaves rows and date as they were. -/
theorem failed_leaves {e : BrokerError}
    (h : (d.perform cfg call).1.fetched = some (.error e)) :
    (d.perform cfg call).2 = d := by
  rcases perform_cases cfg d call with
    ⟨_, _, _, _, hcase⟩ | ⟨_, _, hcase⟩ | ⟨_, _, _, _, _, hcase⟩
      | ⟨_, _, hcase⟩ <;> rw [hcase] at h ⊢
  cases h

theorem latestFetch_snoc (entries : List DumpEntry) (entry : DumpEntry)
    (exchange : Exchange) :
    latestFetch (entries ++ [entry]) exchange
      = (entry.loaded exchange).or (latestFetch entries exchange) := by
  unfold latestFetch
  rw [List.filterMap_append]
  cases hloaded : entry.loaded exchange with
  | none => simp [hloaded]
  | some loaded => simp [hloaded]

/-- The dicts follow a call. -/
theorem Reflects.perform (h : Reflects d entries) :
    Reflects (d.perform cfg call).2
      (entries ++ [(d.perform cfg call).1]) := by
  have hkeep : ∀ entry : DumpEntry, (∀ exchange, entry.loaded exchange = none)
      → Reflects d (entries ++ [entry]) := by
    intro entry hnone exchange
    rw [latestFetch_snoc, hnone exchange, Option.none_or]
    exact h exchange
  rcases perform_cases cfg d call with
    ⟨_, _, _, _, hcase⟩ | ⟨rows, _, hcase⟩ | ⟨_, _, _, _, _, hcase⟩
      | ⟨_, _, hcase⟩ <;> rw [hcase]
  · exact hkeep _ fun _ => rfl
  · intro exchange
    rw [latestFetch_snoc]
    dsimp only
    rw [Dict.get_put, Dict.get_put]
    by_cases hexchange : call.exchange = exchange
    · subst hexchange
      simp [DumpEntry.loaded]
    · have hkey : toKiteExchange exchange ≠ toKiteExchange call.exchange :=
        fun heq => hexchange (toKiteExchange_injective heq).symm
      rw [if_neg hkey, if_neg hkey]
      simp only [DumpEntry.loaded, if_neg hexchange, Option.none_or]
      exact h exchange
  · exact hkeep _ fun _ => rfl
  · exact hkeep _ fun _ => rfl

/-- A call answers with the rows of the latest successful fetch, its own
included. -/
theorem Reflects.answered (h : Reflects d entries) {rows : List InstrumentRow}
    (hok : (d.perform cfg call).1.answered = .ok rows) :
    (latestFetch (entries ++ [(d.perform cfg call).1]) call.exchange).map
      Prod.snd = some rows := by
  rw [latestFetch_snoc]
  rcases perform_cases cfg d call with
    ⟨_, old, hcache, _, hcase⟩ | ⟨new, _, hcase⟩
      | ⟨_, old, e, hcache, _, hcase⟩ | ⟨_, _, hcase⟩ <;>
    rw [hcase] at hok ⊢ <;> cases hok
  · exact (h call.exchange).1 ▸ hcache
  · simp [DumpEntry.loaded]
  · exact (h call.exchange).1 ▸ hcache

/-- A lookup raises what its fetch failed with, for an exchange that was
never loaded. -/
theorem Reflects.raised (h : Reflects d entries)
    (hlookup : call.forced = false) {e : BrokerError}
    (herror : (d.perform cfg call).1.answered = .error e) :
    (d.perform cfg call).1.fetched = some (.error e)
      ∧ latestFetch entries call.exchange = none := by
  rcases perform_cases cfg d call with
    ⟨_, _, _, _, hcase⟩ | ⟨_, _, hcase⟩ | ⟨_, _, _, _, _, hcase⟩
      | ⟨_, hcache, hcase⟩ <;> rw [hcase] at herror ⊢ <;> cases herror
  refine ⟨rfl, ?_⟩
  have hnone := (h call.exchange).1
  rw [hcache hlookup] at hnone
  exact Option.map_eq_none_iff.mp hnone.symm

/-- A lookup answers from the cache exactly when the latest fetch was made
today. -/
theorem Reflects.hit_iff (h : Reflects d entries)
    (hlookup : call.forced = false) :
    (d.perform cfg call).1.fetched = none
      ↔ (latestFetch entries call.exchange).map Prod.fst
        = some call.today := by
  obtain ⟨hrows, hdate⟩ := h call.exchange
  have hnever : d.cache.get (toKiteExchange call.exchange) = none →
      (latestFetch entries call.exchange).map Prod.fst ≠ some call.today := by
    intro hcache
    rw [hcache] at hrows
    rw [Option.map_eq_none_iff.mp hrows.symm]
    simp
  rcases perform_cases cfg d call with
    ⟨_, _, _, htoday, hcase⟩ | ⟨_, hmiss, hcase⟩
      | ⟨_, _, _, _, hother, hcase⟩ | ⟨_, hcache, hcase⟩ <;> rw [hcase]
  · exact iff_of_true rfl (hdate ▸ htoday)
  · refine iff_of_false (by simp) ?_
    rcases hmiss hlookup with hcache | hother
    · exact hnever hcache
    · exact hdate ▸ hother
  · exact iff_of_false (by simp) (hdate ▸ hother)
  · exact iff_of_false (by simp) (hnever (hcache hlookup))

-- ============================================================ any calls

theorem run_snoc (d : InstrumentDump) (calls : List DumpCall)
    (call : DumpCall) :
    d.run cfg (calls ++ [call])
      = ((d.run cfg calls).1
          ++ [((d.run cfg calls).2.perform cfg call).1],
        ((d.run cfg calls).2.perform cfg call).2) := by
  induction calls generalizing d with
  | nil => rfl
  | cons first calls ih =>
      rw [List.cons_append]
      unfold run
      dsimp only
      rw [ih]
      rfl

theorem run_calls (calls : List DumpCall) :
    (d.run cfg calls).1.map DumpEntry.call = calls := by
  induction calls generalizing d with
  | nil => rfl
  | cons call calls ih =>
      unfold run
      dsimp only
      rw [List.map_cons, perform_call, ih]

theorem reflects_run (cfg : KiteReadConfig) (calls : List DumpCall) :
    Reflects (run cfg {} calls).2 (run cfg {} calls).1 := by
  induction calls using List.reverseRecOn with
  | nil => exact fun _ => ⟨rfl, rfl⟩
  | append_singleton calls call ih =>
      rw [run_snoc]
      exact ih.perform

/-- The days of the successful fetches of an exchange. -/
def loadDays (entries : List DumpEntry) (exchange : Exchange) : List Date :=
  entries.filterMap fun entry => (entry.loaded exchange).map Prod.fst

theorem latestFetch_day (entries : List DumpEntry) (exchange : Exchange) :
    (latestFetch entries exchange).map Prod.fst
      = (loadDays entries exchange).getLast? := by
  unfold latestFetch loadDays
  rw [← List.getLast?_map, List.map_filterMap]

theorem mem_loadDays {exchange : Exchange} {day : Date} :
    day ∈ loadDays entries exchange ↔ LoadedOn entries exchange day :=
  List.mem_filterMap

theorem loaded_call {entry : DumpEntry} {exchange : Exchange} {day : Date}
    (h : (entry.loaded exchange).map Prod.fst = some day) :
    day = entry.call.today ∧ entry.call.exchange = exchange := by
  unfold DumpEntry.loaded at h
  split at h
  · split at h
    · rename_i hexchange
      cases h
      exact ⟨rfl, hexchange⟩
    · cases h
  · cases h

/-- On a clock that does not run back the fetches come in the order of
their days. -/
theorem loadDays_ordered {exchange : Exchange}
    (hdates : (entries.map DumpEntry.call).Pairwise
      fun a b => a.today ≤ b.today) :
    (loadDays entries exchange).Pairwise (· ≤ ·) := by
  refine (List.pairwise_map.mp hdates).filterMap _ fun a b hab x hx y hy => ?_
  rw [(loaded_call hx).1, (loaded_call hy).1]
  exact hab

/-- A fetch of today succeeded exactly when the latest one is of today. -/
theorem latest_today_iff {exchange : Exchange} {today : Date}
    (hdates : (entries.map DumpEntry.call).Pairwise
      fun a b => a.today ≤ b.today)
    (htoday : ∀ entry ∈ entries, entry.call.today ≤ today) :
    (latestFetch entries exchange).map Prod.fst = some today
      ↔ LoadedOn entries exchange today := by
  rw [latestFetch_day, ← mem_loadDays]
  refine Journal.last_today_iff (loadDays_ordered hdates) fun day hday => ?_
  obtain ⟨entry, hentry, hloaded⟩ := mem_loadDays.mp hday
  rw [(loaded_call hloaded).1]
  exact htoday entry hentry

/-- A lookup on a clock that does not run back fetches exactly when no
fetch of the exchange succeeded earlier that day. -/
theorem lookup_hit_iff {calls : List DumpCall}
    (hdates : (calls ++ [call]).Pairwise fun a b => a.today ≤ b.today)
    (hlookup : call.forced = false) :
    ((run cfg {} calls).2.perform cfg call).1.fetched = none
      ↔ LoadedOn (run cfg {} calls).1 call.exchange call.today := by
  rw [(reflects_run cfg calls).hit_iff hlookup]
  rw [List.pairwise_append] at hdates
  refine latest_today_iff (by rw [run_calls]; exact hdates.1)
    fun entry hentry => ?_
  refine hdates.2.2 entry.call ?_ call List.mem_cons_self
  have hcalls : (run cfg {} calls).1.map DumpEntry.call = calls :=
    run_calls calls
  rw [← hcalls]
  exact List.mem_map_of_mem hentry

/-- Of the lookups of an exchange on one day at most one fetches with
success. -/
theorem lookups_load_once {calls : List DumpCall}
    (hdates : calls.Pairwise fun a b => a.today ≤ b.today)
    (exchange : Exchange) (day : Date) :
    (run cfg {} calls).1.countP (·.isLoadingLookup exchange day) ≤ 1 := by
  induction calls using List.reverseRecOn with
  | nil => exact Nat.zero_le _
  | append_singleton calls call ih =>
      have hbefore := ih (List.pairwise_append.mp hdates).1
      rw [run_snoc, List.countP_append, List.countP_singleton]
      split
      · rename_i hloads
        unfold DumpEntry.isLoadingLookup at hloads
        rw [perform_call] at hloads
        simp only [Bool.and_eq_true, Bool.not_eq_true', beq_iff_eq] at hloads
        obtain ⟨hlookup, hday⟩ := hloads
        -- it fetched, so no fetch of the day succeeded before
        obtain ⟨htoday, hexchange⟩ := loaded_call hday
        rw [perform_call] at htoday hexchange
        have hnone : (run cfg {} calls).1.countP
            (·.isLoadingLookup exchange day) = 0 := by
          rw [List.countP_eq_zero]
          intro entry hentry hcounted
          unfold DumpEntry.isLoadingLookup at hcounted
          simp only [Bool.and_eq_true, beq_iff_eq] at hcounted
          have hhit : ((run cfg {} calls).2.perform cfg call).1.fetched
              = none := (lookup_hit_iff hdates hlookup).mpr
            ⟨entry, hentry, by rw [hexchange, ← htoday]; exact hcounted.2⟩
          unfold DumpEntry.loaded at hday
          rw [hhit] at hday
          cases hday
        omega
      · exact hbefore

/-- On a clock that does not run back, whatever each fetch comes to: a
lookup returns the rows of the exchange's latest successful fetch; at most
one lookup of an exchange and day fetches with success; a failed fetch
replaces nothing, and a lookup fetches unless the exchange was loaded on
its day; and it raises only what its fetch failed with, for an exchange
that was never loaded. -/
theorem dump_discipline (cfg : KiteReadConfig) (calls : List DumpCall)
    (call : DumpCall)
    (hdates : (calls ++ [call]).Pairwise fun a b => a.today ≤ b.today) :
    (call.forced = false → ∀ rows,
      ((run cfg {} calls).2.perform cfg call).1.answered = .ok rows →
        (latestFetch (run cfg {} (calls ++ [call])).1 call.exchange).map
          Prod.snd = some rows)
    ∧ (∀ exchange day, (run cfg {} (calls ++ [call])).1.countP
        (·.isLoadingLookup exchange day) ≤ 1)
    ∧ (∀ e, ((run cfg {} calls).2.perform cfg call).1.fetched
        = some (.error e) →
      (run cfg {} (calls ++ [call])).2 = (run cfg {} calls).2)
    ∧ (call.forced = false →
      ¬ LoadedOn (run cfg {} calls).1 call.exchange call.today →
        ((run cfg {} calls).2.perform cfg call).1.fetched ≠ none)
    ∧ (call.forced = false → ∀ e,
      ((run cfg {} calls).2.perform cfg call).1.answered = .error e →
        ((run cfg {} calls).2.perform cfg call).1.fetched = some (.error e)
          ∧ latestFetch (run cfg {} calls).1 call.exchange = none) := by
  have h := reflects_run cfg calls
  refine ⟨fun _ rows hok => ?_, lookups_load_once hdates, fun e hfailed => ?_,
    fun hlookup hnot hhit => ?_, fun hlookup e herror => ?_⟩
  · rw [run_snoc]
    exact h.answered hok
  · rw [run_snoc]
    exact failed_leaves hfailed
  · exact hnot ((lookup_hit_iff hdates hlookup).mp hhit)
  · exact h.raised hlookup herror

-- ============================================= a forced refresh that fails

/-- A call for the derivatives exchange. -/
def dumpCall (forced : Bool) (today : Date)
    (outcome : Except BrokerError (List InstrumentRow)) : DumpCall :=
  { forced, exchange := .nfo, today, answers := { attempt := fun _ => outcome } }

/-- The day of the samples, and the one after it. -/
def dumpDay : Date := { year := 2026, month := 8, day := 4 }

def dumpDayAfter : Date := { year := 2026, month := 8, day := 5 }

def dumpRefusal : BrokerError := ⟨.authentication, "session expired"⟩

/-- A forced refresh that fails on a day the exchange was loaded leaves
that day in place, so the next lookup answers from the cache and does not
try again. -/
theorem failed_refresh_not_retried :
    ¬ ∀ (cfg : KiteReadConfig) (calls : List DumpCall)
      (failed next : DumpCall),
      (calls ++ [failed, next]).Pairwise (fun a b => a.today ≤ b.today) →
      (∃ e, ((run cfg {} calls).2.perform cfg failed).1.fetched
        = some (.error e)) →
      next.forced = false → next.exchange = failed.exchange →
        ((run cfg {} (calls ++ [failed])).2.perform cfg next).1.fetched
          ≠ none := by
  intro h
  exact h {} [dumpCall false dumpDay (.ok [])]
    (dumpCall true dumpDay (.error dumpRefusal))
    (dumpCall false dumpDay (.ok []))
    (by simp [dumpCall]) ⟨dumpRefusal, rfl⟩ rfl rfl rfl

/-- The rows of the day: a call and a put. -/
def dumpRows : List InstrumentRow :=
  [{ instrumentToken := some 11, exchange := some "NFO"
     tradingsymbol := some "NIFTY26AUG24500CE", name := some "NIFTY"
     expiry := some dumpDayAfter, strike := some 24500
     instrumentType := OptionType.ce.value, lotSize := 75 },
    { instrumentToken := some 12, exchange := some "NFO"
      tradingsymbol := some "NIFTY26AUG24500PE", name := some "NIFTY"
      expiry := some dumpDayAfter, strike := some 24500
      instrumentType := OptionType.pe.value, lotSize := 75 }]

/-- A day on which the dump was loaded, and a next day on which it is not:
the lookup answers with the rows of the day before. -/
theorem dump_discipline_next_day :
    (latestFetch (run {} {} ([dumpCall false dumpDay (.ok dumpRows)]
        ++ [dumpCall false dumpDayAfter (.error dumpRefusal)])).1
          .nfo).map Prod.snd = some dumpRows :=
  (dump_discipline {} [dumpCall false dumpDay (.ok dumpRows)]
    (dumpCall false dumpDayAfter (.error dumpRefusal))
    (List.pairwise_pair.mpr (by decide))).1 rfl dumpRows rfl

end InstrumentDump

end AlgoPlatform
