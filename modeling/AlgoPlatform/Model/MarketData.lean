/-
The market-data layer (`market_data/`): the latest-price cache, the
reference-counted subscriptions, and the service that serves prices from
the cache and polls for the ones it has no fresh entry of.

Instants and durations are seconds, as exact rationals. An operation of
the service is one step: the source guards each access by a lock, and
the two clocks an operation reads are arguments of their own.
-/
import Mathlib.Algebra.Order.Ring.Rat
import AlgoPlatform.Model.Enums

namespace AlgoPlatform

/-- `InstrumentIdentifier`: the key prices are looked up by. -/
structure InstrumentIdentifier where
  exchange : Exchange
  tradingsymbol : String
  deriving DecidableEq, Repr

/-- One market-data update. -/
structure Tick where
  instrument : InstrumentIdentifier
  lastPrice : ℚ
  deriving DecidableEq, Repr

/-- `is_plausible`: the sanity gate of the websocket path. -/
def isPlausible (tick : Tick) : Bool := 0 < tick.lastPrice

/-- A dict of last prices: each instrument at most once. -/
structure Ltps where
  items : List (InstrumentIdentifier × ℚ)
  nodup : (items.map Prod.fst).Nodup := by decide

/-- `dict.get`. -/
def Ltps.get (l : Ltps) (i : InstrumentIdentifier) : Option ℚ :=
  l.items.lookup i

-- =============================================================== cache

/-- A cached last price and when it was recorded. -/
structure CachedPrice where
  price : ℚ
  updatedAt : ℚ
  deriving DecidableEq, Repr

/-- `MarketCache`: the latest price of every instrument seen. -/
abbrev MarketCache : Type := InstrumentIdentifier → Option CachedPrice

namespace MarketCache

/-- `update`: overwrite whatever was there. -/
def update (c : MarketCache) (i : InstrumentIdentifier) (price now : ℚ) :
    MarketCache :=
  fun j => if j = i then some ⟨price, now⟩ else c j

/-- `remove`. -/
def remove (c : MarketCache) (i : InstrumentIdentifier) : MarketCache :=
  fun j => if j = i then none else c j

/-- `is_fresh`: there is an entry, and it is young enough. -/
def isFresh (c : MarketCache) (i : InstrumentIdentifier)
    (now maxAge : ℚ) : Bool :=
  match c i with
  | some entry => now - entry.updatedAt ≤ maxAge
  | none => false

end MarketCache

-- ======================================================= subscriptions

/-- `SubscriptionManager`: how many consumers each instrument has, in
the order the instruments were first subscribed. -/
abbrev SubscriptionManager : Type := List (InstrumentIdentifier × Nat)

namespace SubscriptionManager

/-- `reference_count`. -/
def referenceCount (s : SubscriptionManager) (i : InstrumentIdentifier) : Nat :=
  (s.lookup i).getD 0

/-- One instrument of `subscribe`. -/
def subscribeOne (s : SubscriptionManager) (i : InstrumentIdentifier) :
    SubscriptionManager :=
  if s.referenceCount i = 0 then s ++ [(i, 1)]
  else s.map fun e => if e.1 = i then (e.1, e.2 + 1) else e

/-- One instrument of `unsubscribe`: whether it went from 1 to 0. -/
def unsubscribeOne (s : SubscriptionManager) (i : InstrumentIdentifier) :
    SubscriptionManager × Bool :=
  match s.referenceCount i with
  | 0 => (s, false)
  | 1 => (s.filter fun e => e.1 ≠ i, true)
  | _ => (s.map fun e => if e.1 = i then (e.1, e.2 - 1) else e, false)

/-- `active`. -/
def active (s : SubscriptionManager) : List InstrumentIdentifier :=
  s.map Prod.fst

end SubscriptionManager

-- ============================================================= service

/-- The fields of `MarketDataConfig` the decisions read. -/
structure MarketDataConfig where
  freshnessSeconds : ℚ
  pollRetryAttempts : Nat
  freshness_pos : 0 < freshnessSeconds
  attempts_pos : 1 ≤ pollRetryAttempts

/-- What one call of the poller comes to. -/
inductive PollAnswer
  | priced (prices : Ltps)
  /-- A `NonRetryableBrokerError`. -/
  | nonRetryable
  /-- Any other `BrokerError`. -/
  | transient
  /-- Anything else that was raised. -/
  | unexpected

/-- `MarketDataService`. -/
structure MarketDataService where
  cache : MarketCache := fun _ => none
  subscriptions : SubscriptionManager := []

/-- What can be seen of the prices the layer handles. -/
inductive Sighting
  /-- The poller answered with this price. -/
  | polled (price : ℚ)
  /-- The cache stored this price. -/
  | stored (price : ℚ)
  /-- `get_ltps` or `get_ltp` returned this price. -/
  | returned (price : ℚ)
  /-- An exit was decided for this reason on these two leg prices. -/
  | decided (reason : ExitReason) (call put : Option ℚ)
  deriving DecidableEq, Repr

namespace MarketDataService

/-- `_resilient_poll`: a transient failure is retried while attempts
remain, and every failure ends in no answer. -/
def resilientPoll : Nat → List PollAnswer → Option Ltps
  | 0, _ => none
  | _, [] => none
  | attempts + 1, answer :: answers =>
      match answer with
      | .priced prices => some prices
      | .nonRetryable | .unexpected => none
      | .transient => resilientPoll attempts answers

/-- The loop of `_poll` without broadcast: every answered price goes
into the cache. -/
def storeAll (s : MarketDataService) (now : ℚ) :
    List (InstrumentIdentifier × ℚ) → MarketDataService × List Sighting
  | [] => (s, [])
  | (i, price) :: rest =>
      let s := { s with cache := s.cache.update i price now }
      let (s, seen) := storeAll s now rest
      (s, .stored price :: seen)

/-- `_poll` without broadcast. -/
def poll (s : MarketDataService) (config : MarketDataConfig)
    (answers : List PollAnswer) (now : ℚ) :
    MarketDataService × List (InstrumentIdentifier × ℚ) × List Sighting :=
  match resilientPoll config.pollRetryAttempts answers with
  | none => (s, [], [])
  | some prices =>
      let (s, seen) := s.storeAll now prices.items
      (s, prices.items, prices.items.map (fun p => .polled p.2) ++ seen)

/-- The clocks a read takes, and what the poller would answer. -/
structure ReadReading where
  now : ℚ
  polledAt : ℚ
  answers : List PollAnswer

/-- What the cache serves of a batch. -/
def served (s : MarketDataService) (config : MarketDataConfig) (now : ℚ)
    (instruments : List InstrumentIdentifier) :
    List (InstrumentIdentifier × ℚ) :=
  instruments.filterMap fun i =>
    if s.cache.isFresh i now config.freshnessSeconds then
      (s.cache i).map fun entry => (i, entry.price)
    else none

/-- `get_ltps`: fresh entries from the cache, the rest polled in one
batch; `result.update(polled)` lets a polled price win. -/
def getLtps (s : MarketDataService) (config : MarketDataConfig)
    (instruments : List InstrumentIdentifier) (r : ReadReading) :
    MarketDataService × List (InstrumentIdentifier × ℚ) × List Sighting :=
  let cached := s.served config r.now instruments
  let toPoll := instruments.filter fun i =>
    s.cache.isFresh i r.now config.freshnessSeconds = false
  if toPoll = [] then
    (s, cached, cached.map fun p => .returned p.2)
  else
    let (s, polled, seen) := s.poll config r.answers r.polledAt
    let result := polled
      ++ cached.filter fun p => p.1 ∉ polled.map Prod.fst
    (s, result, seen ++ result.map fun p => .returned p.2)

/-- `get_ltp`: the price, or `none` for `MarketDataUnavailableError`. -/
def getLtp (s : MarketDataService) (config : MarketDataConfig)
    (i : InstrumentIdentifier) (r : ReadReading) :
    MarketDataService × Option ℚ × List Sighting :=
  let (s, result, seen) := s.getLtps config [i] r
  (s, result.lookup i, seen)

/-- `subscribe`. -/
def subscribe (s : MarketDataService)
    (instruments : List InstrumentIdentifier) : MarketDataService :=
  { s with subscriptions :=
      instruments.foldl SubscriptionManager.subscribeOne s.subscriptions }

/-- `unsubscribe`: the cache drops what no consumer needs any more. -/
def unsubscribe (s : MarketDataService)
    (instruments : List InstrumentIdentifier) : MarketDataService :=
  instruments.foldl (fun s i =>
    let (subscriptions, inactive) := s.subscriptions.unsubscribeOne i
    if inactive then { subscriptions, cache := s.cache.remove i }
    else { s with subscriptions }) s

end MarketDataService

end AlgoPlatform
