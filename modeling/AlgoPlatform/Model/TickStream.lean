/-
The live market feed: the subscription deltas of `SubscriptionManager`,
the ticker adapter `KiteTickStream` (`brokers/kite/market_ticker.py`), and
`MarketDataService` over it.

The socket belongs to the ticker library: it opens without subscriptions,
takes `subscribe` and `unsubscribe` while it is open, and forgets all of
them when it closes. A message to a closed socket is lost; the exception
it may raise is caught by the service. The mode of a subscription decides
nothing here.
-/
import Mathlib.Data.Finset.Basic
import AlgoPlatform.Model.MarketData

namespace AlgoPlatform

namespace SubscriptionManager

/-- `subscribe`: the counts, and the instruments that went from 0 to 1. -/
def subscribe (s : SubscriptionManager)
    (instruments : List InstrumentIdentifier) :
    SubscriptionManager × List InstrumentIdentifier :=
  instruments.foldl (fun (s, newlyActive) i =>
    (s.subscribeOne i,
      if s.referenceCount i = 0 ∧ i ∉ newlyActive then newlyActive ++ [i]
      else newlyActive)) (s, [])

/-- `unsubscribe`: the counts, and the instruments that went from 1 to
0. -/
def unsubscribe (s : SubscriptionManager)
    (instruments : List InstrumentIdentifier) :
    SubscriptionManager × List InstrumentIdentifier :=
  instruments.foldl (fun (s, newlyInactive) i =>
    ((s.unsubscribeOne i).1,
      if (s.unsubscribeOne i).2 = true ∧ i ∉ newlyInactive then
        newlyInactive ++ [i]
      else newlyInactive)) (s, [])

end SubscriptionManager

-- ============================================================== ticker

/-- A KiteTicker: what its socket is subscribed to, `none` while it is
closed. -/
structure KiteMarketTicker where
  socket : Option (Finset Nat) := none
  deriving DecidableEq

namespace KiteMarketTicker

def subscribe (t : KiteMarketTicker) (tokens : Finset Nat) :
    KiteMarketTicker := ⟨t.socket.map (· ∪ tokens)⟩

def unsubscribe (t : KiteMarketTicker) (tokens : Finset Nat) :
    KiteMarketTicker := ⟨t.socket.map (· \ tokens)⟩

end KiteMarketTicker

-- ============================================================== stream

/-- `KiteTickStream`. -/
structure KiteTickStream where
  ticker : Option KiteMarketTicker := none
  connected : Bool := false
  subscribedTokens : Finset Nat := ∅
  deriving DecidableEq

/-- `TokenForInstrument`: the token, or `none` where it raises. -/
abbrev TokenForInstrument : Type := InstrumentIdentifier → Option Nat

namespace KiteTickStream

/-- `_resolve_tokens`: an instrument without a token is skipped. -/
def resolveTokens (tokenFor : TokenForInstrument)
    (instruments : List InstrumentIdentifier) : Finset Nat :=
  (instruments.filterMap tokenFor).toFinset

/-- `start`. -/
def start (s : KiteTickStream) : KiteTickStream :=
  match s.ticker with
  | some _ => s
  | none => { s with ticker := some {} }

/-- `stop`; the ticker is dropped and its socket with it. -/
def stop (_ : KiteTickStream) : KiteTickStream :=
  { ticker := none, connected := false, subscribedTokens := ∅ }

/-- `subscribe`. -/
def subscribe (tokenFor : TokenForInstrument) (s : KiteTickStream)
    (instruments : List InstrumentIdentifier) : KiteTickStream :=
  let tokens := resolveTokens tokenFor instruments
  if tokens = ∅ then s
  else { s with subscribedTokens := s.subscribedTokens ∪ tokens
                ticker := s.ticker.map (·.subscribe tokens) }

/-- `unsubscribe`. -/
def unsubscribe (tokenFor : TokenForInstrument) (s : KiteTickStream)
    (instruments : List InstrumentIdentifier) : KiteTickStream :=
  let tokens := resolveTokens tokenFor instruments
  if tokens = ∅ then s
  else { s with subscribedTokens := s.subscribedTokens \ tokens
                ticker := s.ticker.map (·.unsubscribe tokens) }

/-- `_handle_connect`, up to the service's handler. -/
def handleConnect (s : KiteTickStream) : KiteTickStream :=
  { s with connected := true
           ticker := if s.subscribedTokens = ∅ then s.ticker
             else s.ticker.map (·.subscribe s.subscribedTokens) }

/-- `_handle_close`; the service's handler only logs. -/
def handleClose (s : KiteTickStream) : KiteTickStream :=
  { s with connected := false }

/-- The socket opens, with no memory of prior subscriptions. -/
def opened (s : KiteTickStream) : KiteTickStream :=
  { s with ticker := s.ticker.map fun _ => ⟨some ∅⟩ }

/-- The socket closes. -/
def closed (s : KiteTickStream) : KiteTickStream :=
  { s with ticker := s.ticker.map fun _ => ⟨none⟩ }

end KiteTickStream

-- ================================================================ feed

/-- `MarketDataService` and the stream it drives. -/
structure MarketFeed where
  service : MarketDataService := {}
  stream : KiteTickStream := {}

namespace MarketFeed

variable (tokenFor : TokenForInstrument)

/-- `MarketDataService.subscribe`. -/
def subscribe (f : MarketFeed) (instruments : List InstrumentIdentifier) :
    MarketFeed :=
  let (subscriptions, newlyActive) :=
    f.service.subscriptions.subscribe instruments
  { service := { f.service with subscriptions }
    stream := if newlyActive ≠ [] ∧ f.stream.connected = true then
        f.stream.subscribe tokenFor newlyActive
      else f.stream }

/-- `MarketDataService.unsubscribe`. -/
def unsubscribe (f : MarketFeed) (instruments : List InstrumentIdentifier) :
    MarketFeed :=
  let (subscriptions, newlyInactive) :=
    f.service.subscriptions.unsubscribe instruments
  { service := { subscriptions
                 cache := newlyInactive.foldl MarketCache.remove
                   f.service.cache }
    stream := if newlyInactive ≠ [] ∧ f.stream.connected = true then
        f.stream.unsubscribe tokenFor newlyInactive
      else f.stream }

/-- `_resubscribe_all`. -/
def resubscribeAll (f : MarketFeed) : MarketFeed :=
  let active := f.service.subscriptions.active
  if active ≠ [] then { f with stream := f.stream.subscribe tokenFor active }
  else f

/-- What may happen to a feed: the consumers' calls, `start` and `stop`,
and what the ticker reports. -/
inductive Event
  | subscribe (instruments : List InstrumentIdentifier)
  | unsubscribe (instruments : List InstrumentIdentifier)
  | start
  | stop
  | connect
  | close
  | reconnect
  deriving DecidableEq

/-- One event. Only a ticker that is there reports. -/
def step (f : MarketFeed) : Event → MarketFeed
  | .subscribe instruments => f.subscribe tokenFor instruments
  | .unsubscribe instruments => f.unsubscribe tokenFor instruments
  | .start => { f with stream := f.stream.start }
  | .stop => { f with stream := f.stream.stop }
  | .connect =>
      if f.stream.ticker.isSome then
        resubscribeAll tokenFor
          { f with stream := f.stream.opened.handleConnect }
      else f
  | .close =>
      if f.stream.ticker.isSome then
        { f with stream := f.stream.closed.handleClose }
      else f
  | .reconnect =>
      if f.stream.ticker.isSome then f.resubscribeAll tokenFor else f

/-- A run, from a feed nobody has used. -/
def run (es : List Event) : MarketFeed := es.foldl (step tokenFor) {}

end MarketFeed

end AlgoPlatform
