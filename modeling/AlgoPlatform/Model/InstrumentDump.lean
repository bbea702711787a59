/-
`KiteBroker`'s instrument dumps when a fetch may fail (`_read`,
`_fetch_and_store`, `_instrument_rows` and `refresh_instruments`).

What the client's `instruments` comes to is given attempt by attempt, an
exception as `translate_kite_exception` leaves it. The lock makes each
call one step. When a dump was loaded is read by a log message alone and
left out, and so are the messages.
-/
import AlgoPlatform.Basis.Dict
import AlgoPlatform.Model.Dates
import AlgoPlatform.Model.InstrumentCaches

open Basis

namespace AlgoPlatform

/-- `to_kite_exchange`. -/
def toKiteExchange : Exchange → String
  | .nfo => "NFO"
  | .bfo => "BFO"
  | .nse => "NSE"
  | .bse => "BSE"

/-- The subclasses of `RetryableBrokerError`. -/
def BrokerErrorKind.isRetryable : BrokerErrorKind → Bool
  | .retryable | .connection | .timeout | .rateLimitExceeded => true
  | _ => false

/-- What the attempts of one `_read` meet: the outcome of each, and
whether after it another would start past the caller's deadline. -/
structure ReadAnswers (α : Type) where
  attempt : Nat → Except BrokerError α
  late : Nat → Bool := fun _ => false

/-- The loop of `_read` from an attempt on, with so many to follow it. -/
def readFrom {α : Type} (answers : ReadAnswers α) :
    Nat → Nat → Except BrokerError α
  | attempt, 0 => answers.attempt attempt
  | attempt, more + 1 =>
      match answers.attempt attempt with
      | .ok value => .ok value
      | .error e =>
          if e.kind.isRetryable ∧ answers.late attempt = false then
            readFrom answers (attempt + 1) more
          else .error e

/-- `KiteBrokerConfig`, as far as a read uses it. -/
structure KiteReadConfig where
  readRetryAttempts : Nat := 3
  attempts_pos : 0 < readRetryAttempts := by decide

/-- `_read`. -/
def KiteReadConfig.read {α : Type} (cfg : KiteReadConfig)
    (answers : ReadAnswers α) : Except BrokerError α :=
  readFrom answers 0 (cfg.readRetryAttempts - 1)

/-- `_instrument_cache` and `_instrument_cache_date`. -/
structure InstrumentDump where
  cache : Dict String (List InstrumentRow) := []
  cacheDate : Dict String Date := []
  deriving DecidableEq

/-- A call that may fetch: a lookup, or a forced refresh. -/
structure DumpCall where
  forced : Bool
  exchange : Exchange
  today : Date
  answers : ReadAnswers (List InstrumentRow)

/-- A call with the outcome of the fetch it made, if it made one, and
what it answered. -/
structure DumpEntry where
  call : DumpCall
  fetched : Option (Except BrokerError (List InstrumentRow))
  answered : Except BrokerError (List InstrumentRow)

namespace InstrumentDump

variable (cfg : KiteReadConfig)

/-- `_fetch_and_store`. -/
def fetchAndStore (d : InstrumentDump) (kiteExchange : String) (today : Date)
    (answers : ReadAnswers (List InstrumentRow)) :
    Except BrokerError (List InstrumentRow) × InstrumentDump :=
  match cfg.read answers with
  | .ok rows =>
      (.ok rows,
        { cache := d.cache.put kiteExchange rows
          cacheDate := d.cacheDate.put kiteExchange today })
  | .error e => (.error e, d)

/-- `_instrument_rows`, which every lookup begins with. -/
def instrumentRows (d : InstrumentDump) (call : DumpCall) :
    DumpEntry × InstrumentDump :=
  let kiteExchange := toKiteExchange call.exchange
  match d.cache.get kiteExchange with
  | some cached =>
      if d.cacheDate.get kiteExchange = some call.today then
        (⟨call, none, .ok cached⟩, d)
      else
        match d.fetchAndStore cfg kiteExchange call.today call.answers with
        | (.ok rows, d) => (⟨call, some (.ok rows), .ok rows⟩, d)
        -- a stale dump is better than none
        | (.error e, d) => (⟨call, some (.error e), .ok cached⟩, d)
  | none =>
      let (fetched, d) :=
        d.fetchAndStore cfg kiteExchange call.today call.answers
      (⟨call, some fetched, fetched⟩, d)

/-- `refresh_instruments`; it returns the number of the rows. -/
def refreshInstruments (d : InstrumentDump) (call : DumpCall) :
    DumpEntry × InstrumentDump :=
  let (fetched, d) := d.fetchAndStore cfg (toKiteExchange call.exchange)
    call.today call.answers
  (⟨call, some fetched, fetched⟩, d)

/-- One call. -/
def perform (d : InstrumentDump) (call : DumpCall) :
    DumpEntry × InstrumentDump :=
  if call.forced then d.refreshInstruments cfg call
  else d.instrumentRows cfg call

/-- What some calls come to, oldest first, and the dump after them. -/
def run (d : InstrumentDump) :
    List DumpCall → List DumpEntry × InstrumentDump
  | [] => ([], d)
  | call :: calls =>
      let (entry, d) := d.perform cfg call
      let (entries, d) := d.run calls
      (entry :: entries, d)

end InstrumentDump

end AlgoPlatform
