/-
The three caches of Kite's instrument dump: `KiteBroker`'s
(`find_option_contract`, `_instrument_rows`), `KiteInstrumentTokenMap`'s
(`services/live_seams.py`) and the collector's `KiteMarketReader`'s.

The dump of a day is what the client's `instruments` answers on it;
kiteconnect has parsed its numbers and dates. Every fetch succeeds here.
The map from tokens back to instruments is left out.
-/
import AlgoPlatform.Basis.Memo
import AlgoPlatform.Model.KiteMapper
import AlgoPlatform.Model.MarketData

open Basis

namespace AlgoPlatform

/-- One row of the dump, as the code reads it with `row.get`. -/
structure InstrumentRow where
  instrumentToken : Option Nat
  exchange : Option String
  tradingsymbol : Option String
  name : Option String
  expiry : Option Date
  strike : Option ℚ
  instrumentType : String
  lotSize : Nat := 0
  tickSize : ℚ := 0
  deriving DecidableEq, Repr

/-- What the exchanges list, day by day. -/
abbrev Listing : Type := Date → Exchange → List InstrumentRow

/-- A resolved contract. -/
structure KiteInstrument where
  instrumentToken : Nat
  exchange : Exchange
  tradingsymbol : String
  name : String
  lotSize : Nat
  tickSize : ℚ
  expiry : Option Date
  strike : Option ℚ
  optionType : Option OptionType
  deriving DecidableEq, Repr

/-- `to_broker_instrument`: `none` for a row it cannot map. -/
def toBrokerInstrument (row : InstrumentRow) : Option KiteInstrument := do
  let instrumentToken ← row.instrumentToken
  let value ← row.exchange
  let exchange ← (fromKiteExchange (.str value)).toOption
  let tradingsymbol ← row.tradingsymbol
  pure { instrumentToken, exchange, tradingsymbol
         name := (row.name.filter (· ≠ "")).getD tradingsymbol
         lotSize := if row.lotSize = 0 then 1 else row.lotSize
         tickSize := if row.tickSize = 0 then 1 / 20 else row.tickSize
         expiry := row.expiry
         strike := row.strike.filter (· ≠ 0)
         optionType := if row.instrumentType = "CE" then some .ce
           else if row.instrumentType = "PE" then some .pe else none }

/-- The arguments of `find_option_contract`. -/
structure OptionQuery where
  underlying : String
  expiry : Date
  strike : ℚ
  optionType : OptionType
  exchange : Exchange
  deriving DecidableEq, Repr

/-- The row is listed for the underlying and expiry. -/
def InstrumentRow.For (row : InstrumentRow) (underlying : String)
    (expiry : Date) : Prop :=
  row.name = some underlying ∧ row.expiry = some expiry

instance (row : InstrumentRow) (underlying : String) (expiry : Date) :
    Decidable (row.For underlying expiry) := by
  unfold InstrumentRow.For
  infer_instance

/-- The scan of `find_option_contract`: the first row that matches; `none`
for the errors. -/
def findIn (rows : List InstrumentRow) (query : OptionQuery) :
    Option KiteInstrument :=
  match rows.find? fun row => row.For query.underlying query.expiry
      ∧ row.instrumentType = query.optionType.value
      ∧ row.strike.filter (· ≠ 0) = some query.strike with
  | some row => toBrokerInstrument row
  | none => none

/-- One row of the loop of `_ensure_loaded`. -/
def putSymbol (symbols : String → Option Nat) (row : InstrumentRow) :
    String → Option Nat :=
  match row.instrumentToken, row.tradingsymbol with
  | some token, some symbol =>
      if symbol = "" then symbols
      else fun s => if s = symbol then some token else symbols s
  | _, _ => symbols

/-- The dict `_ensure_loaded` builds: the tokens by tradingsymbol, where
of two rows the later stands. -/
def symbolsOf (rows : List InstrumentRow) : String → Option Nat :=
  rows.foldl putSymbol fun _ => none

/-- One row of the loop of `option_chain`. -/
def putContract (underlying : String) (expiry : Date)
    (chain : ℚ → OptionType → Option (String × Nat)) (row : InstrumentRow) :
    ℚ → OptionType → Option (String × Nat) :=
  match row.instrumentToken, row.tradingsymbol, row.strike with
  | some token, some symbol, some strike =>
      if row.For underlying expiry ∧ symbol ≠ ""
          ∧ (row.instrumentType = "CE" ∨ row.instrumentType = "PE") then
        fun k type =>
          if k = strike ∧ type.value = row.instrumentType then
            some (symbol, token)
          else chain k type
      else chain
  | _, _, _ => chain

/-- The dict `option_chain` builds: symbol and token by strike and
type. -/
def chainOf (rows : List InstrumentRow) (underlying : String)
    (expiry : Date) : ℚ → OptionType → Option (String × Nat) :=
  rows.foldl (putContract underlying expiry) fun _ _ => none

-- ============================================================== caches

/-- What the processes keep of the dumps, by exchange. -/
structure InstrumentCaches where
  /-- `KiteBroker._instrument_cache`, with its dates. -/
  broker : Daily Exchange Date (List InstrumentRow) := fun _ => none
  /-- `KiteInstrumentTokenMap._by_symbol`. -/
  tokenMap : Once Exchange (String → Option Nat) := fun _ => none
  /-- `KiteMarketReader._dumps`. -/
  reader : Once Exchange (List InstrumentRow) := fun _ => none

namespace InstrumentCaches

variable (listing : Listing) (c : InstrumentCaches) (today : Date)

/-- `KiteBroker.find_option_contract`. -/
def findOptionContract (query : OptionQuery) :
    Option KiteInstrument × InstrumentCaches :=
  let (rows, broker) := c.broker.get listing today query.exchange
  (findIn rows query, { c with broker })

/-- `KiteBroker.refresh_instruments`: how many were loaded. -/
def refreshInstruments (exchange : Exchange) : Nat × InstrumentCaches :=
  let (rows, broker) := c.broker.store listing today exchange
  (rows.length, { c with broker })

/-- `KiteInstrumentTokenMap.token_for_instrument`; `none` is
`InstrumentNotFoundError`. -/
def tokenForInstrument (i : InstrumentIdentifier) :
    Option Nat × InstrumentCaches :=
  let (symbols, tokenMap) := c.tokenMap.get
    (fun day exchange => symbolsOf (listing day exchange)) today i.exchange
  (symbols i.tradingsymbol, { c with tokenMap })

/-- `KiteMarketReader.option_chain`, of an instrument whose dump name and
exchange are these. -/
def optionChain (underlying : String) (exchange : Exchange) (expiry : Date) :
    (ℚ → OptionType → Option (String × Nat)) × InstrumentCaches :=
  let (rows, reader) := c.reader.get listing today exchange
  (chainOf rows underlying expiry, { c with reader })

/-- The calls that use a cache. -/
inductive Action
  | findOptionContract (query : OptionQuery)
  | refreshInstruments (exchange : Exchange)
  | tokenForInstrument (i : InstrumentIdentifier)
  | optionChain (underlying : String) (exchange : Exchange) (expiry : Date)
  deriving DecidableEq, Repr

/-- One call on its day. -/
def step (call : Date × Action) : InstrumentCaches :=
  match call.2 with
  | .findOptionContract query => (c.findOptionContract listing call.1 query).2
  | .refreshInstruments exchange =>
      (c.refreshInstruments listing call.1 exchange).2
  | .tokenForInstrument i => (c.tokenForInstrument listing call.1 i).2
  | .optionChain underlying exchange expiry =>
      (c.optionChain listing call.1 underlying exchange expiry).2

/-- The caches after calls, from processes just started. -/
def after (calls : List (Date × Action)) : InstrumentCaches :=
  calls.foldl (step listing) {}

end InstrumentCaches

end AlgoPlatform
