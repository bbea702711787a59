/-
Which two contracts are today's straddle: `StrikeSelector.select`
(`strategies/strategy_1/strike_selector.py`), over the expiry that
`ValidatingExpiryService` checks against the exchange's listing
(`services/live_seams.py`) and `KiteBroker`'s look-ups in its dump
(`list_option_expiries`, `find_option_contract`).

Each look-up begins with `_instrument_rows`; the day it reads and what a
fetch would come to are given with it. A broker that cannot enumerate its
expiries, and the log messages, are left out.
-/
import Mathlib.Data.List.Sort
import AlgoPlatform.Model.AtmWindow
import AlgoPlatform.Model.EntryLogic
import AlgoPlatform.Model.Expiry
import AlgoPlatform.Model.InstrumentDump

open Basis

namespace AlgoPlatform

-- ============================================================= look-ups

/-- What a look-up meets: `_today()`, and what a fetch would come to. -/
structure LookupMeets where
  today : Date
  answers : ReadAnswers (List InstrumentRow)

/-- The `_instrument_rows` that a look-up begins with. -/
def LookupMeets.call (meets : LookupMeets) (exchange : Exchange) : DumpCall :=
  { forced := false, exchange, today := meets.today, answers := meets.answers }

/-- What `find_option_contract` may raise: what the dump raised,
`InstrumentNotFoundError`, `KiteMappingError`. -/
inductive LookupError
  | broker (e : BrokerError)
  | instrumentNotFound (query : OptionQuery)
  | mapping (row : InstrumentRow)
  deriving DecidableEq, Repr

/-- `except InstrumentNotFoundError`. -/
def LookupError.isNotFound : LookupError → Bool
  | .broker e => e.kind = .instrumentNotFound
  | .instrumentNotFound _ => true
  | .mapping _ => false

/-- The row is an option of the underlying. -/
def InstrumentRow.isOptionOf (row : InstrumentRow) (underlying : String) :
    Bool :=
  row.name = some underlying
    ∧ (row.instrumentType = OptionType.ce.value
      ∨ row.instrumentType = OptionType.pe.value)

/-- The rows' part of `list_option_expiries`: the distinct expiries, in
order. -/
def listedExpiries (rows : List InstrumentRow) (underlying : String) :
    List Date :=
  ((rows.filter (·.isOptionOf underlying)).filterMap
    (·.expiry)).dedup.insertionSort
    (· ≤ ·)

/-- What `find_option_contract` compares. -/
def InstrumentRow.isFor (row : InstrumentRow) (query : OptionQuery) : Bool :=
  row.For query.underlying query.expiry
    ∧ row.instrumentType = query.optionType.value
    ∧ row.strike.filter (· ≠ 0) = some query.strike

/-- The rows' part of `find_option_contract`. -/
def findContract (rows : List InstrumentRow) (query : OptionQuery) :
    Except LookupError KiteInstrument :=
  match rows.find? (·.isFor query) with
  | none => .error (.instrumentNotFound query)
  | some row =>
      match toBrokerInstrument row with
      | some contract => .ok contract
      | none => .error (.mapping row)

namespace InstrumentDump

variable (cfg : KiteReadConfig) (d : InstrumentDump)

/-- `list_option_expiries`. -/
def listOptionExpiries (underlying : String) (exchange : Exchange)
    (meets : LookupMeets) : Except LookupError (List Date) × InstrumentDump :=
  let (entry, d) := d.instrumentRows cfg (meets.call exchange)
  match entry.answered with
  | .ok rows => (.ok (listedExpiries rows underlying), d)
  | .error e => (.error (.broker e), d)

/-- `find_option_contract`. -/
def findOptionContract (query : OptionQuery) (meets : LookupMeets) :
    Except LookupError KiteInstrument × InstrumentDump :=
  let (entry, d) := d.instrumentRows cfg (meets.call query.exchange)
  match entry.answered with
  | .ok rows => (findContract rows query, d)
  | .error e => (.error (.broker e), d)

end InstrumentDump

-- ============================================================ selection

/-- One instrument's configuration, as far as the selection reads it. -/
structure TradedConfig extends InstrumentConfig where
  strikeInterval : ℚ
  underlyingSymbol : Option String := none
  interval_pos : 0 < strikeInterval := by decide

/-- `spec.underlying_symbol or instrument`. -/
def TradedConfig.underlying (spec : TradedConfig) (instrument : String) :
    String :=
  (spec.underlyingSymbol.filter (· ≠ "")).getD instrument

/-- One line of `_validate_resolved_contract`'s list. -/
inductive Mismatch
  | strike (expected : ℚ) (got : Option ℚ)
  | expiry (expected : Date) (got : Option Date)
  | optionType (expected : OptionType) (got : Option OptionType)
  | exchange (expected got : Exchange)
  deriving DecidableEq, Repr

/-- The `StrikeSelectionError`s of `select`. -/
inductive SelectionError
  | atm (e : StrikeSelectionError)
  | noContract (instrument : String) (query : OptionQuery)
  | mismatch (tradingsymbol : String) (mismatches : List Mismatch)
  deriving DecidableEq, Repr

/-- What `select` raises: the error it documents, the `KeyError` of an
unknown instrument, what date arithmetic raises, `ExpiryNotListedError`,
and what a look-up raises. -/
inductive SelectError
  | strikeSelection (e : SelectionError)
  | key (instrument : String)
  | date (e : DateError)
  | expiryNotListed (computed : Date) (listed : List Date)
  | lookup (e : LookupError)
  deriving DecidableEq

/-- The `StraddleStrikeSelection` that `select` builds, with all it carries
of the contracts; the entry reads less of it (`forEntry`). -/
structure SelectedStraddle where
  instrument : String
  exchange : Exchange
  spotLtp : ℚ
  strikeInterval : ℚ
  atmStrike : ℚ
  expiry : Date
  call : KiteInstrument
  put : KiteInstrument
  deriving DecidableEq

/-- The list `_validate_resolved_contract` builds. -/
def mismatches (resolved : KiteInstrument) (query : OptionQuery) :
    List Mismatch :=
  (if resolved.strike = some query.strike then []
    else [.strike query.strike resolved.strike])
  ++ (if resolved.expiry = some query.expiry then []
    else [.expiry query.expiry resolved.expiry])
  ++ (if resolved.optionType = some query.optionType then []
    else [.optionType query.optionType resolved.optionType])
  ++ (if resolved.exchange = query.exchange then []
    else [.exchange query.exchange resolved.exchange])

/-- What the three look-ups of a selection meet. -/
structure SelectMeets where
  expiries : LookupMeets
  call : LookupMeets
  put : LookupMeets

/-- The selector with the services it was given. -/
structure StrikeSelector where
  cfg : KiteReadConfig := {}
  holidays : HolidayService
  /-- `ConfigInstrumentService._configs`. -/
  configs : String → Option TradedConfig

namespace StrikeSelector

variable (sel : StrikeSelector) (d : InstrumentDump)

/-- `ValidatingExpiryService.get_current_weekly_expiry`. -/
def currentExpiry (spec : TradedConfig) (instrument : String) (asOf : Day)
    (meets : LookupMeets) : Except SelectError Date × InstrumentDump :=
  match ConfigExpiryService.getCurrentWeeklyExpiry sel.holidays
    spec.toInstrumentConfig asOf with
  | .error e => (.error (.date e), d)
  | .ok computed =>
      match d.listOptionExpiries sel.cfg (spec.underlying instrument)
        spec.exchange meets with
      | (.error e, d) => (.error (.lookup e), d)
      | (.ok listed, d) =>
          if computed.date ∈ listed then (.ok computed.date, d)
          else (.error (.expiryNotListed computed.date listed), d)

/-- `_resolve_contract`. -/
def resolveContract (instrument : String) (query : OptionQuery)
    (meets : LookupMeets) :
    Except SelectError KiteInstrument × InstrumentDump :=
  match d.findOptionContract sel.cfg query meets with
  | (.error e, d) =>
      if e.isNotFound then
        (.error (.strikeSelection (.noContract instrument query)), d)
      else (.error (.lookup e), d)
  | (.ok resolved, d) =>
      match mismatches resolved query with
      | [] => (.ok resolved, d)
      | found => (.error (.strikeSelection
          (.mismatch resolved.tradingsymbol found)), d)

/-- What `select` asks the broker for. -/
def legQuery (spec : TradedConfig) (instrument : String) (expiry : Date)
    (strike : ℚ) (optionType : OptionType) : OptionQuery :=
  { underlying := spec.underlying instrument, expiry, strike, optionType
    exchange := spec.exchange }

/-- `select`. -/
def select (instrument : String) (spotLtp : ℚ) (asOf : Day)
    (meets : SelectMeets) :
    Except SelectError SelectedStraddle × InstrumentDump :=
  match sel.configs instrument with
  | none => (.error (.key instrument), d)
  | some spec =>
  match computeAtmStrike spotLtp spec.strikeInterval with
  | .error e => (.error (.strikeSelection (.atm e)), d)
  | .ok atmStrike =>
  match sel.currentExpiry d spec instrument asOf meets.expiries with
  | (.error e, d) => (.error e, d)
  | (.ok expiry, d) =>
  match sel.resolveContract d instrument
    (legQuery spec instrument expiry atmStrike .ce) meets.call with
  | (.error e, d) => (.error e, d)
  | (.ok call, d) =>
  match sel.resolveContract d instrument
    (legQuery spec instrument expiry atmStrike .pe) meets.put with
  | (.error e, d) => (.error e, d)
  | (.ok put, d) =>
      (.ok { instrument, exchange := spec.exchange, spotLtp
             strikeInterval := spec.strikeInterval, atmStrike, expiry
             call, put }, d)

end StrikeSelector

-- ============================================================= the entry

/-- What the entry reads of a contract. -/
def KiteInstrument.forEntry (contract : KiteInstrument) :
    Option BrokerInstrument := do
  let optionType ← contract.optionType
  if h : 0 < contract.lotSize then
    pure { exchange := contract.exchange
           tradingsymbol := contract.tradingsymbol
           lotSize := contract.lotSize, optionType, lotSize_pos := h }
  else none

/-- What the entry reads of the selection: there is such an input only for
a CE and a PE. -/
def SelectedStraddle.forEntry (s : SelectedStraddle) :
    Option StraddleStrikeSelection := do
  let call ← s.call.forEntry
  let put ← s.put.forEntry
  if h : call.optionType = .ce ∧ put.optionType = .pe then
    pure { spotLtp := s.spotLtp, strikeInterval := s.strikeInterval
           atmStrike := s.atmStrike, expiry := s.expiry, call, put
           call_ce := h.1, put_pe := h.2 }
  else none

end AlgoPlatform
