/-
The vocabulary of the platform: the persisted enumerations, dates as the
keys and tags spell them, and the exceptions the code tells apart.

Every enumeration is stored as its member's name (`common/enums.py`);
`value` spells out the ones a text or a key is built from.
-/
import Mathlib.Tactic.Common

namespace AlgoPlatform

-- ======================================================== enumerations

inductive Exchange
  | nfo | bfo | nse | bse
  deriving DecidableEq, Repr

def Exchange.value : Exchange → String
  | .nfo => "NFO"
  | .bfo => "BFO"
  | .nse => "NSE"
  | .bse => "BSE"

inductive OptionType
  | ce | pe
  deriving DecidableEq, Repr

def OptionType.value : OptionType → String
  | .ce => "CE"
  | .pe => "PE"

/-- Operational status of a persistent strategy instance. -/
inductive InstanceStatus
  | active | frozen | disabled
  deriving DecidableEq, Repr

/-- The persisted state machine of one instrument's daily straddle. -/
inductive PositionState
  | idle | entryPending | open | exitPending | closed | error
  deriving DecidableEq, Repr

def PositionState.value : PositionState → String
  | .idle => "IDLE"
  | .entryPending => "ENTRY_PENDING"
  | .open => "OPEN"
  | .exitPending => "EXIT_PENDING"
  | .closed => "CLOSED"
  | .error => "ERROR"

inductive ExitReason
  | target | stoploss | timeout | killSwitch | manual | error
  deriving DecidableEq, Repr

def ExitReason.value : ExitReason → String
  | .target => "TARGET"
  | .stoploss => "STOPLOSS"
  | .timeout => "TIMEOUT"
  | .killSwitch => "KILL_SWITCH"
  | .manual => "MANUAL"
  | .error => "ERROR"

/-- Lifecycle of one option leg; `unwound` is a leg bought back because
its sibling never filled. -/
inductive TradeLegStatus
  | pending | open | closed | unwound | error
  deriving DecidableEq, Repr

inductive OrderPurpose
  | entry | exit
  deriving DecidableEq, Repr

def OrderPurpose.value : OrderPurpose → String
  | .entry => "ENTRY"
  | .exit => "EXIT"

inductive TransactionType
  | buy | sell
  deriving DecidableEq, Repr

inductive OrderType
  | market | limit
  deriving DecidableEq, Repr

inductive ProductType
  | intraday | normal
  deriving DecidableEq, Repr

inductive OrderStatus
  | pending | open | complete | rejected | cancelled | error
  deriving DecidableEq, Repr

def OrderStatus.value : OrderStatus → String
  | .pending => "PENDING"
  | .open => "OPEN"
  | .complete => "COMPLETE"
  | .rejected => "REJECTED"
  | .cancelled => "CANCELLED"
  | .error => "ERROR"

/-- `str.lower` of the status name, as rejection messages spell it. -/
def OrderStatus.lowered : OrderStatus → String
  | .pending => "pending"
  | .open => "open"
  | .complete => "complete"
  | .rejected => "rejected"
  | .cancelled => "cancelled"
  | .error => "error"

/-- The terminal statuses: no broker moves an order out of one. -/
def OrderStatus.isTerminal : OrderStatus → Bool
  | .complete | .rejected | .cancelled | .error => true
  | .pending | .open => false

/-- Lifecycle of the durable "about to place this order" record. -/
inductive IntentStatus
  | pending | submittedUnconfirmed | placed | confirmed | failed | cancelled
  deriving DecidableEq, Repr

def IntentStatus.value : IntentStatus → String
  | .pending => "PENDING"
  | .submittedUnconfirmed => "SUBMITTED_UNCONFIRMED"
  | .placed => "PLACED"
  | .confirmed => "CONFIRMED"
  | .failed => "FAILED"
  | .cancelled => "CANCELLED"

/-- The statuses whose outcome the database does not know yet. -/
def IntentStatus.isInDoubt : IntentStatus → Bool
  | .pending | .submittedUnconfirmed | .placed => true
  | .confirmed | .failed | .cancelled => false

inductive StateTransitionActor
  | strategy | riskManager | killSwitch | recovery | manual
  deriving DecidableEq, Repr

inductive ReconciliationBreakType
  | orphanFill | brokerFlatDbOpen | ambiguousAck | partialEntry
  | quantityMismatch | other
  deriving DecidableEq, Repr

inductive ReconciliationResolution
  | pending | autoRepaired | manual
  deriving DecidableEq, Repr

-- =============================================================== dates

/-- A calendar date in the range Python's `date` covers. -/
structure Date where
  year : Nat
  month : Nat
  day : Nat
  valid : (1 ≤ year ∧ year ≤ 9999) ∧ (1 ≤ month ∧ month ≤ 12)
    ∧ (1 ≤ day ∧ day ≤ 31) := by decide
  deriving DecidableEq, Repr

/-- A number below 100 in two digits. -/
def twoDigits (n : Nat) : String :=
  if n < 10 then "0" ++ toString n else toString n

/-- A year in four digits. -/
def fourDigits (n : Nat) : String :=
  twoDigits (n / 100) ++ twoDigits (n % 100)

/-- `date.isoformat()`. -/
def Date.isoformat (d : Date) : String :=
  fourDigits d.year ++ "-" ++ twoDigits d.month ++ "-" ++ twoDigits d.day

/-- `format(date, "%y%m%d")`. -/
def Date.yymmdd (d : Date) : String :=
  twoDigits (d.year % 100) ++ twoDigits d.month ++ twoDigits d.day

-- ========================================================== exceptions

/-- The classes of `brokers/exceptions.py`. -/
inductive BrokerErrorKind
  | brokerError | retryable | nonRetryable
  | connection | timeout | rateLimitExceeded
  | authentication | orderRejected | orderNotFound | orderNotModifiable
  | orderNotCancellable | instrumentNotFound | invalidOrderRequest
  deriving DecidableEq, Repr

/-- A broker exception: its class and `str(exc)`. -/
structure BrokerError where
  kind : BrokerErrorKind
  message : String
  deriving DecidableEq, Repr

/-- The exceptions the modelled code raises, catches or lets through. -/
inductive Exc
  | broker (e : BrokerError)
  | missingFillPrice (message : String)
  | illegalStateTransition (fromState toState : PositionState)
      (actor : StateTransitionActor)
  | concurrentModification
  | notFound (id : Nat)
  | integrity
  | multipleResults
  | database
  | value (message : String)
  | runtime (message : String)
  | assertion
  deriving DecidableEq, Repr

end AlgoPlatform
