/-
The collector's strike windows (`market_data_collector/atm_window.py`):
around each underlying's spot, the option tokens of the strikes within
`strikes_each_side` of at the money, kept by diffs against the window
before. `compute_atm_strike` is the strategy's
(`strategies/strategy_1/strike_selector.py`).

What the injected sources answer, an exception included, is given with
each call. Prices are exact. A window is committed before its caller acts
on the diff.
-/
import Mathlib.Algebra.Order.Round
import Mathlib.Data.Rat.Floor
import AlgoPlatform.Basis.Dict
import AlgoPlatform.Model.InstrumentCaches

open Basis

namespace AlgoPlatform

-- ======================================================= the ATM strike

/-- The refusals of `compute_atm_strike`. -/
inductive StrikeSelectionError
  | spotNotPositive (spotLtp : ℚ)
  | intervalNotPositive (strikeInterval : ℚ)
  deriving DecidableEq, Repr

/-- `quantize(Decimal("1"), rounding=ROUND_HALF_UP)`: to the nearest
integer, a tie away from zero. -/
def quantizeHalfUp (x : ℚ) : ℤ :=
  if 0 ≤ x then ⌊x + 1 / 2⌋ else -⌊-x + 1 / 2⌋

/-- `compute_atm_strike`. -/
def computeAtmStrike (spotLtp strikeInterval : ℚ) :
    Except StrikeSelectionError ℚ :=
  if spotLtp ≤ 0 then .error (.spotNotPositive spotLtp)
  else if strikeInterval ≤ 0 then
    .error (.intervalNotPositive strikeInterval)
  else .ok (quantizeHalfUp (spotLtp / strikeInterval) * strikeInterval)

-- ============================================================== windows

/-- Identity of one subscribed option contract. -/
structure InstrumentRef where
  instrumentToken : Nat
  underlying : String
  exchange : Exchange
  expiry : Date
  strike : ℚ
  optionType : OptionType
  tradingsymbol : String
  deriving DecidableEq

/-- Symbol and token by strike and type, as far as they are listed. -/
abbrev OptionChain : Type := ℚ → OptionType → Option (String × Nat)

/-- `InstrumentSpec`, as far as a window reads it; its constructor refuses
an interval that is not positive. -/
structure InstrumentSpec where
  exchange : Exchange
  strikeInterval : ℚ
  interval_pos : 0 < strikeInterval

/-- What the sources answer to one `recompute`. -/
structure WindowAnswers where
  spec : Except Exc InstrumentSpec
  spot : Except Exc ℚ
  expiry : Except Exc Date
  chain : Except Exc OptionChain

/-- What `recompute` may raise. -/
inductive WindowError
  | source (e : Exc)
  | strikeSelection (e : StrikeSelectionError)
  deriving DecidableEq, Repr

structure WindowDiff where
  underlying : String
  atm : ℚ
  toSubscribe : List Nat
  toUnsubscribe : List Nat
  newInstruments : List InstrumentRef

/-- `range(-n, n + 1)`. -/
def strikeOffsets (n : Nat) : List Int :=
  (List.range (2 * n + 1)).map fun (i : Nat) => (i : Int) - n

/-- One leg of the inner loop: it enters the window if it is listed. -/
def addLeg (spec : InstrumentSpec) (underlying : String) (expiry : Date)
    (chain : OptionChain) (strike : ℚ) (target : Dict Nat InstrumentRef)
    (opt : OptionType) : Dict Nat InstrumentRef :=
  match chain strike opt with
  | none => target
  | some (symbol, token) =>
      target.put token
        { instrumentToken := token, underlying, exchange := spec.exchange
          expiry, strike, optionType := opt, tradingsymbol := symbol }

/-- The window `recompute` builds. -/
def targetWindow (n : Nat) (spec : InstrumentSpec) (underlying : String)
    (atm : ℚ) (expiry : Date) (chain : OptionChain) :
    Dict Nat InstrumentRef :=
  (strikeOffsets n).foldl (fun target (k : Int) =>
    [OptionType.ce, OptionType.pe].foldl
      (addLeg spec underlying expiry chain (atm + spec.strikeInterval * k))
      target) []

/-- `AtmWindowManager`: the windows by underlying. -/
structure AtmWindowManager where
  current : Dict String (Dict Nat InstrumentRef) := []
  atm : Dict String ℚ := []

namespace AtmWindowManager

/-- `reset`. -/
def reset (_ : AtmWindowManager) : AtmWindowManager := {}

/-- `self._current.get(underlying, {})`. -/
def window (m : AtmWindowManager) (underlying : String) :
    Dict Nat InstrumentRef :=
  (m.current.get underlying).getD []

/-- `subscribed_tokens`. -/
def subscribedTokens (m : AtmWindowManager) : List Nat :=
  m.current.flatMap fun entry => entry.2.keys

/-- `recompute`, with `n` strikes on each side; when it raises, the
windows stay. -/
def recompute (n : Nat) (m : AtmWindowManager) (underlying : String)
    (answers : WindowAnswers) :
    Except WindowError (WindowDiff × AtmWindowManager) := do
  let spec ← answers.spec.mapError .source
  let spot ← answers.spot.mapError .source
  let atm ← (computeAtmStrike spot spec.strikeInterval).mapError
    .strikeSelection
  let expiry ← answers.expiry.mapError .source
  let chain ← answers.chain.mapError .source
  let target := targetWindow n spec underlying atm expiry chain
  let current := m.window underlying
  let toSubscribe := target.keys.filter (· ∉ current.keys)
  let toUnsubscribe := current.keys.filter (· ∉ target.keys)
  let newInstruments := toSubscribe.filterMap target.get
  pure
    ({ underlying, atm, toSubscribe, toUnsubscribe, newInstruments },
      { current := m.current.put underlying target
        atm := m.atm.put underlying atm })

/-- What happens to the windows. -/
inductive Event
  | reset
  | recompute (underlying : String) (answers : WindowAnswers)

/-- One event. -/
def step (n : Nat) (m : AtmWindowManager) : Event → AtmWindowManager
  | .reset => m.reset
  | .recompute underlying answers =>
      match m.recompute n underlying answers with
      | .ok (_, m) => m
      | .error _ => m

/-- The windows after some events. -/
def run (n : Nat) (m : AtmWindowManager) (events : List Event) :
    AtmWindowManager :=
  events.foldl (step n) m

end AtmWindowManager

end AlgoPlatform
