/-
What one Strategy-1 instance runs with: its identity, its validated
config, the day, and the keys and tags it derives from them.

One session of the strategy (an entry, an exit, a recovery) runs within
one trading day, so the day is part of the context.
-/
import Mathlib.Algebra.Order.Ring.Rat
import Mathlib.Data.Rat.Defs
import AlgoPlatform.Model.Broker

namespace AlgoPlatform

/-- The config fields entry and exit read, with what its validators
check. -/
structure Strategy1Config where
  targetPct : ℚ
  slPct : ℚ
  lots : Nat
  productType : ProductType
  skipOnExpiryDay : Bool
  targetPct_range : 0 < targetPct ∧ targetPct < 1
  slPct_range : 0 < slPct ∧ slPct < 1
  lots_pos : 0 < lots

/-- The strategy's context and its constructor arguments. -/
structure StrategyContext where
  instanceId : Nat
  /-- `str(identity)`, as messages show it. -/
  identity : String
  config : Strategy1Config
  today : Date
  fillAttempts : Nat
  closeAttempts : Nat
  fillAttempts_pos : 0 < fillAttempts
  closeAttempts_pos : 0 < closeAttempts

/-- `":".join(parts)`. -/
def joinKey (parts : List String) : String := String.intercalate ":" parts

/-- The keys both entry and exit use: one per leg and purpose. -/
def idempotencyKey (ctx : StrategyContext) (optionType : OptionType)
    (purpose : OrderPurpose) (marker : List String) : String :=
  joinKey ([toString ctx.instanceId, ctx.today.isoformat, optionType.value,
    purpose.value] ++ marker)

/-- The readable tag: a letter for the phase, the instance, the day, the
leg. -/
def readableTag (phase : String) (ctx : StrategyContext)
    (optionType : OptionType) : String :=
  phase ++ toString ctx.instanceId ++ "-" ++ ctx.today.yymmdd ++ "-"
    ++ optionType.value

/-- `_validate_tag`. -/
@[irreducible] def validateTag (tag : String) : Except Exc String :=
  if 20 < tag.length then
    .error (.value ("broker tag " ++ tag ++ " exceeds 20 characters"))
  else .ok tag

/-- A valid tag is the tag that was validated. -/
theorem validateTag_ok {tag t : String} (h : validateTag tag = .ok t) :
    t = tag := by
  unfold validateTag at h
  split_ifs at h
  cases h
  rfl

/-- The tag an entry SELL is placed under. -/
def entryTag (ctx : StrategyContext) (optionType : OptionType) : String :=
  readableTag "E" ctx optionType

/-- The tag an exit BUY is placed under. -/
def exitTag (ctx : StrategyContext) (optionType : OptionType) : String :=
  readableTag "X" ctx optionType

/-- The tag an unwind BUY is placed under. -/
def unwindTag (ctx : StrategyContext) (optionType : OptionType) : String :=
  readableTag "U" ctx optionType

/-- An optional amount, as an f-string shows it. -/
def renderAmount : Option ℚ → String
  | some q => toString q
  | none => "None"

end AlgoPlatform
