/-
The rate limiter in front of every broker (`brokers/rate_limiter.py`):
`_TokenBucket`, the sliding window of one category, and the part of
`RateLimitedBroker` that picks the bucket and sets the deadline.

# Interleaving

`acquire` is a loop: one critical section that reads the clock, prunes,
and takes a slot or finds the window full; then, outside the lock, the
deadline check; then a sleep. The critical section (`look`) and the check
(`check`) are separate steps, so other threads' calls come in between
and around the sleep in any order. Each call of `acquire` has an id of its
own. Time passes only by `elapse`; it is `time.monotonic()` over exact
rationals.
-/
import Mathlib.Algebra.Order.Field.Rat
import Mathlib.Logic.Function.Basic
import AlgoPlatform.Model.Enums

namespace AlgoPlatform

-- ============================================================== config

/-- Broker methods that share one throttling budget. -/
inductive RateLimitCategory
  | orderMutation | orderRead | portfolioRead | marketData
  | instrumentLookup | general
  deriving DecidableEq, Repr

/-- At most `maxCalls` calls per rolling `perSeconds` window. -/
structure RateLimitRule where
  maxCalls : Nat
  perSeconds : ℚ
  maxCalls_pos : 0 < maxCalls
  perSeconds_pos : 0 < perSeconds

/-- The throttled methods of `BrokerBase`. -/
inductive ThrottledMethod
  | authenticate | healthCheck | placeOrder | modifyOrder | cancelOrder
  | getOrder | getOrders | findOrderByTag | getPositions | getHoldings
  | getMargins | getQuote | getLtp | getInstrument | findOptionContract
  | listOptionExpiries
  deriving DecidableEq, Repr

/-- `_METHOD_CATEGORIES`. -/
def ThrottledMethod.category : ThrottledMethod → RateLimitCategory
  | .authenticate | .healthCheck => .general
  | .placeOrder | .modifyOrder | .cancelOrder => .orderMutation
  | .getOrder | .getOrders | .findOrderByTag => .orderRead
  | .getPositions | .getHoldings | .getMargins => .portfolioRead
  | .getQuote | .getLtp => .marketData
  | .getInstrument | .findOptionContract | .listOptionExpiries =>
      .instrumentLookup

-- ======================================================== token bucket

/-- What one pass through the critical section of `acquire` finds. -/
inductive Look
  | slot
  | full (waitUntil : ℚ)
  deriving DecidableEq, Repr

/-- The critical section of `acquire`, with what it leaves of `_calls`. -/
def RateLimitRule.look (rule : RateLimitRule) (calls : List ℚ) (now : ℚ) :
    Look × List ℚ :=
  let windowStart := now - rule.perSeconds
  let calls := calls.filter fun t => decide (windowStart < t)
  if calls.length < rule.maxCalls then (.slot, calls ++ [now])
  -- `_calls[0]`: `max_calls > 0`, so a full list is not empty
  else (.full (calls.headD now + rule.perSeconds), calls)

/-- Where one call of `acquire` is. -/
inductive Acquire
  | unused
  /-- Before its next critical section. -/
  | calling (deadline : Option ℚ)
  /-- Past one at `looked` that found no slot, before the deadline check. -/
  | turnedAway (deadline : Option ℚ) (looked waitUntil : ℚ)
  | asleep (deadline : Option ℚ) (waitUntil : ℚ)
  | returned
  | raised
  deriving DecidableEq, Repr

/-- A granted acquire and its timestamp. -/
structure Grant where
  acquire : Nat
  time : ℚ
  deriving DecidableEq, Repr

/-- A raise: the deadline, and the clock reading the decision rests on. -/
structure LimitExceeded where
  acquire : Nat
  deadline : ℚ
  looked : ℚ
  deriving DecidableEq, Repr

/-- One bucket with the calls around it. `granted` and `exceeded` record
what happened and are read by no step. -/
structure TokenBucket where
  calls : List ℚ := []
  clock : ℚ := 0
  acquires : Nat → Acquire := fun _ => .unused
  granted : List Grant := []
  exceeded : List LimitExceeded := []

/-- What happens at a bucket. -/
inductive BucketEvent
  | elapse (seconds : ℚ)
  | acquire (id : Nat) (deadline : Option ℚ)
  | look (id : Nat)
  | check (id : Nat)
  deriving DecidableEq, Repr

namespace TokenBucket

variable (rule : RateLimitRule)

def setAcquire (b : TokenBucket) (id : Nat) (a : Acquire) : TokenBucket :=
  { b with acquires := Function.update b.acquires id a }

/-- A slot is taken: `_calls.append(now)`. -/
def grant (b : TokenBucket) (id : Nat) (calls : List ℚ) : TokenBucket :=
  { b.setAcquire id .returned with
    calls := calls, granted := b.granted ++ [⟨id, b.clock⟩] }

/-- The critical section, entered by a call with this deadline. -/
def enter (b : TokenBucket) (id : Nat) (deadline : Option ℚ) : TokenBucket :=
  match rule.look b.calls b.clock with
  | (.slot, calls) => b.grant id calls
  | (.full waitUntil, calls) =>
      { b.setAcquire id (.turnedAway deadline b.clock waitUntil) with
        calls := calls }

/-- The deadline check: raise, or sleep until the slot should be free. -/
def check (b : TokenBucket) (id : Nat) : TokenBucket :=
  match b.acquires id with
  | .turnedAway (some deadline) looked waitUntil =>
      if deadline < waitUntil then
        { b.setAcquire id .raised with
          exceeded := b.exceeded ++ [⟨id, deadline, looked⟩] }
      else b.setAcquire id (.asleep (some deadline) waitUntil)
  | .turnedAway none _ waitUntil => b.setAcquire id (.asleep none waitUntil)
  | _ => b

/-- One event; one that cannot happen in this state changes nothing. A
sleeping call does not wake before its slot should be free. -/
def step (b : TokenBucket) : BucketEvent → TokenBucket
  | .elapse seconds =>
      if 0 ≤ seconds then { b with clock := b.clock + seconds } else b
  | .acquire id deadline =>
      match b.acquires id with
      | .unused => b.setAcquire id (.calling deadline)
      | _ => b
  | .look id =>
      match b.acquires id with
      | .calling deadline => b.enter rule id deadline
      | .asleep deadline waitUntil =>
          if waitUntil ≤ b.clock then b.enter rule id deadline else b
      | _ => b
  | .check id => b.check id

/-- A bucket after some events. -/
def run (b : TokenBucket) (events : List BucketEvent) : TokenBucket :=
  events.foldl (step rule) b

/-- The grants within a stretch of time. -/
def grantsIn (b : TokenBucket) (I : ℚ → Bool) : List Grant :=
  b.granted.filter fun g => I g.time

end TokenBucket

-- ================================================== rate limited broker

/-- What happens at a rate-limited broker: a call of a method with the
caller's timeout, and what goes on in the buckets. -/
inductive LimiterEvent
  | elapse (seconds : ℚ)
  | throttle (id : Nat) (method : ThrottledMethod) (timeout : Option ℚ)
  | look (category : RateLimitCategory) (id : Nat)
  | check (category : RateLimitCategory) (id : Nat)

/-- `RateLimitedBroker`: a category without a rule has no bucket. -/
structure RateLimitedBroker where
  rules : RateLimitCategory → Option RateLimitRule
  buckets : RateLimitCategory → TokenBucket := fun _ => {}

namespace RateLimitedBroker

/-- One event at the bucket of a category. -/
def stepBucket (b : RateLimitedBroker) (category : RateLimitCategory)
    (event : BucketEvent) : RateLimitedBroker :=
  match b.rules category with
  | none => b
  | some rule =>
      { b with
        buckets := Function.update b.buckets category
          ((b.buckets category).step rule event) }

/-- `_throttle`, up to the first critical section. -/
def throttle (b : RateLimitedBroker) (id : Nat) (method : ThrottledMethod)
    (timeout : Option ℚ) : RateLimitedBroker :=
  let clock := (b.buckets method.category).clock
  b.stepBucket method.category
    (.acquire id (timeout.map fun seconds => clock + seconds))

/-- One event; time passes for every bucket. -/
def step (b : RateLimitedBroker) : LimiterEvent → RateLimitedBroker
  | .elapse seconds =>
      { b with
        buckets := fun category =>
          match b.rules category with
          | none => b.buckets category
          | some rule => (b.buckets category).step rule (.elapse seconds) }
  | .throttle id method timeout => b.throttle id method timeout
  | .look category id => b.stepBucket category (.look id)
  | .check category id => b.stepBucket category (.check id)

/-- A broker after some events. -/
def run (b : RateLimitedBroker) (events : List LimiterEvent) :
    RateLimitedBroker :=
  events.foldl step b

end RateLimitedBroker

end AlgoPlatform
