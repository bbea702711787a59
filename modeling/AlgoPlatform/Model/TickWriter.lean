/-
The collector's persistence path (`market_data_collector/tick_writer.py`):
the bounded deque the socket thread appends to, and the one writer thread
that drains it in batches and retries what the database refuses.

# Interleaving

An `enqueue` is one step: all of it holds the lock. The writer thread
advances by one action at a time, the loop test of `_run`, a wake-up, a
`_take_batch` or one attempt to write, each with the counting that goes
with it; anything may come between two of them. `_flush` only decides how
long the writer sleeps, and so is left out: it may wake at any time.

`rows_written` and `dropped_ticks` are the code's counters; what was
enqueued and written, tick by tick, is recorded beside them and read by no
step. What a tick holds plays no part.
-/
import Mathlib.Tactic.Common

namespace AlgoPlatform

variable {τ : Type}

inductive OverflowPolicy
  | dropOldest | dropNewest
  deriving DecidableEq, Repr

/-- `WriterConfig`, as far as the queue reads it. -/
structure WriterConfig where
  batchSize : Nat := 5000
  queueMax : Nat := 200000
  overflowPolicy : OverflowPolicy := .dropOldest
  batchSize_pos : 0 < batchSize := by decide
  queueMax_pos : 0 < queueMax := by decide

/-- Where the writer thread is. `last` marks the final flush of `_run`. -/
inductive WriterThread (τ : Type)
  | notStarted
  | testing
  | waiting
  | taking (last : Bool)
  | writing (last : Bool) (batch : List τ) (attempt : Nat)
  | finished

/-- The batch that is out for writing. -/
def WriterThread.batch : WriterThread τ → List τ
  | .writing _ batch _ => batch
  | _ => []

/-- `TickWriter`. -/
structure TickWriter (τ : Type) where
  queue : List τ := []
  stop : Bool := false
  thread : WriterThread τ := .notStarted
  rowsWritten : Nat := 0
  droppedTicks : Nat := 0
  dbErrors : Nat := 0
  enqueued : List τ := []
  written : List τ := []

/-- What happens at a writer. An attempt that the event `advance` comes to
succeeds or fails as it says. -/
inductive WriterEvent (τ : Type)
  | start
  | stop
  | enqueue (tick : τ)
  | advance (succeeds : Bool)

namespace TickWriter

variable (cfg : WriterConfig) (w : TickWriter τ)

/-- `start`, of a writer without a thread. -/
def start : TickWriter τ :=
  match w.thread with
  | .notStarted | .finished => { w with stop := false, thread := .testing }
  | _ => w

/-- `enqueue`. -/
def enqueue (tick : τ) : TickWriter τ :=
  let w := { w with enqueued := w.enqueued ++ [tick] }
  if cfg.queueMax ≤ w.queue.length then
    match cfg.overflowPolicy with
    | .dropOldest =>
        { w with
          queue := w.queue.tail ++ [tick], droppedTicks := w.droppedTicks + 1 }
    | .dropNewest => { w with droppedTicks := w.droppedTicks + 1 }
  else { w with queue := w.queue ++ [tick] }

/-- `_take_batch`; without one, `_drain_and_write` returns. -/
def takeBatch (last : Bool) : TickWriter τ :=
  match w.queue.take cfg.batchSize with
  | [] => { w with thread := if last then .finished else .testing }
  | batch =>
      { w with
        queue := w.queue.drop cfg.batchSize
        thread := .writing last batch 0 }

/-- One attempt of `_write_with_retry`. -/
def attemptWrite (last : Bool) (batch : List τ) (attempt : Nat)
    (succeeds : Bool) : TickWriter τ :=
  if succeeds then
    { w with
      written := w.written ++ batch
      rowsWritten := w.rowsWritten + batch.length
      thread := .taking last }
  else
    let w := { w with dbErrors := w.dbErrors + 1 }
    let attempt := attempt + 1
    -- no retrying forever while shutting down
    if w.stop ∧ 3 ≤ attempt then
      { w with
        droppedTicks := w.droppedTicks + batch.length
        thread := .taking last }
    else { w with thread := .writing last batch attempt }

/-- The next action of the writer thread. -/
def advance (succeeds : Bool) : TickWriter τ :=
  match w.thread with
  | .testing =>
      { w with thread := if w.stop then .taking true else .waiting }
  | .waiting => { w with thread := .taking false }
  | .taking last => w.takeBatch cfg last
  | .writing last batch attempt => w.attemptWrite last batch attempt succeeds
  | .notStarted | .finished => w

/-- One event. -/
def step (w : TickWriter τ) : WriterEvent τ → TickWriter τ
  | .start => w.start
  | .stop => { w with stop := true }
  | .enqueue tick => w.enqueue cfg tick
  | .advance succeeds => w.advance cfg succeeds

/-- A writer after some events. -/
def run (events : List (WriterEvent τ)) : TickWriter τ :=
  events.foldl (step cfg) w

end TickWriter

end AlgoPlatform
