/-
No tick is lost without being counted, and none is written twice or out
of turn.

`Accounted` follows each enqueued tick to where it is: written, out in the
batch, queued, or dropped. The first three, in this order, are a
subsequence of what was enqueued, so shedding at the head of the queue
while a batch is out for retry never lets a tick overtake another.
-/
import AlgoPlatform.Model.TickWriter

namespace AlgoPlatform

namespace TickWriter

variable {τ : Type} {cfg : WriterConfig} {w : TickWriter τ}

-- =============================================== statement vocabulary

/-- Where the enqueued ticks are, in every state. -/
structure Accounted (cfg : WriterConfig) (w : TickWriter τ) : Prop where
  rows : w.rowsWritten = w.written.length
  count : w.enqueued.length = w.written.length + w.droppedTicks
    + w.queue.length + w.thread.batch.length
  order : (w.written ++ (w.thread.batch ++ w.queue)).Sublist w.enqueued
  bounded : w.queue.length ≤ cfg.queueMax

/-- The tick an event enqueues. -/
def tickOf : WriterEvent τ → Option τ
  | .enqueue tick => some tick
  | _ => none

-- ============================================================ one step

/-- The thread moves and holds no batch before or after. -/
theorem Accounted.move (h : Accounted cfg w) {thread : WriterThread τ}
    {stop : Bool} (hthread : thread.batch = w.thread.batch) :
    Accounted cfg { w with stop := stop, thread := thread } :=
  ⟨h.rows, by rw [hthread]; exact h.count, by rw [hthread]; exact h.order,
    h.bounded⟩

theorem Accounted.start (h : Accounted cfg w) : Accounted cfg w.start := by
  unfold TickWriter.start
  split
  · rename_i hthread
    exact h.move (by rw [hthread]; rfl)
  · rename_i hthread
    exact h.move (by rw [hthread]; rfl)
  · exact h

/-- A tick comes in, and at a full queue one is shed, at the head or at
the tail. -/
theorem Accounted.enqueue (h : Accounted cfg w) (tick : τ) :
    Accounted cfg (w.enqueue cfg tick) := by
  obtain ⟨hrows, hcount, horder, hbounded⟩ := h
  have hpos := cfg.queueMax_pos
  unfold TickWriter.enqueue
  dsimp only
  split
  · rename_i hfull
    split
    · refine ⟨hrows, ?_, ?_, ?_⟩
      · simp only [List.length_append, List.length_singleton,
          List.length_tail]
        omega
      · -- the head goes, and the rest keeps its place
        have htail : (w.written ++ (w.thread.batch ++ w.queue.tail)).Sublist
            w.enqueued :=
          (((List.tail_sublist _).append_left _).append_left _).trans horder
        show (w.written ++ (w.thread.batch ++ (w.queue.tail ++ [tick]))).Sublist
          (w.enqueued ++ [tick])
        rw [← List.append_assoc w.thread.batch, ← List.append_assoc w.written]
        exact htail.append (List.Sublist.refl _)
      · simp only [List.length_append, List.length_singleton,
          List.length_tail]
        omega
    · refine ⟨hrows, ?_, ?_, hbounded⟩
      · simp only [List.length_append, List.length_singleton]
        omega
      · exact horder.trans (List.sublist_append_left _ _)
  · refine ⟨hrows, ?_, ?_, ?_⟩
    · simp only [List.length_append, List.length_singleton]
      omega
    · show (w.written ++ (w.thread.batch ++ (w.queue ++ [tick]))).Sublist
        (w.enqueued ++ [tick])
      rw [← List.append_assoc w.thread.batch, ← List.append_assoc w.written]
      exact horder.append (List.Sublist.refl _)
    · simp only [List.length_append, List.length_singleton]
      omega

/-- A batch leaves the head of the queue whole. -/
theorem Accounted.takeBatch (h : Accounted cfg w) (last : Bool)
    (hthread : w.thread.batch = []) :
    Accounted cfg (w.takeBatch cfg last) := by
  unfold TickWriter.takeBatch
  split
  · exact h.move (by rw [hthread]; split <;> rfl)
  · obtain ⟨hrows, hcount, horder, hbounded⟩ := h
    rw [hthread] at hcount horder
    refine ⟨hrows, ?_, ?_, ?_⟩
    · show w.enqueued.length = w.written.length + w.droppedTicks
        + (w.queue.drop cfg.batchSize).length
        + (w.queue.take cfg.batchSize).length
      rw [List.length_drop, List.length_take]
      simp only [List.length_nil] at hcount
      omega
    · show (w.written ++ (w.queue.take cfg.batchSize
        ++ w.queue.drop cfg.batchSize)).Sublist w.enqueued
      rw [List.take_append_drop]
      exact horder
    · show (w.queue.drop cfg.batchSize).length ≤ _
      rw [List.length_drop]
      omega

/-- An attempt writes the whole batch, keeps it, or drops it. -/
theorem Accounted.attemptWrite (h : Accounted cfg w) {last : Bool}
    {batch : List τ} {attempt : Nat} (succeeds : Bool)
    (hthread : w.thread.batch = batch) :
    Accounted cfg (w.attemptWrite last batch attempt succeeds) := by
  obtain ⟨hrows, hcount, horder, hbounded⟩ := h
  rw [hthread] at hcount horder
  unfold TickWriter.attemptWrite
  dsimp only
  split
  · refine ⟨?_, ?_, ?_, hbounded⟩
    · rw [List.length_append, hrows]
    · show w.enqueued.length = (w.written ++ batch).length + w.droppedTicks
        + w.queue.length + 0
      rw [List.length_append]
      omega
    · show (w.written ++ batch ++ ([] ++ w.queue)).Sublist w.enqueued
      rw [List.nil_append, List.append_assoc]
      exact horder
  · split
    · refine ⟨hrows, ?_, ?_, hbounded⟩
      · show w.enqueued.length = w.written.length
          + (w.droppedTicks + batch.length) + w.queue.length + 0
        omega
      · exact ((List.sublist_append_right _ _).append_left _).trans horder
    · exact ⟨hrows, hcount, horder, hbounded⟩

/-- One event, whichever it is. -/
theorem Accounted.step (h : Accounted cfg w) (event : WriterEvent τ) :
    Accounted cfg (w.step cfg event) := by
  cases event with
  | start => exact h.start
  | stop => exact h.move rfl
  | enqueue tick => exact h.enqueue tick
  | advance succeeds =>
      show Accounted cfg (w.advance cfg succeeds)
      unfold TickWriter.advance
      split
      · rename_i hthread
        exact h.move (by rw [hthread]; split <;> rfl)
      · rename_i hthread
        exact h.move (by rw [hthread]; rfl)
      · rename_i last hthread
        exact h.takeBatch last (by rw [hthread]; rfl)
      · rename_i hthread
        exact h.attemptWrite succeeds (by rw [hthread]; rfl)
      · exact h
      · exact h

/-- Only `enqueue` adds to what was enqueued. -/
theorem step_enqueued (event : WriterEvent τ) :
    (w.step cfg event).enqueued = w.enqueued ++ (tickOf event).toList := by
  cases event with
  | start =>
      show w.start.enqueued = w.enqueued ++ []
      unfold TickWriter.start
      split <;> exact (List.append_nil _).symm
  | stop => exact (List.append_nil _).symm
  | enqueue tick =>
      show (w.enqueue cfg tick).enqueued = w.enqueued ++ [tick]
      unfold TickWriter.enqueue
      dsimp only
      split
      · split <;> rfl
      · rfl
  | advance succeeds =>
      show (w.advance cfg succeeds).enqueued = w.enqueued ++ []
      rw [List.append_nil]
      unfold TickWriter.advance
      split
      · rfl
      · rfl
      · unfold TickWriter.takeBatch
        split <;> rfl
      · unfold TickWriter.attemptWrite
        dsimp only
        split
        · rfl
        · split <;> rfl
      · rfl
      · rfl

-- ============================================================= any run

theorem run_enqueued (events : List (WriterEvent τ)) :
    (w.run cfg events).enqueued = w.enqueued ++ events.filterMap tickOf := by
  induction events generalizing w with
  | nil => exact (List.append_nil _).symm
  | cons event events ih =>
      rw [show w.run cfg (event :: events)
        = (w.step cfg event).run cfg events from rfl, ih, step_enqueued,
        List.append_assoc]
      congr 1
      cases htick : tickOf event with
      | none => rw [List.filterMap_cons_none htick]; rfl
      | some tick => rw [List.filterMap_cons_some htick]; rfl

theorem Accounted.run (h : Accounted cfg w) (events : List (WriterEvent τ)) :
    Accounted cfg (w.run cfg events) := by
  induction events generalizing w with
  | nil => exact h
  | cons event events ih => exact ih (h.step event)

theorem accounted_start (cfg : WriterConfig) :
    Accounted cfg ({} : TickWriter τ) :=
  ⟨rfl, rfl, List.Sublist.refl _, Nat.zero_le _⟩

/-- In every interleaving and with every pattern of failures, the ticks
enqueued are those written, dropped, queued and in the batch; the written
ones come in the order they were enqueued, none twice; and the queue is
never larger than its bound. -/
theorem ticks_conserved (cfg : WriterConfig) (events : List (WriterEvent τ)) :
    (events.filterMap tickOf).length
        = (run cfg {} events).rowsWritten + (run cfg {} events).droppedTicks
          + (run cfg {} events).queue.length
          + (run cfg {} events).thread.batch.length
      ∧ (run cfg {} events).rowsWritten = (run cfg {} events).written.length
      ∧ (run cfg {} events).written.Sublist (events.filterMap tickOf)
      ∧ ((events.filterMap tickOf).Nodup →
          (run cfg {} events).written.Nodup)
      ∧ (run cfg {} events).queue.length ≤ cfg.queueMax := by
  obtain ⟨hrows, hcount, horder, hbounded⟩ :=
    Accounted.run (accounted_start cfg) events
  have henqueued : (run cfg {} events).enqueued = events.filterMap tickOf :=
    run_enqueued events
  rw [henqueued] at hcount horder
  have hwritten := (List.sublist_append_left _ _).trans horder
  refine ⟨?_, hrows, hwritten, fun hnodup => hnodup.sublist hwritten,
    hbounded⟩
  rw [hrows]
  exact hcount

/-- The queue overflows at its head while a batch is out for retry, and
shutdown drops that batch. -/
example :
    let events : List (WriterEvent Nat) := [.enqueue 1, .enqueue 2, .start,
      .advance true, .advance true, .advance true, .advance false,
      .enqueue 3, .enqueue 4, .enqueue 5, .stop, .advance false,
      .advance false, .advance true, .advance true]
    let w := run { batchSize := 2, queueMax := 2 } {} events
    (w.written, w.droppedTicks, w.queue, w.dbErrors) = ([4, 5], 3, [], 3) := by
  decide

end TickWriter

end AlgoPlatform
