/-
The rate limiter's promise: no stretch of `per_seconds` holds more than
`max_calls` granted calls, wherever it begins, and a call is refused only
when it could not have been granted in time.

`Windowed` is what any interleaving keeps of a bucket. The grants are
spaced (`Basis.Spaced`) because each is added only where the pruned list
is short, and the pruned list is what a window ending now holds of all
grants (`recent`). A call turned away by a full window has seen it full
for good: later grants come later, and one at the very same instant would
be one too many.
-/
import Mathlib.Tactic.Linarith
import AlgoPlatform.Basis.Window
import AlgoPlatform.Model.RateLimiter

open Basis

namespace AlgoPlatform

-- =============================================== statement vocabulary

/-- The window that a look at `now` counts in. -/
def RateLimitRule.window (rule : RateLimitRule) (now t : ℚ) : Bool :=
  decide (now - rule.perSeconds < t ∧ t ≤ now)

namespace TokenBucket

variable {rule : RateLimitRule} {b : TokenBucket}

/-- The timestamps of the grants, in the order they were made. -/
def times (b : TokenBucket) : List ℚ := b.granted.map Grant.time

/-- The window of a look at `looked` is full of grants, and its oldest
leaves it at `waitUntil`. -/
structure Full (rule : RateLimitRule) (b : TokenBucket)
    (looked waitUntil : ℚ) : Prop where
  past : looked ≤ b.clock
  count : (b.times.filter (rule.window looked)).length = rule.maxCalls
  oldest : ∃ t ∈ b.times.filter (rule.window looked),
    waitUntil = t + rule.perSeconds
      ∧ ∀ t' ∈ b.times.filter (rule.window looked), t ≤ t'

/-- What every interleaving keeps of a bucket. -/
structure Windowed (rule : RateLimitRule) (b : TokenBucket) : Prop where
  ordered : b.times.Pairwise (· ≤ ·)
  past : ∀ t ∈ b.times, t ≤ b.clock
  /-- What was pruned no window from now on would count. -/
  recent : ∀ now, b.clock ≤ now →
    b.times.filter (fun t => decide (now - rule.perSeconds < t))
      = b.calls.filter fun t => decide (now - rule.perSeconds < t)
  spaced : Spaced rule.maxCalls rule.perSeconds b.times
  turned : ∀ id deadline looked waitUntil,
    b.acquires id = .turnedAway deadline looked waitUntil →
      Full rule b looked waitUntil
  exceeded : ∀ e ∈ b.exceeded, ∃ waitUntil,
    Full rule b e.looked waitUntil ∧ e.deadline < waitUntil

/-- Each call of `acquire` comes to one end. -/
structure OneEnd (b : TokenBucket) : Prop where
  granted : ∀ g ∈ b.granted, b.acquires g.acquire = .returned
  exceeded : ∀ e ∈ b.exceeded, b.acquires e.acquire = .raised

theorem window_narrow (rule : RateLimitRule) (now : ℚ) :
    Narrow rule.perSeconds (rule.window now) := by
  have h := narrow_Ioc rule.perSeconds (now - rule.perSeconds)
  rw [sub_add_cancel] at h
  exact h

/-- No narrow stretch holds more grants than the rule allows. -/
theorem Windowed.grantsIn_le (h : Windowed rule b) {I : ℚ → Bool}
    (hI : Narrow rule.perSeconds I) :
    (b.grantsIn I).length ≤ rule.maxCalls := by
  have hcount := h.spaced.count_le rule.maxCalls_pos hI
  unfold times at hcount
  rw [List.filter_map, List.length_map] at hcount
  exact hcount

-- ============================================================ the look

/-- At a look all grants are past, so its window is open above. -/
theorem Windowed.filter_window (h : Windowed rule b) :
    b.times.filter (rule.window b.clock)
      = b.calls.filter
          fun t => decide (b.clock - rule.perSeconds < t) := by
  rw [← h.recent b.clock (le_refl _)]
  refine List.filter_congr fun t ht => ?_
  unfold RateLimitRule.window
  simp [h.past t ht]

/-- A full window is seen full for good. -/
theorem Full.push {looked waitUntil : ℚ} {b' : TokenBucket}
    (h : Full rule b looked waitUntil) (hclock : b'.clock = b.clock)
    (htimes : b'.times = b.times ++ [b.clock])
    (hspaced : Spaced rule.maxCalls rule.perSeconds b'.times) :
    Full rule b' looked waitUntil := by
  have hsame : b'.times.filter (rule.window looked)
      = b.times.filter (rule.window looked) := by
    have hle := hspaced.count_le rule.maxCalls_pos
      (window_narrow rule looked)
    rw [htimes, List.filter_append] at hle ⊢
    rw [List.length_append, h.count] at hle
    have hnone : ([b.clock].filter (rule.window looked)).length = 0 := by
      omega
    rw [List.length_eq_zero_iff.mp hnone, List.append_nil]
  exact ⟨by rw [hclock]; exact h.past, by rw [hsame]; exact h.count,
    by rw [hsame]; exact h.oldest⟩

/-- A full window depends on the grants and on no earlier clock. -/
theorem Full.of_times {looked waitUntil : ℚ} {b' : TokenBucket}
    (h : Full rule b looked waitUntil) (hclock : b.clock ≤ b'.clock)
    (htimes : b'.times = b.times) : Full rule b' looked waitUntil :=
  ⟨h.past.trans hclock, by rw [htimes]; exact h.count,
    by rw [htimes]; exact h.oldest⟩

/-- What changes no grant, prunes nothing a window would count, and
records only looks and raises that saw a full window. -/
theorem Windowed.of_times {b' : TokenBucket} (h : Windowed rule b)
    (hclock : b.clock ≤ b'.clock) (hgranted : b'.granted = b.granted)
    (hrecent : ∀ now, b'.clock ≤ now →
      b'.calls.filter (fun t => decide (now - rule.perSeconds < t))
        = b.calls.filter fun t => decide (now - rule.perSeconds < t))
    (hturned : ∀ id deadline looked waitUntil,
      b'.acquires id = .turnedAway deadline looked waitUntil →
        Full rule b looked waitUntil
          ∨ Full rule b' looked waitUntil)
    (hexceeded : ∀ e ∈ b'.exceeded, ∃ waitUntil,
      Full rule b e.looked waitUntil ∧ e.deadline < waitUntil) :
    Windowed rule b' := by
  have htimes : b'.times = b.times := by
    unfold times
    rw [hgranted]
  refine ⟨?_, ?_, ?_, ?_, ?_, ?_⟩
  · rw [htimes]
    exact h.ordered
  · intro t ht
    exact (h.past t (htimes ▸ ht)).trans hclock
  · intro now hnow
    rw [htimes, hrecent now hnow]
    exact h.recent now (hclock.trans hnow)
  · rw [htimes]
    exact h.spaced
  · intro id deadline looked waitUntil hid
    rcases hturned id deadline looked waitUntil hid with hfull | hfull
    · exact hfull.of_times hclock htimes
    · exact hfull
  · intro e he
    obtain ⟨waitUntil, hfull, hlt⟩ := hexceeded e he
    exact ⟨waitUntil, hfull.of_times hclock htimes, hlt⟩

/-- The record of who is where changes no grant. -/
theorem setAcquire_acquires (id id' : Nat) (a : Acquire) :
    (b.setAcquire id a).acquires id'
      = if id' = id then a else b.acquires id' := by
  unfold setAcquire
  exact Function.update_apply ..

/-- Pruning at `now` takes nothing from a later window. -/
theorem prune_later (calls : List ℚ) {now later : ℚ} (h : now ≤ later) :
    (calls.filter fun t => decide (now - rule.perSeconds < t)).filter
        (fun t => decide (later - rule.perSeconds < t))
      = calls.filter fun t => decide (later - rule.perSeconds < t) := by
  rw [List.filter_filter]
  refine List.filter_congr fun t _ => ?_
  by_cases ht : later - rule.perSeconds < t
  · have : now - rule.perSeconds < t := by linarith
    simp [ht, this]
  · simp [ht]

theorem grant_times (id : Nat) (calls : List ℚ) :
    (b.grant id calls).times = b.times ++ [b.clock] := by
  unfold times grant
  rw [List.map_append]
  rfl

/-- A look that finds a slot: the grant keeps the list spaced. -/
theorem Windowed.grant (h : Windowed rule b) (id : Nat)
    (hroom : (b.calls.filter
      fun t => decide (b.clock - rule.perSeconds < t)).length
        < rule.maxCalls) :
    Windowed rule (b.grant id (b.calls.filter
      (fun t => decide (b.clock - rule.perSeconds < t)) ++ [b.clock])) := by
  have hspaced : Spaced rule.maxCalls rule.perSeconds
      (b.times ++ [b.clock]) := by
    refine h.spaced.push h.ordered ?_
    rw [h.recent b.clock (le_refl _)]
    exact hroom
  have htimes := grant_times (b := b) id (b.calls.filter
    (fun t => decide (b.clock - rule.perSeconds < t)) ++ [b.clock])
  have hfull : ∀ looked waitUntil, Full rule b looked waitUntil →
      Full rule (b.grant id (b.calls.filter
        (fun t => decide (b.clock - rule.perSeconds < t)) ++ [b.clock]))
          looked waitUntil := fun looked waitUntil hf =>
    hf.push rfl htimes (by rw [htimes]; exact hspaced)
  refine ⟨?_, ?_, ?_, ?_, ?_, ?_⟩
  · rw [htimes, List.pairwise_append]
    refine ⟨h.ordered, List.pairwise_singleton .., fun t ht now hnow => ?_⟩
    rw [List.mem_singleton.mp hnow]
    exact h.past t ht
  · intro t ht
    rw [htimes] at ht
    rcases List.mem_append.mp ht with ht | ht
    · exact h.past t ht
    · exact (List.mem_singleton.mp ht).le
  · intro now (hnow : b.clock ≤ now)
    rw [htimes]
    show _ = (b.calls.filter _ ++ [b.clock]).filter _
    rw [List.filter_append, List.filter_append, prune_later b.calls hnow,
      h.recent now hnow]
  · rw [htimes]
    exact hspaced
  · intro id' deadline looked waitUntil hid
    change (b.setAcquire id .returned).acquires id' = _ at hid
    rw [setAcquire_acquires] at hid
    split at hid
    · cases hid
    · exact hfull _ _ (h.turned _ _ _ _ hid)
  · intro e he
    obtain ⟨waitUntil, hf, hlt⟩ := h.exceeded e he
    exact ⟨waitUntil, hfull _ _ hf, hlt⟩

/-- A look that finds the window full has its oldest grant first. -/
theorem Windowed.full (h : Windowed rule b)
    (hfull : ¬ (b.calls.filter
      fun t => decide (b.clock - rule.perSeconds < t)).length
        < rule.maxCalls) :
    Full rule b b.clock
      ((b.calls.filter fun t => decide (b.clock - rule.perSeconds < t)).headD
        b.clock + rule.perSeconds) := by
  have hcount := h.spaced.count_le rule.maxCalls_pos
    (window_narrow rule b.clock)
  have hsorted : (b.times.filter (rule.window b.clock)).Pairwise (· ≤ ·) :=
    h.ordered.sublist List.filter_sublist
  rw [h.filter_window] at hcount hsorted
  refine ⟨le_refl _, ?_, ?_⟩
  · rw [h.filter_window]
    omega
  · rw [h.filter_window]
    have hpos := rule.maxCalls_pos
    generalize b.calls.filter _ = recent at *
    cases recent with
    | nil =>
        rw [List.length_nil] at hfull
        exact absurd hpos hfull
    | cons oldest rest =>
        refine ⟨oldest, List.mem_cons_self, rfl, fun t ht => ?_⟩
        rcases List.mem_cons.mp ht with rfl | ht
        · exact le_refl _
        · exact List.rel_of_pairwise_cons hsorted ht

/-- The critical section keeps the bucket. -/
theorem Windowed.enter (h : Windowed rule b) (id : Nat)
    (deadline : Option ℚ) : Windowed rule (b.enter rule id deadline) := by
  unfold TokenBucket.enter RateLimitRule.look
  dsimp only
  by_cases hroom : (b.calls.filter
      fun t => decide (b.clock - rule.perSeconds < t)).length
        < rule.maxCalls
  · rw [if_pos hroom]
    exact h.grant id hroom
  · rw [if_neg hroom]
    refine h.of_times (le_refl _) rfl
      (fun now hnow => prune_later b.calls hnow) ?_ h.exceeded
    intro id' deadline' looked waitUntil hid
    change (b.setAcquire id _).acquires id' = _ at hid
    rw [setAcquire_acquires] at hid
    split at hid
    · cases hid
      exact Or.inl (h.full hroom)
    · exact Or.inl (h.turned _ _ _ _ hid)

/-- Moving one call on, to nowhere that claims to have seen a full
window. -/
theorem Windowed.setAcquire (h : Windowed rule b) (id : Nat) (a : Acquire)
    (ha : ∀ deadline looked waitUntil,
      a ≠ .turnedAway deadline looked waitUntil) :
    Windowed rule (b.setAcquire id a) := by
  refine h.of_times (le_refl _) rfl (fun _ _ => rfl) ?_ h.exceeded
  intro id' deadline looked waitUntil hid
  rw [setAcquire_acquires] at hid
  split at hid
  · exact absurd hid (ha _ _ _)
  · exact Or.inl (h.turned _ _ _ _ hid)

/-- The deadline check keeps the bucket. -/
theorem Windowed.check (h : Windowed rule b) (id : Nat) :
    Windowed rule (b.check id) := by
  unfold TokenBucket.check
  split
  · rename_i deadline looked waitUntil hid
    split
    · rename_i hlate
      have hset := h.setAcquire id .raised (by simp)
      refine hset.of_times (le_refl _) rfl (fun _ _ => rfl)
        (fun _ _ _ _ hid => Or.inl (hset.turned _ _ _ _ hid)) fun e he => ?_
      rcases List.mem_append.mp he with he | he
      · exact hset.exceeded e he
      · rw [List.mem_singleton.mp he]
        have hfull := h.turned _ _ _ _ hid
        exact ⟨waitUntil, hfull.of_times (le_refl _) rfl, hlate⟩
    · exact h.setAcquire id _ (by simp)
  · exact h.setAcquire id _ (by simp)
  · exact h

/-- One event, whichever it is. -/
theorem Windowed.step (h : Windowed rule b) (event : BucketEvent) :
    Windowed rule (b.step rule event) := by
  unfold TokenBucket.step
  cases event with
  | elapse seconds =>
      dsimp only
      split
      · rename_i hseconds
        exact h.of_times (le_add_of_nonneg_right hseconds) rfl
          (fun _ _ => rfl) (fun _ _ _ _ hid => Or.inl (h.turned _ _ _ _ hid))
          h.exceeded
      · exact h
  | acquire id deadline =>
      dsimp only
      split
      · exact h.setAcquire id _ (by simp)
      · exact h
  | look id =>
      dsimp only
      split
      · exact h.enter id _
      · split
        · exact h.enter id _
        · exact h
      · exact h
  | check id => exact h.check id

theorem windowed_start (rule : RateLimitRule) : Windowed rule {} :=
  ⟨List.Pairwise.nil, fun _ ht => absurd ht List.not_mem_nil,
    fun _ _ => rfl, Spaced.nil, fun _ _ _ _ hid => Acquire.noConfusion hid,
    fun _ he => absurd he List.not_mem_nil⟩

/-- Any interleaving. -/
theorem Windowed.run (h : Windowed rule b) (events : List BucketEvent) :
    Windowed rule (b.run rule events) := by
  induction events generalizing b with
  | nil => exact h
  | cons event events ih => exact ih (h.step event)

-- ========================================================== one end each

/-- Whether a call of `acquire` has come to its end. -/
def Ended (a : Acquire) : Prop := a = .returned ∨ a = .raised

/-- A call that has not ended may move anywhere. -/
theorem OneEnd.setAcquire (h : OneEnd b) {id : Nat}
    (hid : ¬ Ended (b.acquires id)) (a : Acquire) :
    OneEnd (b.setAcquire id a) := by
  refine ⟨fun g hg => ?_, fun e he => ?_⟩
  · rw [setAcquire_acquires, if_neg]
    · exact h.granted g hg
    · intro heq
      exact hid (Or.inl (heq ▸ h.granted g hg))
  · rw [setAcquire_acquires, if_neg]
    · exact h.exceeded e he
    · intro heq
      exact hid (Or.inr (heq ▸ h.exceeded e he))

theorem OneEnd.enter (h : OneEnd b) {id : Nat}
    (hid : ¬ Ended (b.acquires id)) (deadline : Option ℚ) :
    OneEnd (b.enter rule id deadline) := by
  unfold TokenBucket.enter
  split
  · have hset := h.setAcquire hid .returned
    refine ⟨fun g hg => ?_, hset.exceeded⟩
    rcases List.mem_append.mp hg with hg | hg
    · exact hset.granted g hg
    · rw [List.mem_singleton.mp hg]
      exact (setAcquire_acquires ..).trans (if_pos rfl)
  · rename_i waitUntil calls _
    have hset := h.setAcquire hid (.turnedAway deadline b.clock waitUntil)
    exact ⟨hset.granted, hset.exceeded⟩

theorem OneEnd.check (h : OneEnd b) (id : Nat) : OneEnd (b.check id) := by
  unfold TokenBucket.check
  split
  · rename_i hid
    have hid : ¬ Ended (b.acquires id) := by
      rw [hid]
      simp [Ended]
    split
    · have hset := h.setAcquire hid .raised
      refine ⟨hset.granted, fun e he => ?_⟩
      rcases List.mem_append.mp he with he | he
      · exact hset.exceeded e he
      · rw [List.mem_singleton.mp he]
        exact (setAcquire_acquires ..).trans (if_pos rfl)
    · exact h.setAcquire hid _
  · rename_i hid
    exact h.setAcquire (by rw [hid]; simp [Ended]) _
  · exact h

theorem OneEnd.step (h : OneEnd b) (event : BucketEvent) :
    OneEnd (b.step rule event) := by
  unfold TokenBucket.step
  cases event with
  | elapse seconds =>
      dsimp only
      split
      · exact ⟨h.granted, h.exceeded⟩
      · exact h
  | acquire id deadline =>
      dsimp only
      split
      · rename_i hid
        exact h.setAcquire (by rw [hid]; simp [Ended]) _
      · exact h
  | look id =>
      dsimp only
      split
      · rename_i hid
        exact h.enter (by rw [hid]; simp [Ended]) _
      · rename_i hid
        split
        · exact h.enter (by rw [hid]; simp [Ended]) _
        · exact h
      · exact h
  | check id => exact h.check id

theorem OneEnd.run (h : OneEnd b) (events : List BucketEvent) :
    OneEnd (b.run rule events) := by
  induction events generalizing b with
  | nil => exact h
  | cons event events ih => exact ih (h.step event)

theorem oneEnd_start : OneEnd {} :=
  ⟨fun _ hg => absurd hg List.not_mem_nil,
    fun _ he => absurd he List.not_mem_nil⟩

-- ============================================================= any calls

/-- The grants counted by a look, as timestamps. -/
theorem Full.grants {looked waitUntil : ℚ}
    (h : Full rule b looked waitUntil) :
    (b.grantsIn (rule.window looked)).length = rule.maxCalls
      ∧ ∃ oldest ∈ b.grantsIn (rule.window looked),
        waitUntil = oldest.time + rule.perSeconds
          ∧ ∀ g ∈ b.grantsIn (rule.window looked),
            oldest.time ≤ g.time := by
  have hfilter : b.times.filter (rule.window looked)
      = (b.grantsIn (rule.window looked)).map Grant.time :=
    List.filter_map ..
  obtain ⟨-, hcount, t, ht, hwait, hleast⟩ := h
  rw [hfilter] at hcount ht hleast
  rw [List.length_map] at hcount
  obtain ⟨oldest, hmem, rfl⟩ := List.mem_map.mp ht
  exact ⟨hcount, oldest, hmem, hwait,
    fun g hg => hleast g.time (List.mem_map_of_mem hg)⟩

/-- In every interleaving: no half-open interval of the rule's length,
open on either side, holds more grants than the rule allows; a raise
rests on a look whose window held exactly as many, the oldest leaving it
after the deadline; and a call that raised was granted nothing. -/
theorem window_bound (rule : RateLimitRule) (events : List BucketEvent) :
    (∀ s : ℚ,
      (((run rule {} events).grantsIn
          fun t => decide (s ≤ t ∧ t < s + rule.perSeconds)).length
            ≤ rule.maxCalls)
      ∧ (((run rule {} events).grantsIn
          fun t => decide (s < t ∧ t ≤ s + rule.perSeconds)).length
            ≤ rule.maxCalls))
    ∧ ∀ e ∈ (run rule {} events).exceeded,
      ((run rule {} events).grantsIn (rule.window e.looked)).length
          = rule.maxCalls
        ∧ (∃ oldest ∈ (run rule {} events).grantsIn (rule.window e.looked),
            (∀ g ∈ (run rule {} events).grantsIn (rule.window e.looked),
              oldest.time ≤ g.time)
            ∧ e.deadline < oldest.time + rule.perSeconds)
        ∧ ∀ g ∈ (run rule {} events).granted, g.acquire ≠ e.acquire := by
  have h := (windowed_start rule).run events
  have hend : OneEnd (run rule {} events) := oneEnd_start.run events
  refine ⟨fun s => ⟨?_, ?_⟩, fun e he => ?_⟩
  · exact h.grantsIn_le (narrow_Ico rule.perSeconds s)
  · exact h.grantsIn_le (narrow_Ioc rule.perSeconds s)
  · obtain ⟨waitUntil, hfull, hlate⟩ := h.exceeded e he
    obtain ⟨hcount, oldest, hmem, hwait, hleast⟩ := hfull.grants
    refine ⟨hcount, ⟨oldest, hmem, hleast, hwait ▸ hlate⟩, fun g hg heq => ?_⟩
    have hreturned := hend.granted g hg
    rw [heq, hend.exceeded e he] at hreturned
    cases hreturned

/-- At the edge of the window: a slot taken at 0 is free again at 1, for
the one call that waited for it and for no second. -/
example :
    let events : List BucketEvent := [.acquire 0 none, .look 0,
      .acquire 1 (some 1), .look 1, .check 1,
      .acquire 2 (some (1 / 2)), .look 2, .check 2,
      .elapse 1, .look 1, .acquire 3 (some 1), .look 3, .check 3]
    (run ⟨1, 1, by decide, by decide⟩ {} events).granted = [⟨0, 0⟩, ⟨1, 1⟩]
      ∧ (run ⟨1, 1, by decide, by decide⟩ {} events).exceeded
        = [⟨2, 1 / 2, 0⟩, ⟨3, 1, 1⟩] := by
  decide +kernel

end TokenBucket

-- ================================================== rate limited broker

namespace RateLimitedBroker

/-- An event moves a bucket by an event of its own, or not at all. -/
def MovesBucket (b b' : RateLimitedBroker) (category : RateLimitCategory)
    (rule : RateLimitRule) : Prop :=
  b'.rules = b.rules
    ∧ (b'.buckets category = b.buckets category
      ∨ ∃ own, b'.buckets category = (b.buckets category).step rule own)

theorem stepBucket_moves (b : RateLimitedBroker)
    {category : RateLimitCategory} {rule : RateLimitRule}
    (hrule : b.rules category = some rule) (target : RateLimitCategory)
    (event : BucketEvent) :
    b.MovesBucket (b.stepBucket target event) category rule := by
  unfold stepBucket
  split
  · exact ⟨rfl, Or.inl rfl⟩
  · rename_i rule' hrule'
    refine ⟨rfl, ?_⟩
    by_cases htarget : category = target
    · subst htarget
      rw [hrule] at hrule'
      cases hrule'
      exact Or.inr ⟨event, Function.update_self ..⟩
    · exact Or.inl (Function.update_of_ne htarget ..)

theorem step_moves (b : RateLimitedBroker) {category : RateLimitCategory}
    {rule : RateLimitRule} (hrule : b.rules category = some rule)
    (event : LimiterEvent) :
    b.MovesBucket (b.step event) category rule := by
  cases event with
  | elapse seconds =>
      refine ⟨rfl, Or.inr ⟨.elapse seconds, ?_⟩⟩
      unfold RateLimitedBroker.step
      dsimp only
      rw [hrule]
  | throttle id method timeout => exact b.stepBucket_moves hrule _ _
  | look category id => exact b.stepBucket_moves hrule _ _
  | check category id => exact b.stepBucket_moves hrule _ _

/-- A category with a rule has a bucket that only its own events move. -/
theorem bucket_run (b : RateLimitedBroker) {category : RateLimitCategory}
    {rule : RateLimitRule} (hrule : b.rules category = some rule)
    (events : List LimiterEvent) :
    ∃ own : List BucketEvent,
      (b.run events).buckets category
        = (b.buckets category).run rule own := by
  induction events generalizing b with
  | nil => exact ⟨[], rfl⟩
  | cons event events ih =>
      obtain ⟨hrules, hbucket⟩ := b.step_moves hrule event
      obtain ⟨own, hrun⟩ := ih (b.step event) (hrules ▸ hrule)
      rcases hbucket with hsame | ⟨first, hfirst⟩
      · exact ⟨own, hrun.trans (by rw [hsame])⟩
      · exact ⟨first :: own, hrun.trans (by rw [hfirst]; rfl)⟩

/-- However the methods of a category are called, the calls let through
within any half-open interval of its length are within its limit. -/
theorem category_bound
    (rules : RateLimitCategory → Option RateLimitRule)
    {category : RateLimitCategory} {rule : RateLimitRule}
    (hrule : rules category = some rule) (events : List LimiterEvent)
    (s : ℚ) :
    ((((RateLimitedBroker.mk rules fun _ => {}).run events).buckets
        category).grantsIn
          fun t => decide (s ≤ t ∧ t < s + rule.perSeconds)).length
      ≤ rule.maxCalls := by
  obtain ⟨own, hrun⟩ := bucket_run (.mk rules fun _ => {}) hrule events
  rw [hrun]
  exact ((TokenBucket.windowed_start rule).run own).grantsIn_le
    (narrow_Ico rule.perSeconds s)

end RateLimitedBroker

end AlgoPlatform
