/-
Each trigger once a day, and on its day at the first chance.

Per trigger name a schedule remembers two days, the last it fired and the
one it was skipped. `Kept` reads them off the history: the first is the
last entry of the journal of the trigger's dispatches, the second the day
of the registration, for a trigger that was past then and is to be
skipped. On a clock that does not run back the journal's last entry says
whether there is one of today (`Basis.Journal`), so what a pass finds due
can be told without the marks (`due_iff`), and no day is in a journal
twice.
-/
import Mathlib.Data.List.Induction
import Mathlib.Data.List.Perm.Subperm
import AlgoPlatform.Basis.Journal
import AlgoPlatform.Model.PlatformScheduler

open Basis

namespace AlgoPlatform

-- =============================================== statement vocabulary

/-- The days on which a trigger of a runner is in a log. -/
def daysOf (log : List Dispatch) (runner trigger : String) : List Date :=
  log.filterMap fun d =>
    if d.runner = runner ∧ d.trigger = trigger then some d.now.day else none

/-- The reading of the clock that an event makes. -/
def SchedulerEvent.instant : SchedulerEvent → Option Instant
  | .register _ _ now => some now
  | .tick now => some now
  | .setStatus .. | .deliver _ => none

/-- A trigger already past when its runner was registered, to be skipped
on that day. -/
def RunnerSchedule.Skips (s : RunnerSchedule) (t : TimeTrigger) (day : Date) :
    Prop :=
  t.catchUp = .skip ∧ s.registeredAt.day = day
    ∧ t.triggerTime ≤ s.registeredAt.time

namespace PlatformScheduler

variable {isTradingDay : Date → Bool} {s : PlatformScheduler}
  {runner trigger : String} {schedule : RunnerSchedule} {now : Instant}

/-- What the marks of every schedule say about what was dispatched. -/
structure Kept (isTradingDay : Date → Bool) (s : PlatformScheduler) :
    Prop where
  keys : s.schedules.keys.Nodup
  fired : ∀ runner schedule, (runner, schedule) ∈ s.schedules →
    ∀ trigger, schedule.firedOn.get trigger
      = (daysOf s.dispatched runner trigger).getLast?
  skipped : ∀ runner schedule, (runner, schedule) ∈ s.schedules →
    ∀ t ∈ schedule.runner.triggers, ∀ day,
      schedule.skippedOn.get t.name = some day
        ↔ isTradingDay day ∧ schedule.Skips t day
  unknown : ∀ runner, runner ∉ s.schedules.keys →
    ∀ trigger, daysOf s.dispatched runner trigger = []
  strict : ∀ runner trigger,
    (daysOf s.dispatched runner trigger).Pairwise (· < ·)

theorem daysOf_append (log more : List Dispatch) (runner trigger : String) :
    daysOf (log ++ more) runner trigger
      = daysOf log runner trigger ++ daysOf more runner trigger :=
  List.filterMap_append

theorem mem_daysOf {log : List Dispatch} {day : Date} :
    day ∈ daysOf log runner trigger
      ↔ ∃ d ∈ log, d.runner = runner ∧ d.trigger = trigger
        ∧ d.now.day = day := by
  unfold daysOf
  rw [List.mem_filterMap]
  refine exists_congr fun d => and_congr_right fun _ => ?_
  split <;> simp_all

-- ============================================================== due now

/-- What is due of a runner is a part of its triggers, each once. -/
theorem dueOf_sublist (entry : String × RunnerSchedule) :
    (s.dueOf isTradingDay now entry).Sublist entry.2.runner.triggers := by
  unfold dueOf RunnerSchedule.due
  split
  · split
    · exact List.filter_sublist
    · exact List.nil_sublist _
  · exact List.nil_sublist _

theorem dueOf_names_nodup (entry : String × RunnerSchedule) :
    ((s.dueOf isTradingDay now entry).map TimeTrigger.name).Nodup :=
  entry.2.runner.distinct.sublist ((dueOf_sublist entry).map _)

/-- Among things with different names, one name picks out one at most. -/
private theorem filterMap_name {ts : List TimeTrigger} {day : Date}
    (h : (ts.map TimeTrigger.name).Nodup) :
    (ts.filterMap fun t => if t.name = trigger then some day else none)
      = if trigger ∈ ts.map TimeTrigger.name then [day] else [] := by
  induction ts with
  | nil => rfl
  | cons t ts ih =>
      obtain ⟨hnew, hrest⟩ := List.nodup_cons.mp h
      by_cases ht : t.name = trigger
      · rw [List.filterMap_cons, ih hrest, ← ht, if_neg hnew, List.map_cons,
          if_pos rfl, if_pos List.mem_cons_self]
      · rw [List.filterMap_cons, ih hrest, if_neg ht]
        simp [Ne.symm ht]

/-- A pass enters a trigger it finds due once in its journal. -/
theorem daysOf_tickDue (hkeys : s.schedules.keys.Nodup)
    (hmem : (runner, schedule) ∈ s.schedules) (trigger : String) :
    daysOf (s.tickDue isTradingDay now) runner trigger
      = if trigger ∈ (s.dueOf isTradingDay now (runner, schedule)).map
            TimeTrigger.name
        then [now.day] else [] := by
  unfold daysOf tickDue
  rw [List.filterMap_flatMap]
  rw [Dict.flatMap_eq_at hkeys hmem]
  · rw [List.filterMap_map]
    have hname : ((fun d : Dispatch =>
        if d.runner = runner ∧ d.trigger = trigger then some d.now.day
        else none) ∘ fun t : TimeTrigger =>
          ({ runner, trigger := t.name, now } : Dispatch))
        = fun t => if t.name = trigger then some now.day else none := by
      funext t
      simp
    rw [hname]
    exact filterMap_name (dueOf_names_nodup _)
  · intro entry _ hother
    rw [List.filterMap_map, List.filterMap_eq_nil_iff]
    intro t _
    simp [hother]

theorem daysOf_tickDue_unknown (hunknown : runner ∉ s.schedules.keys)
    (trigger : String) :
    daysOf (s.tickDue isTradingDay now) runner trigger = [] := by
  unfold daysOf tickDue
  rw [List.filterMap_eq_nil_iff]
  intro d hd
  obtain ⟨entry, hentry, hd⟩ := List.mem_flatMap.mp hd
  obtain ⟨t, _, rfl⟩ := List.mem_map.mp hd
  refine if_neg fun h => hunknown ?_
  exact List.mem_map.mpr ⟨entry, hentry, h.1⟩

/-- A trigger is due of a runner that runs, on a trading day, at or after
its time, unless it fired today or is skipped today. -/
theorem mem_dueOf {t : TimeTrigger} :
    t ∈ s.dueOf isTradingDay now (runner, schedule)
      ↔ s.statuses runner = .running ∧ isTradingDay now.day
        ∧ t ∈ schedule.runner.triggers
        ∧ schedule.firedOn.get t.name ≠ some now.day
        ∧ schedule.skippedOn.get t.name ≠ some now.day
        ∧ t.triggerTime ≤ now.time := by
  unfold dueOf RunnerSchedule.due
  by_cases hrunning : s.statuses runner = .running
  · by_cases hday : isTradingDay now.day = true
    · simp [hrunning, hday]
    · simp [hrunning, hday]
  · simp [hrunning]

/-- What a pass finds due is due of a registered runner. -/
theorem mem_tickDue (hkeys : s.schedules.keys.Nodup)
    (hmem : (runner, schedule) ∈ s.schedules) {t : TimeTrigger}
    (ht : t ∈ schedule.runner.triggers) :
    { runner, trigger := t.name, now } ∈ s.tickDue isTradingDay now
      ↔ t ∈ s.dueOf isTradingDay now (runner, schedule) := by
  unfold tickDue
  rw [List.mem_flatMap]
  constructor
  · intro ⟨entry, hentry, hd⟩
    obtain ⟨t', ht', heq⟩ := List.mem_map.mp hd
    obtain ⟨hrunner, hname, -⟩ := Dispatch.mk.inj heq
    have hsame : entry.2 = schedule := by
      have hget := (Dict.get_eq_some_iff hkeys).mpr hentry
      rw [hrunner, (Dict.get_eq_some_iff hkeys).mpr hmem] at hget
      exact (Option.some.inj hget).symm
    obtain ⟨r, sched⟩ := entry
    dsimp only at hrunner hsame ht'
    subst hrunner hsame
    have hin := (dueOf_sublist _).subset ht'
    exact List.inj_on_of_nodup_map sched.runner.distinct hin ht hname ▸ ht'
  · intro hdue
    exact ⟨_, hmem, List.mem_map.mpr ⟨t, hdue, rfl⟩⟩

-- ============================================================ one event

/-- `setStatus`, `deliver` and what a registration refuses leave the marks
and the journal. -/
theorem Kept.of_same {s' : PlatformScheduler} (h : Kept isTradingDay s)
    (hschedules : s'.schedules = s.schedules)
    (hdispatched : s'.dispatched = s.dispatched) : Kept isTradingDay s' := by
  obtain ⟨hkeys, hfired, hskipped, hunknown, hstrict⟩ := h
  refine ⟨?_, ?_, ?_, ?_, ?_⟩
  · rw [hschedules]
    exact hkeys
  · rw [hschedules, hdispatched]
    exact hfired
  · rw [hschedules]
    exact hskipped
  · rw [hschedules, hdispatched]
    exact hunknown
  · rw [hdispatched]
    exact hstrict

/-- A new schedule has fired nothing, whatever it skips. -/
theorem registered_fields (r : ScheduledRunner) :
    (RunnerSchedule.registered isTradingDay r now).firedOn = []
      ∧ (RunnerSchedule.registered isTradingDay r now).runner = r
      ∧ (RunnerSchedule.registered isTradingDay r now).registeredAt = now := by
  unfold RunnerSchedule.registered RunnerSchedule.seedMissedTriggers
  split <;> exact ⟨rfl, rfl, rfl⟩

/-- What `_seed_missed_triggers` skips of a new schedule. -/
theorem registered_skips {r : ScheduledRunner} {t : TimeTrigger}
    (ht : t ∈ r.triggers) (day : Date) :
    (RunnerSchedule.registered isTradingDay r now).skippedOn.get t.name
        = some day
      ↔ isTradingDay day
        ∧ (RunnerSchedule.registered isTradingDay r now).Skips t day := by
  unfold RunnerSchedule.Skips
  rw [(registered_fields r).2.2]
  unfold RunnerSchedule.registered RunnerSchedule.seedMissedTriggers
  by_cases hday : isTradingDay now.day = true
  · rw [if_pos hday]
    dsimp only
    have hfold : r.triggers.foldl (fun skippedOn trigger =>
          if now.time < trigger.triggerTime then skippedOn
          else if trigger.catchUp = .skip then
            Dict.put skippedOn trigger.name now.day
          else skippedOn) []
        = (r.triggers.filter fun t => decide (t.triggerTime ≤ now.time
            ∧ t.catchUp = .skip)).foldl
              (fun d t => Dict.put d t.name now.day) [] := by
      rw [List.foldl_filter]
      congr
      funext d t
      by_cases hpast : now.time < t.triggerTime
      · simp [hpast]
      · simp [hpast, not_lt.mp hpast]
    have hname : t.name ∈ (r.triggers.filter fun t =>
          decide (t.triggerTime ≤ now.time ∧ t.catchUp = .skip)).map
            TimeTrigger.name
        ↔ t.triggerTime ≤ now.time ∧ t.catchUp = .skip := by
      rw [List.mem_map]
      constructor
      · rintro ⟨t', ht', heq⟩
        obtain ⟨hin, hskips⟩ := List.mem_filter.mp ht'
        rw [← List.inj_on_of_nodup_map r.distinct hin ht heq]
        exact of_decide_eq_true hskips
      · intro hskips
        exact ⟨t, List.mem_filter.mpr ⟨ht, decide_eq_true hskips⟩, rfl⟩
    rw [hfold, Dict.get_foldl_put, if_congr hname rfl rfl]
    constructor
    · intro h
      split at h
      · rename_i hskips
        cases h
        exact ⟨hday, hskips.2, rfl, hskips.1⟩
      · cases h
    · rintro ⟨_, hskip, hsame, hpast⟩
      rw [if_pos ⟨hpast, hskip⟩, hsame]
  · rw [if_neg hday]
    refine iff_of_false (by simp [Dict.get]) ?_
    rintro ⟨htrading, _, hsame, _⟩
    exact hday (hsame ▸ htrading)

/-- A registration adds a schedule without marks for a runner without a
journal. -/
theorem Kept.register (h : Kept isTradingDay s) (r : ScheduledRunner)
    (recovers : Bool) (now : Instant) :
    Kept isTradingDay (s.register isTradingDay r recovers now) := by
  unfold PlatformScheduler.register
  cases hget : s.schedules.get r.identity with
  | some _ => exact h
  | none =>
      dsimp only
      split
      · generalize hnew : RunnerSchedule.registered isTradingDay r now = new
        have hfields := @registered_fields isTradingDay now r
        rw [hnew] at hfields
        obtain ⟨hfired, hrunner, -⟩ := hfields
        have hkeys : (s.schedules.put r.identity new).keys.Nodup :=
          Dict.nodup_keys_put h.keys ..
        have hcases : ∀ runner schedule,
            (runner, schedule) ∈ s.schedules.put r.identity new →
            (runner = r.identity ∧ schedule = new)
              ∨ (runner, schedule) ∈ s.schedules := by
          intro runner schedule hmem
          rw [← Dict.get_eq_some_iff hkeys, Dict.get_put] at hmem
          split at hmem
          · rename_i hsame
            cases hmem
            exact Or.inl ⟨hsame, rfl⟩
          · exact Or.inr ((Dict.get_eq_some_iff h.keys).mp hmem)
        refine ⟨hkeys, ?_, ?_, ?_, h.strict⟩
        · intro runner schedule hmem trigger
          rcases hcases runner schedule hmem with ⟨rfl, rfl⟩ | hold
          · rw [hfired]
            show none = (daysOf s.dispatched r.identity trigger).getLast?
            rw [h.unknown _ (Dict.get_eq_none_iff.mp hget)]
            rfl
          · exact h.fired runner schedule hold trigger
        · intro runner schedule hmem t ht day
          rcases hcases runner schedule hmem with ⟨rfl, rfl⟩ | hold
          · rw [hrunner] at ht
            rw [← hnew]
            exact registered_skips ht day
          · exact h.skipped runner schedule hold t ht day
        · intro runner hunknown trigger
          refine h.unknown runner (fun hin => hunknown ?_) trigger
          exact Dict.mem_keys_put.mpr (Or.inr hin)
      · exact h

/-- A pass enters today in the journal of what it finds due, where it was
not, and marks it. -/
theorem Kept.tick (h : Kept isTradingDay s)
    (hpast : ∀ d ∈ s.dispatched, d.now.day ≤ now.day) :
    Kept isTradingDay (s.tick isTradingDay now) := by
  have hkeys : (s.tick isTradingDay now).schedules.keys
      = s.schedules.keys := by
    show (s.schedules.map _).map Prod.fst = _
    rw [List.map_map]
    rfl
  have hcases : ∀ runner schedule,
      (runner, schedule) ∈ (s.tick isTradingDay now).schedules →
      ∃ before, (runner, before) ∈ s.schedules
        ∧ schedule = before.fire now
          (s.dueOf isTradingDay now (runner, before)) := by
    intro runner schedule hmem
    obtain ⟨entry, hentry, heq⟩ := List.mem_map.mp hmem
    cases heq
    exact ⟨entry.2, hentry, rfl⟩
  have hpastOf : ∀ runner trigger,
      ∀ day ∈ daysOf s.dispatched runner trigger, day ≤ now.day := by
    intro runner trigger day hday
    obtain ⟨d, hd, -, -, rfl⟩ := mem_daysOf.mp hday
    exact hpast d hd
  refine ⟨by rw [hkeys]; exact h.keys, ?_, ?_, ?_, ?_⟩
  · intro runner schedule hmem trigger
    obtain ⟨before, hbefore, rfl⟩ := hcases runner schedule hmem
    show (List.foldl _ before.firedOn _).get trigger
      = (daysOf (s.dispatched ++ s.tickDue isTradingDay now) runner
          trigger).getLast?
    rw [Dict.get_foldl_put, daysOf_append, daysOf_tickDue h.keys hbefore]
    split
    · rw [List.getLast?_append]
      rfl
    · rw [List.append_nil]
      exact h.fired runner before hbefore trigger
  · intro runner schedule hmem
    obtain ⟨before, hbefore, rfl⟩ := hcases runner schedule hmem
    exact h.skipped runner before hbefore
  · intro runner hunknown trigger
    rw [hkeys] at hunknown
    show daysOf (s.dispatched ++ s.tickDue isTradingDay now) runner trigger
      = []
    rw [daysOf_append, h.unknown runner hunknown,
      daysOf_tickDue_unknown hunknown]
    rfl
  · intro runner trigger
    show (daysOf (s.dispatched ++ s.tickDue isTradingDay now) runner
      trigger).Pairwise (· < ·)
    rw [daysOf_append]
    by_cases hknown : runner ∈ s.schedules.keys
    · obtain ⟨schedule, hget⟩ := Dict.mem_keys.mp hknown
      have hmem := (Dict.get_eq_some_iff h.keys).mp hget
      rw [daysOf_tickDue h.keys hmem]
      split
      · rename_i hdue
        obtain ⟨t, ht, rfl⟩ := List.mem_map.mp hdue
        obtain ⟨-, -, -, hnotFired, -⟩ := mem_dueOf.mp ht
        refine Journal.strict_snoc (h.strict runner t.name)
          (hpastOf runner t.name) fun hin => hnotFired ?_
        rw [h.fired runner schedule hmem]
        exact (Journal.last_today_iff ((h.strict runner t.name).imp le_of_lt)
          (hpastOf runner t.name)).mpr hin
      · rw [List.append_nil]
        exact h.strict runner trigger
    · rw [daysOf_tickDue_unknown hknown, List.append_nil]
      exact h.strict runner trigger

-- ============================================================= any run

/-- The clock does not run back over these events. -/
def Nondecreasing (events : List SchedulerEvent) : Prop :=
  (events.filterMap SchedulerEvent.instant).Pairwise Instant.NoLater

/-- What is under way was dispatched, each dispatch reaching its runner
once at most. -/
def Accounted (s : PlatformScheduler) : Prop :=
  (s.delivered ++ s.dispatching).Subperm s.dispatched

theorem run_snoc (s : PlatformScheduler) (events : List SchedulerEvent)
    (event : SchedulerEvent) :
    s.run isTradingDay (events ++ [event])
      = (s.run isTradingDay events).step isTradingDay event := by
  unfold run
  rw [List.foldl_append]
  rfl

theorem register_dispatched (r : ScheduledRunner) (recovers : Bool) :
    (s.register isTradingDay r recovers now).dispatched = s.dispatched
      ∧ (s.register isTradingDay r recovers now).delivered = s.delivered
      ∧ (s.register isTradingDay r recovers now).dispatching
        = s.dispatching := by
  unfold PlatformScheduler.register
  split
  · exact ⟨rfl, rfl, rfl⟩
  · split <;> exact ⟨rfl, rfl, rfl⟩

theorem deliver_frame (index : Nat) :
    (s.deliver index).schedules = s.schedules
      ∧ (s.deliver index).dispatched = s.dispatched := by
  unfold deliver
  split
  · exact ⟨rfl, rfl⟩
  · dsimp only
    split <;> exact ⟨rfl, rfl⟩

/-- Whatever was dispatched, a pass at that instant did. -/
theorem dispatched_by_tick (events : List SchedulerEvent) :
    ∀ d ∈ (run isTradingDay {} events).dispatched,
      SchedulerEvent.tick d.now ∈ events := by
  induction events using List.reverseRecOn with
  | nil => exact fun _ hd => absurd hd List.not_mem_nil
  | append_singleton events event ih =>
      intro d hd
      rw [run_snoc] at hd
      rw [List.mem_append]
      cases event with
      | register r recovers now =>
          rw [show (step isTradingDay _ (.register r recovers now)).dispatched
            = _ from (register_dispatched r recovers).1] at hd
          exact Or.inl (ih d hd)
      | setStatus identity status => exact Or.inl (ih d hd)
      | deliver index =>
          rw [show (step isTradingDay _ (.deliver index)).dispatched
            = _ from (deliver_frame index).2] at hd
          exact Or.inl (ih d hd)
      | tick now =>
          rcases List.mem_append.mp hd with hd | hd
          · exact Or.inl (ih d hd)
          · obtain ⟨entry, -, hd⟩ := List.mem_flatMap.mp hd
            obtain ⟨t, -, rfl⟩ := List.mem_map.mp hd
            exact Or.inr List.mem_cons_self

/-- A pass comes no earlier than what was dispatched before it. -/
theorem dispatched_past {events : List SchedulerEvent}
    (hclock : Nondecreasing (events ++ [.tick now])) :
    ∀ d ∈ (run isTradingDay {} events).dispatched, d.now.day ≤ now.day := by
  intro d hd
  have htick := dispatched_by_tick events d hd
  unfold Nondecreasing at hclock
  rw [List.filterMap_append, List.pairwise_append] at hclock
  have hle := hclock.2.2 d.now (List.mem_filterMap.mpr ⟨_, htick, rfl⟩) now
    List.mem_cons_self
  rcases hle with hlt | ⟨heq, -⟩
  · exact hlt.le
  · exact heq.le

theorem kept_run {events : List SchedulerEvent}
    (hclock : Nondecreasing events) :
    Kept isTradingDay (run isTradingDay {} events) := by
  induction events using List.reverseRecOn with
  | nil =>
      exact ⟨List.nodup_nil, fun _ _ hmem => absurd hmem List.not_mem_nil,
        fun _ _ hmem => absurd hmem List.not_mem_nil, fun _ _ _ => rfl,
        fun _ _ => List.Pairwise.nil⟩
  | append_singleton events event ih =>
      have hbefore : Nondecreasing events := by
        unfold Nondecreasing at hclock
        rw [List.filterMap_append, List.pairwise_append] at hclock
        exact hclock.1
      have h := ih hbefore
      rw [run_snoc]
      cases event with
      | register r recovers now => exact h.register r recovers now
      | setStatus identity status => exact h.of_same rfl rfl
      | deliver index =>
          exact h.of_same (deliver_frame index).1 (deliver_frame index).2
      | tick now => exact h.tick (dispatched_past hclock)

theorem accounted_run (events : List SchedulerEvent) :
    Accounted (run isTradingDay {} events) := by
  induction events using List.reverseRecOn with
  | nil => exact List.Subperm.refl _
  | append_singleton events event ih =>
      rw [run_snoc]
      generalize run isTradingDay {} events = s at ih
      cases event with
      | register r recovers now =>
          obtain ⟨hdispatched, hdelivered, hdispatching⟩ :=
            @register_dispatched isTradingDay s now r recovers
          show Accounted (s.register isTradingDay r recovers now)
          unfold Accounted
          rw [hdispatched, hdelivered, hdispatching]
          exact ih
      | setStatus identity status => exact ih
      | tick now =>
          show (s.delivered ++ (s.dispatching ++ s.tickDue isTradingDay
            now)).Subperm (s.dispatched ++ s.tickDue isTradingDay now)
          rw [← List.append_assoc]
          exact List.Subperm.append ih (List.Subperm.refl _)
      | deliver index =>
          show Accounted (s.deliver index)
          unfold deliver
          cases hget : s.dispatching[index]? with
          | none => exact ih
          | some d =>
              obtain ⟨hlt, hd⟩ := List.getElem?_eq_some_iff.mp hget
              have hperm : (d :: s.dispatching.eraseIdx index).Perm
                  s.dispatching := by
                rw [← hd]
                exact List.getElem_cons_eraseIdx_perm hlt
              dsimp only
              split
              · have hmoved : (s.delivered ++ [d]
                    ++ s.dispatching.eraseIdx index).Perm
                    (s.delivered ++ s.dispatching) := by
                  rw [List.append_assoc]
                  exact hperm.append_left _
                exact hmoved.subperm.trans ih
              · have hfewer : (s.delivered
                    ++ s.dispatching.eraseIdx index).Subperm
                    (s.delivered ++ s.dispatching) :=
                  ((List.eraseIdx_sublist ..).append_left _).subperm
                exact hfewer.trans ih

theorem daysOf_subperm {log log' : List Dispatch} (h : log.Subperm log')
    (day : Date) :
    (daysOf log runner trigger).count day
      ≤ (daysOf log' runner trigger).count day := by
  obtain ⟨part, hperm, hsub⟩ := h
  have hcount := ((hperm.symm).filterMap fun d : Dispatch =>
    if d.runner = runner ∧ d.trigger = trigger then some d.now.day
    else none).count_eq day
  unfold daysOf
  rw [hcount]
  exact (hsub.filterMap _).count_le day

/-- What a pass finds due, told without the marks. -/
theorem due_iff {events : List SchedulerEvent}
    (hclock : Nondecreasing (events ++ [.tick now]))
    (hget : (run isTradingDay {} events).schedules.get runner
      = some schedule)
    {t : TimeTrigger} (ht : t ∈ schedule.runner.triggers) :
    { runner, trigger := t.name, now }
        ∈ (run isTradingDay {} events).tickDue isTradingDay now
      ↔ isTradingDay now.day
        ∧ (run isTradingDay {} events).statuses runner = .running
        ∧ t.triggerTime ≤ now.time
        ∧ now.day ∉ daysOf (run isTradingDay {} events).dispatched runner
            t.name
        ∧ ¬ schedule.Skips t now.day := by
  have hbefore : Nondecreasing events := by
    unfold Nondecreasing at hclock
    rw [List.filterMap_append, List.pairwise_append] at hclock
    exact hclock.1
  have h : Kept isTradingDay (run isTradingDay {} events) :=
    kept_run hbefore
  have hpast : ∀ d ∈ (run isTradingDay {} events).dispatched,
      d.now.day ≤ now.day := dispatched_past hclock
  generalize run isTradingDay {} events = s at *
  have hmem := (Dict.get_eq_some_iff h.keys).mp hget
  rw [mem_tickDue h.keys hmem ht, mem_dueOf,
    h.fired runner schedule hmem t.name, ne_eq,
    Journal.last_today_iff ((h.strict runner t.name).imp le_of_lt) ?_]
  · rw [ne_eq, h.skipped runner schedule hmem t ht now.day]
    tauto
  · intro day hday
    obtain ⟨d, hd, -, -, rfl⟩ := mem_daysOf.mp hday
    exact hpast d hd

/-- After any events on a clock that does not run back, a pass. No trigger
was dispatched twice on a day, by this pass or before it, or reached its
strategy twice. A trigger of a registered runner is dispatched exactly on a
trading day, while its runner is running, at or after its time, unless it
was dispatched before on that day or was past, and to be skipped, when its
runner was registered on that day. Nothing else is dispatched. What a
dispatch thread delivers was dispatched and finds its runner running. -/
theorem trigger_discipline (isTradingDay : Date → Bool)
    (events : List SchedulerEvent) (now : Instant)
    (hclock : Nondecreasing (events ++ [.tick now])) :
    (∀ runner trigger day,
      (daysOf (run isTradingDay {} (events ++ [.tick now])).dispatched runner
          trigger).count day ≤ 1
      ∧ (daysOf (run isTradingDay {} (events ++ [.tick now])).delivered
          runner trigger).count day ≤ 1)
    ∧ (run isTradingDay {} (events ++ [.tick now])).dispatched
      = (run isTradingDay {} events).dispatched
        ++ (run isTradingDay {} events).tickDue isTradingDay now
    ∧ (∀ runner schedule,
      (run isTradingDay {} events).schedules.get runner = some schedule →
      ∀ t ∈ schedule.runner.triggers,
        ({ runner, trigger := t.name, now }
            ∈ (run isTradingDay {} events).tickDue isTradingDay now
        ↔ isTradingDay now.day
          ∧ (run isTradingDay {} events).statuses runner = .running
          ∧ t.triggerTime ≤ now.time
          ∧ now.day ∉ daysOf (run isTradingDay {} events).dispatched runner
              t.name
          ∧ ¬ schedule.Skips t now.day))
    ∧ (∀ d ∈ (run isTradingDay {} events).tickDue isTradingDay now,
      d.now = now ∧ ∃ schedule,
        (run isTradingDay {} events).schedules.get d.runner = some schedule
          ∧ ∃ t ∈ schedule.runner.triggers, t.name = d.trigger)
    ∧ ∀ index d, d ∈ ((run isTradingDay {} events).deliver index).delivered →
      d ∈ (run isTradingDay {} events).delivered
        ∨ d ∈ (run isTradingDay {} events).dispatched
          ∧ (run isTradingDay {} events).statuses d.runner = .running := by
  have hafter : Kept isTradingDay
      (run isTradingDay {} (events ++ [.tick now])) := kept_run hclock
  have hbefore : Nondecreasing events := by
    unfold Nondecreasing at hclock
    rw [List.filterMap_append, List.pairwise_append] at hclock
    exact hclock.1
  have h : Kept isTradingDay (run isTradingDay {} events) :=
    kept_run hbefore
  refine ⟨fun runner trigger day => ?_, by rw [run_snoc]; rfl,
    fun runner schedule hget t ht => due_iff hclock hget ht,
    fun d hd => ?_, fun index d hd => ?_⟩
  · have honce := Journal.count_le_one (hafter.strict runner trigger) day
    have haccounted : Accounted
        (run isTradingDay {} (events ++ [.tick now])) := accounted_run _
    have hsub := (List.sublist_append_left _ _).subperm.trans haccounted
    exact ⟨honce, (daysOf_subperm hsub day).trans honce⟩
  · obtain ⟨entry, hentry, hd⟩ := List.mem_flatMap.mp hd
    obtain ⟨t, ht, rfl⟩ := List.mem_map.mp hd
    exact ⟨rfl, entry.2, (Dict.get_eq_some_iff h.keys).mpr hentry, t,
      (dueOf_sublist entry).subset ht, rfl⟩
  · have haccounted : Accounted (run isTradingDay {} events) :=
      accounted_run events
    generalize run isTradingDay {} events = s at *
    unfold deliver at hd
    cases hget : s.dispatching[index]? with
    | none =>
        rw [hget] at hd
        exact Or.inl hd
    | some d' =>
        rw [hget] at hd
        dsimp only at hd
        split at hd
        · rename_i hrunning
          rcases List.mem_append.mp hd with hd | hd
          · exact Or.inl hd
          · rw [List.mem_singleton.mp hd]
            refine Or.inr ⟨haccounted.subset ?_, hrunning⟩
            exact List.mem_append_right _ (List.mem_of_getElem? hget)
        · exact Or.inl hd

-- ============================================================== a restart

/-- Strategy-1's two triggers, in microseconds. -/
def entryAndCutoff : ScheduledRunner :=
  { identity := "NIFTY"
    triggers := [{ name := "entry", triggerTime := 33600000000 },
      { name := "cutoff", triggerTime := 54900000000
        catchUp := .fireOnStartup }]
    distinct := by decide }

def scheduleDay : Date := { year := 2026, month := 2, day := 2 }

def scheduleDayAfter : Date := { year := 2026, month := 2, day := 3 }

/-- Restarted after both times: the entry is skipped for the day, the
cutoff fires at once, and the entry fires the day after. -/
example :
    ((run (fun _ => true) {}
      [.register entryAndCutoff true ⟨scheduleDay, 55000000000⟩,
        .tick ⟨scheduleDay, 55001000000⟩, .tick ⟨scheduleDay, 55002000000⟩,
        .tick ⟨scheduleDayAfter, 33600000000⟩]).dispatched.map
          fun d => (d.trigger, d.now.day))
      = [("cutoff", scheduleDay), ("entry", scheduleDayAfter)] := by
  decide +kernel

/-- The pass after that restart dispatches within the discipline. -/
theorem trigger_discipline_restart :
    (daysOf (run (fun _ => true) {}
        ([.register entryAndCutoff true ⟨scheduleDay, 55000000000⟩]
          ++ [.tick ⟨scheduleDay, 55001000000⟩])).dispatched "NIFTY"
      "cutoff").count scheduleDay ≤ 1 :=
  ((trigger_discipline (fun _ => true)
    [.register entryAndCutoff true ⟨scheduleDay, 55000000000⟩]
    ⟨scheduleDay, 55001000000⟩
    (List.pairwise_pair.mpr (Or.inr ⟨rfl, by decide⟩))).1 "NIFTY" "cutoff"
      scheduleDay).1

end PlatformScheduler

end AlgoPlatform
