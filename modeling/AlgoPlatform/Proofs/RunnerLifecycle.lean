/-
The runners' lifecycle machine, and what it keeps safe.

`lifecycle` is the machine for one runner: which hook a call runs in which
status, and the status it leaves. `perform_eq` says that the code's calls
are its steps, whatever the hooks and the write of a freeze do: an
exception never leaves the call, and nothing of another runner is touched.

The rest is about the machine. A runner's own hooks are in one of a few
shapes (`Life`): nothing yet; a recovery and trading hooks; the same cut
off by the hook that froze it, or by the shutdown. The order of the hooks
can be read off the shape.
-/
import Mathlib.Data.List.Forall2
import AlgoPlatform.Model.RunnerLifecycle

open Basis

namespace AlgoPlatform

-- ============================================================ the machine

/-- The hook through which a dispatch reaches the strategy. -/
def CallKind.tradingHook : CallKind → Option Hook
  | .dispatchTimeTrigger triggerName => some (.onTimeTrigger triggerName)
  | .dispatchTick => some .onMarketTick
  | .dispatchMonitorCycle | .monitorTurn => some .onMonitorCycle
  | .start | .stop => none

/-- The hook that a call runs in a status, and the status after it; `none`
for a call that runs none. -/
def lifecycle (kind : CallKind) (status : RunnerStatus) (raises : Bool) :
    Option (Hook × RunnerStatus) :=
  match status with
  | .created =>
      match kind with
      | .start => some (.recover, if raises then .frozen else .running)
      | .stop => some (.onShutdown, .stopped)
      | _ => none
  | .running =>
      match kind with
      | .stop => some (.onShutdown, .stopped)
      | kind => kind.tradingHook.map fun hook =>
          (hook, if raises then .frozen else .running)
  | .stopped | .frozen => none

namespace Runners

variable {s s' : Runners} {runner : String} {a : HookAnswer}

-- ====================================================== the code's steps

/-- A hook has run and the runner has moved on; a freeze may have been
recorded. -/
def ran (s : Runners) (runner : String) (hook : Hook) (raised : Bool)
    (status : RunnerStatus) (frozen : Bool) : Runners :=
  { status := Function.update s.status runner status
    instances := if frozen then Function.update s.instances runner
        ((s.instances runner).map fun _ => .frozen)
      else s.instances
    hooks := s.hooks ++ [⟨runner, hook, s.status runner, raised⟩] }

/-- A hook that returns leaves the status. -/
theorem runGuarded_returned (h : a.raises = false) (hook : Hook) :
    runGuarded runner a hook s
      = (.ok true, s.ran runner hook false (s.status runner) false) := by
  obtain ⟨raises, freezeRaises⟩ := a
  cases h
  show (Except.ok true, _) = _
  unfold ran
  rw [Function.update_eq_self]
  rfl

/-- One that raises freezes the runner, recorded or not. -/
theorem runGuarded_raised (h : a.raises = true) (hook : Hook) :
    runGuarded runner a hook s
      = (.ok false, s.ran runner hook true .frozen (!a.freezeRaises)) := by
  obtain ⟨raises, freezeRaises⟩ := a
  cases h
  cases freezeRaises <;> rfl

theorem start_eq :
    start runner a s
      = if s.status runner = .created then
          (.ok (), if a.raises then
            s.ran runner .recover true .frozen (!a.freezeRaises)
          else s.ran runner .recover false .running false)
        else (.error (.notCreated runner (s.status runner)), s) := by
  unfold start
  rw [Step.bind_ok (Step.get_apply s)]
  split
  · cases hraises : a.raises with
    | true => rw [Step.bind_ok (runGuarded_raised hraises _)]; rfl
    | false =>
        rw [Step.bind_ok (runGuarded_returned hraises _)]
        show (Except.ok (), _) = _
        unfold ran
        simp
  · rfl

theorem dispatch_eq (hook : Hook) :
    dispatch runner a hook s
      = (.ok (), if s.status runner = .running then
          if a.raises then
            s.ran runner hook true .frozen (!a.freezeRaises)
          else s.ran runner hook false .running false
        else s) := by
  unfold dispatch
  rw [Step.bind_ok (Step.get_apply s)]
  split
  · rename_i hrunning
    cases hraises : a.raises with
    | true => rw [Step.bind_ok (runGuarded_raised hraises _)]; rfl
    | false =>
        rw [Step.bind_ok (runGuarded_returned hraises _), hrunning]
        rfl
  · rfl

theorem stop_eq :
    stop runner a s
      = (.ok (), if s.status runner = .stopped ∨ s.status runner = .frozen
          then s
        else s.ran runner .onShutdown a.raises .stopped false) := by
  unfold stop
  rw [Step.bind_ok (Step.get_apply s)]
  split
  · rfl
  · obtain ⟨raises, freezeRaises⟩ := a
    cases raises <;> rfl

theorem monitorTurn_eq :
    monitorTurn runner a s = dispatch runner a .onMonitorCycle s := by
  unfold monitorTurn
  rw [Step.bind_ok (Step.get_apply s)]
  split
  · exact Step.tryCatch_ok (by rw [dispatchMonitorCycle, dispatch_eq])
      |>.trans (dispatch_eq _).symm
  · rename_i hstatus
    rw [dispatch_eq, if_neg hstatus]
    rfl

/-- Every call is a step of the machine. What it does not run it ignores,
but for `start`, which refuses. -/
theorem perform_eq (call : RunnerCall) (s : Runners) :
    perform call s
      = match lifecycle call.kind (s.status call.runner) call.answer.raises with
        | some (hook, status) =>
            (.ok (), s.ran call.runner hook call.answer.raises status
              (status = .frozen && !call.answer.freezeRaises))
        | none =>
            (if call.kind = .start then
                .error (.notCreated call.runner (s.status call.runner))
              else .ok (), s) := by
  obtain ⟨runner, kind, a⟩ := call
  obtain ⟨raises, freezeRaises⟩ := a
  have hdispatch : ∀ hook, dispatch runner ⟨raises, freezeRaises⟩ hook s
      = match (match s.status runner with
          | .running => some (hook,
              if raises then RunnerStatus.frozen else .running)
          | _ => none) with
        | some (hook, status) => (.ok (), s.ran runner hook raises status
            (status = .frozen && !freezeRaises))
        | none => (.ok (), s) := by
    intro hook
    rw [dispatch_eq]
    cases s.status runner <;> cases raises <;> rfl
  unfold perform lifecycle
  cases kind with
  | start =>
      dsimp only
      rw [start_eq]
      cases s.status runner <;> cases raises <;> rfl
  | stop =>
      dsimp only
      rw [stop_eq]
      cases s.status runner <;> rfl
  | dispatchTimeTrigger triggerName =>
      dsimp only [dispatchTimeTrigger]
      rw [hdispatch]
      cases s.status runner <;> rfl
  | dispatchTick =>
      dsimp only [dispatchTick]
      rw [hdispatch]
      cases s.status runner <;> rfl
  | dispatchMonitorCycle =>
      dsimp only [dispatchMonitorCycle]
      rw [hdispatch]
      cases s.status runner <;> rfl
  | monitorTurn =>
      dsimp only
      rw [monitorTurn_eq, hdispatch]
      cases s.status runner <;> rfl

-- ========================================================= one runner's own

/-- The hooks of one runner, in the order they ran. -/
def own (s : Runners) (runner : String) : List HookRun :=
  s.hooks.filter (·.runner = runner)

/-- What a call means for one runner: nothing, unless it is its own and
runs a hook. -/
theorem perform_own (call : RunnerCall) (s : Runners) (runner : String) :
    ((perform call s).2.status runner = s.status runner
        ∧ (perform call s).2.own runner = s.own runner
        ∧ (perform call s).2.instances runner = s.instances runner
        ∧ (call.runner = runner → lifecycle call.kind (s.status runner)
          call.answer.raises = none))
    ∨ call.runner = runner ∧ ∃ hook status,
      lifecycle call.kind (s.status runner) call.answer.raises
          = some (hook, status)
        ∧ (perform call s).2.status runner = status
        ∧ (perform call s).2.own runner = s.own runner
          ++ [⟨runner, hook, s.status runner, call.answer.raises⟩]
        ∧ (perform call s).2.instances runner
          = if status = .frozen ∧ call.answer.freezeRaises = false then
              (s.instances runner).map fun _ => .frozen
            else s.instances runner := by
  rw [perform_eq]
  cases hstep : lifecycle call.kind (s.status call.runner)
      call.answer.raises with
  | none =>
      refine Or.inl ⟨rfl, rfl, rfl, fun hown => ?_⟩
      rw [← hown]
      exact hstep
  | some next =>
      obtain ⟨hook, status⟩ := next
      dsimp only
      by_cases hown : call.runner = runner
      · subst hown
        refine Or.inr ⟨rfl, hook, status, hstep, Function.update_self .., ?_,
          ?_⟩
        · unfold own ran
          rw [List.filter_append]
          simp
        · unfold ran
          by_cases hfrozen : status = .frozen
          · cases call.answer.freezeRaises <;> simp [hfrozen]
          · simp [hfrozen]
      · refine Or.inl ⟨Function.update_of_ne (Ne.symm hown) .., ?_, ?_,
          fun h => absurd h hown⟩
        · unfold own ran
          rw [List.filter_append]
          simp [hown]
        · unfold ran
          dsimp only
          split
          · exact Function.update_of_ne (Ne.symm hown) ..
          · rfl

-- ======================================================= shapes of a life

/-- Trading hooks that ran while running and returned. -/
def Traded (ts : List HookRun) : Prop :=
  ∀ t ∈ ts, t.hook.isTrading ∧ t.status = .running

/-- What a runner's own hooks look like in each status. -/
def Life (status : RunnerStatus) (hooks : List HookRun) : Prop :=
  match status with
  | .created => hooks = []
  | .running => ∃ first ts, hooks = first :: ts ∧ first.hook = .recover
      ∧ first.raised = false ∧ Traded ts
  | .frozen => ∃ first ts, hooks = first :: ts ∧ first.hook = .recover
      ∧ (first.raised = true → ts = []) ∧ Traded ts
  | .stopped => ∃ before last, hooks = before ++ [last]
      ∧ last.hook = .onShutdown
      ∧ (before = [] ∨ ∃ first ts, before = first :: ts
        ∧ first.hook = .recover ∧ first.raised = false ∧ Traded ts)

theorem Traded.snoc {ts : List HookRun} (h : Traded ts) {t : HookRun}
    (hhook : t.hook.isTrading) (hstatus : t.status = .running) :
    Traded (ts ++ [t]) := by
  intro t' ht'
  rcases List.mem_append.mp ht' with ht' | ht'
  · exact h t' ht'
  · rw [List.mem_singleton.mp ht']
    exact ⟨hhook, hstatus⟩

theorem tradingHook_isTrading {kind : CallKind} {hook : Hook}
    (h : kind.tradingHook = some hook) : hook.isTrading := by
  cases kind <;> cases h <;> rfl

/-- A step of the machine keeps the shape. -/
theorem Life.step {status status' : RunnerStatus} {hooks : List HookRun}
    {kind : CallKind} {hook : Hook} {raises : Bool}
    (h : Life status hooks)
    (hstep : lifecycle kind status raises = some (hook, status')) :
    Life status' (hooks ++ [⟨runner, hook, status, raises⟩]) := by
  cases status with
  | stopped => cases hstep
  | frozen => cases hstep
  | created =>
      cases h
      cases kind <;> cases hstep
      · cases raises with
        | true =>
            exact ⟨_, [], rfl, rfl, fun _ => rfl, fun _ ht => nomatch ht⟩
        | false => exact ⟨_, [], rfl, rfl, rfl, fun _ ht => nomatch ht⟩
      · exact ⟨[], _, rfl, rfl, Or.inl rfl⟩
  | running =>
      obtain ⟨first, ts, rfl, hfirst, hreturned, htraded⟩ := h
      by_cases hstop : kind = .stop
      · subst hstop
        cases hstep
        exact ⟨first :: ts, _, rfl, rfl,
          Or.inr ⟨first, ts, rfl, hfirst, hreturned, htraded⟩⟩
      · have hhook : kind.tradingHook.map (fun hook =>
            (hook, if raises then RunnerStatus.frozen else .running))
            = some (hook, status') := by
          cases kind <;> first | exact hstep | exact absurd rfl hstop
        obtain ⟨hook', htrading, heq⟩ := Option.map_eq_some_iff.mp hhook
        cases heq
        have hmore := htraded.snoc (t := ⟨runner, hook, .running, raises⟩)
          (tradingHook_isTrading htrading) rfl
        cases raises with
        | true =>
            refine ⟨first, _, rfl, hfirst, fun hraised => ?_, hmore⟩
            rw [hreturned] at hraised
            cases hraised
        | false => exact ⟨first, _, rfl, hfirst, hreturned, hmore⟩

/-- In a recovery followed by trading hooks, each of these ran while
running and after the recovery. -/
private theorem traded_after {first h : HookRun} {ts pre post : List HookRun}
    (hfirst : first.hook = .recover) (htraded : Traded ts)
    (hsplit : first :: ts = pre ++ h :: post) (htrading : h.hook.isTrading) :
    h.status = .running ∧ first ∈ pre := by
  cases pre with
  | nil =>
      obtain ⟨rfl, -⟩ := List.cons.inj hsplit
      rw [hfirst] at htrading
      cases htrading
  | cons p pre =>
      obtain ⟨rfl, hrest⟩ := List.cons.inj hsplit
      refine ⟨(htraded h ?_).2, List.mem_cons_self⟩
      rw [hrest]
      exact List.mem_append_right _ List.mem_cons_self

/-- A trading hook ran while running, and after a recovery that
returned. -/
theorem Life.trading {status : RunnerStatus}
    {hooks pre post : List HookRun} {h : HookRun} (hlife : Life status hooks)
    (hsplit : hooks = pre ++ h :: post) (htrading : h.hook.isTrading) :
    h.status = .running
      ∧ ∃ r ∈ pre, r.hook = .recover ∧ r.raised = false := by
  cases status with
  | created =>
      cases hlife
      exact absurd hsplit (by simp)
  | running =>
      obtain ⟨first, ts, rfl, hfirst, hreturned, htraded⟩ := hlife
      obtain ⟨hstatus, hmem⟩ := traded_after hfirst htraded hsplit htrading
      exact ⟨hstatus, first, hmem, hfirst, hreturned⟩
  | frozen =>
      obtain ⟨first, ts, rfl, hfirst, hraised, htraded⟩ := hlife
      obtain ⟨hstatus, hmem⟩ := traded_after hfirst htraded hsplit htrading
      refine ⟨hstatus, first, hmem, hfirst, ?_⟩
      -- had the recovery raised, nothing would have followed it
      by_contra hnot
      have hts := hraised (by simpa using hnot)
      subst hts
      have hlength := congrArg List.length hsplit
      have hpre := List.length_pos_of_mem hmem
      simp only [List.length_append, List.length_cons,
        List.length_nil] at hlength
      omega
  | stopped =>
      obtain ⟨before, last, rfl, hlast, hbefore⟩ := hlife
      rcases List.eq_nil_or_concat post with rfl | ⟨post', last', rfl⟩
      · obtain ⟨-, heq⟩ := List.append_inj' hsplit rfl
        cases List.cons.inj heq |>.1
        rw [hlast] at htrading
        cases htrading
      · have hsplit' : before ++ [last]
            = (pre ++ h :: post') ++ [last'] := by
          rw [hsplit]
          simp
        obtain ⟨hinner, -⟩ := List.append_inj' hsplit' rfl
        rcases hbefore with rfl | ⟨first, ts, rfl, hfirst, hreturned, htraded⟩
        · exact absurd hinner (by simp)
        · obtain ⟨hstatus, hmem⟩ :=
            traded_after hfirst htraded hinner htrading
          exact ⟨hstatus, first, hmem, hfirst, hreturned⟩

/-- No trading hook and no recovery is a shutdown. -/
private theorem traded_no_shutdown {first : HookRun} {ts : List HookRun}
    (hfirst : first.hook = .recover) (htraded : Traded ts) :
    (first :: ts).countP (·.hook = .onShutdown) = 0 := by
  rw [List.countP_eq_zero]
  intro t ht
  rcases List.mem_cons.mp ht with rfl | ht
  · simp [hfirst]
  · have htrading := (htraded t ht).1
    intro hshutdown
    rw [of_decide_eq_true hshutdown] at htrading
    cases htrading

theorem Life.shutdown_once {status : RunnerStatus} {hooks : List HookRun}
    (h : Life status hooks) : hooks.countP (·.hook = .onShutdown) ≤ 1 := by
  cases status with
  | created =>
      cases h
      exact Nat.zero_le _
  | running =>
      obtain ⟨first, ts, rfl, hfirst, -, htraded⟩ := h
      rw [traded_no_shutdown hfirst htraded]
      exact Nat.zero_le _
  | frozen =>
      obtain ⟨first, ts, rfl, hfirst, -, htraded⟩ := h
      rw [traded_no_shutdown hfirst htraded]
      exact Nat.zero_le _
  | stopped =>
      obtain ⟨before, last, rfl, -, hbefore⟩ := h
      rw [List.countP_append]
      have hlast : [last].countP (·.hook = .onShutdown) ≤ 1 :=
        List.countP_le_length
      rcases hbefore with rfl | ⟨first, ts, rfl, hfirst, -, htraded⟩
      · rw [List.countP_nil]
        omega
      · rw [traded_no_shutdown hfirst htraded]
        omega

-- ============================================================== any calls

theorem run_cons (s : Runners) (call : RunnerCall) (calls : List RunnerCall) :
    s.run (call :: calls) = (perform call s).2.run calls := rfl

theorem life_run {s : Runners} (h : ∀ runner, Life (s.status runner)
    (s.own runner)) (calls : List RunnerCall) (runner : String) :
    Life ((s.run calls).status runner) ((s.run calls).own runner) := by
  induction calls generalizing s with
  | nil => exact h runner
  | cons call calls ih =>
      refine ih fun runner => ?_
      rcases perform_own call s runner with
        ⟨hstatus, hown, -⟩ | ⟨-, hook, status, hstep, hstatus, hown, -⟩
      · rw [hstatus, hown]
        exact h runner
      · rw [hstatus, hown]
        exact (h runner).step hstep

/-- A frozen or stopped runner stays as it is. -/
theorem ended_stays {s : Runners}
    (h : s.status runner = .frozen ∨ s.status runner = .stopped)
    (calls : List RunnerCall) :
    (s.run calls).status runner = s.status runner
      ∧ (s.run calls).own runner = s.own runner := by
  induction calls generalizing s with
  | nil => exact ⟨rfl, rfl⟩
  | cons call calls ih =>
      rcases perform_own call s runner with
        ⟨hstatus, hown, -⟩ | ⟨-, hook, status, hstep, -⟩
      · obtain ⟨hstatus', hown'⟩ := ih (hstatus ▸ h)
        exact ⟨hstatus'.trans hstatus, hown'.trans hown⟩
      · rcases h with h | h <;> rw [h] at hstep <;> cases hstep

/-- The same call, up to what another runner's hooks and freeze come to. -/
def SameFor (runner : String) (call call' : RunnerCall) : Prop :=
  call'.runner = call.runner ∧ call'.kind = call.kind
    ∧ (call.runner = runner → call'.answer = call.answer)

/-- Status, hooks and row of one runner. -/
def SameView (runner : String) (s s' : Runners) : Prop :=
  s'.status runner = s.status runner ∧ s'.own runner = s.own runner
    ∧ s'.instances runner = s.instances runner

/-- What a runner goes through depends on its own outcomes alone. -/
theorem SameView.perform {call call' : RunnerCall}
    (h : SameView runner s s') (hcall : SameFor runner call call') :
    SameView runner (perform call s).2 (perform call' s').2 := by
  obtain ⟨hstatus, hown, hinstance⟩ := h
  obtain ⟨hrunner, hkind, hanswer⟩ := hcall
  rcases perform_own call s runner with
    ⟨hs, ho, hi, hnone⟩ | ⟨hmine, hook, status, hstep, hs, ho, hi⟩ <;>
  rcases perform_own call' s' runner with
    ⟨hs', ho', hi', hnone'⟩ | ⟨hmine', hook', status', hstep', hs', ho', hi'⟩
  · exact ⟨by rw [hs, hs', hstatus], by rw [ho, ho', hown],
      by rw [hi, hi', hinstance]⟩
  · have hmine := hrunner ▸ hmine'
    rw [hkind, hstatus, hanswer hmine, hnone hmine] at hstep'
    cases hstep'
  · have hmine' := hrunner.trans hmine
    rw [← hkind, ← hstatus, ← hanswer hmine, hnone' hmine'] at hstep
    cases hstep
  · rw [hkind, hstatus, hanswer hmine, hstep] at hstep'
    cases hstep'
    exact ⟨by rw [hs, hs'], by rw [ho, ho', hown, hstatus, hanswer hmine],
      by rw [hi, hi', hinstance, hanswer hmine]⟩

theorem SameView.run {calls calls' : List RunnerCall}
    (h : SameView runner s s')
    (hcalls : List.Forall₂ (SameFor runner) calls calls') :
    SameView runner (s.run calls) (s'.run calls') := by
  induction hcalls generalizing s s' with
  | nil => exact h
  | cons hcall _ ih => exact ih (h.perform hcall)

/-- For any runners and calls, whatever hooks and freezes come to: a
runner's trading hooks ran while it was running and after a recovery that
returned; frozen or stopped it runs no hook again; its shutdown hook ran
once at most; no call raises, but for a `start` of a runner that is not
fresh; and what other runners' hooks and freezes come to makes no
difference to it. -/
theorem lifecycle_safe (calls : List RunnerCall) (runner : String) :
    (∀ pre h post, (run {} calls).own runner = pre ++ h :: post →
      h.hook.isTrading → h.status = .running
        ∧ ∃ r ∈ pre, r.hook = .recover ∧ r.raised = false)
    ∧ ((run {} calls).status runner = .frozen
        ∨ (run {} calls).status runner = .stopped → ∀ more,
      (run {} (calls ++ more)).status runner = (run {} calls).status runner
        ∧ (run {} (calls ++ more)).own runner = (run {} calls).own runner)
    ∧ ((run {} calls).own runner).countP (·.hook = .onShutdown) ≤ 1
    ∧ (∀ call, (perform call (run {} calls)).1 = .ok ()
      ∨ call.kind = .start
        ∧ (run {} calls).status call.runner ≠ .created
        ∧ (perform call (run {} calls)).1 = .error
          (.notCreated call.runner ((run {} calls).status call.runner)))
    ∧ ∀ calls', List.Forall₂ (SameFor runner) calls calls' →
      SameView runner (run {} calls) (run {} calls') := by
  have hfresh : ∀ runner, Life (({} : Runners).status runner)
      (({} : Runners).own runner) := fun _ => rfl
  have hlife := life_run hfresh calls runner
  refine ⟨fun pre h post hsplit htrading => hlife.trading hsplit htrading,
    fun hended more => ?_, hlife.shutdown_once, fun call => ?_,
    fun calls' hcalls => SameView.run ⟨rfl, rfl, rfl⟩ hcalls⟩
  · have happend : run {} (calls ++ more) = (run {} calls).run more :=
      List.foldl_append ..
    rw [happend]
    exact ended_stays hended more
  · rw [perform_eq]
    generalize run {} calls = s
    cases hstep : lifecycle call.kind (s.status call.runner)
        call.answer.raises with
    | some next => exact Or.inl rfl
    | none =>
        dsimp only
        split
        · rename_i hstart
          refine Or.inr ⟨hstart, fun hcreated => ?_, rfl⟩
          rw [hstart, hcreated] at hstep
          cases hstep
        · exact Or.inl rfl

/-- One runner freezes in a heartbeat, its freeze unrecorded; the other
goes on. -/
example :
    let answers : String → HookAnswer := fun runner =>
      if runner = "NIFTY" then ⟨true, true⟩ else {}
    let s := run {} ([⟨"NIFTY", .start, {}⟩, ⟨"SENSEX", .start, {}⟩]
      ++ monitorTick answers ["NIFTY", "SENSEX"]
      ++ monitorTick answers ["NIFTY", "SENSEX"])
    (s.status "NIFTY", (s.own "NIFTY").length, s.instances "NIFTY")
        = (.frozen, 2, some .active)
      ∧ (s.status "SENSEX", (s.own "SENSEX").length) = (.running, 3) := by
  decide

end Runners

end AlgoPlatform
