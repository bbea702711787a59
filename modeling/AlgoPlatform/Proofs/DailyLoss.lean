/-
Whether the daily-loss breach is sticky.

# The lost latch

A check that finds the day's total at or past the limit fails, and then
tries to latch the breach on the day's row. When another check commits a
change to that row between the look-up and the UPDATE, the write is
refused and dropped: the failed check leaves no latch, and once the
total has recovered a later check passes.

# When it is sticky

`Heeded` excludes just that: the UPDATE of a check that crossed the
limit may find its version out of date only if the row is latched by
then. Along such a run, by induction on the events, every check that
failed left the row latched (`Holds`), and a later check reads the
latch. That a refused version is the only way to lose the write is the
locking discipline of `Basis.Optimistic`: the row only ever grows, and
`breached` only from false to true.
-/
import AlgoPlatform.Basis.Optimistic
import AlgoPlatform.Model.DailyLoss
import Mathlib.Data.List.Induction

open Basis

namespace AlgoPlatform.RiskCore

open DailyRiskStateRepository DailyLossCheck

variable {accounts : List Nat} {str : ℚ → String} {day : AccountDay}
  {es : List (Server.Event DailyLossCheck)} {s s' : DailyLossChecks}
  {t u : Nat} {check : DailyLossCheck}

-- =============================================== statement vocabulary

/-- The day's row is latched. -/
def Latched (table : List (Slot DailyRiskState)) (day : AccountDay) : Prop :=
  ∃ i v, rowAt table i = some v ∧ day.Portfolio v.value
    ∧ v.value.breached = true

/-- A check for the day was answered, and failed. -/
def Failed (s : DailyLossChecks) (day : AccountDay) : Prop :=
  ∃ a ∈ s.answers, a.job.day = day
    ∧ ∃ result, a.result = .ok result ∧ result.status = .failed

/-- Check `t` is about to read and will find its total at or past the
limit. -/
def Crosses (str : ℚ → String) (s : DailyLossChecks) (t : Nat)
    (day : AccountDay) : Prop :=
  ∃ check limit existing, check.day = day ∧ check.limit = some limit
    ∧ s.Runs t check (checkDailyLossLimit str check)
    ∧ portfolioRow day (selectAll t s.table) = .ok existing
    ∧ check.crossed existing limit = true

/-- The UPDATE check `t` is about to issue finds the row's version out of
date. -/
def OutOfDate (s : DailyLossChecks) (t : Nat) : Prop :=
  match s.connections[t]? with
  | some ⟨_, some (.update i version value _)⟩ =>
      updateRow t i version value s.table = some (false, s.table)
  | _ => False

instance (s : DailyLossChecks) (t : Nat) : Decidable (OutOfDate s t) := by
  unfold OutOfDate
  split <;> infer_instance

/-- No check that crossed the limit has its write refused while the row
is not latched, and after a failed check the limit stays configured. -/
structure Heeded (accounts : List Nat) (str : ℚ → String) (day : AccountDay)
    (es : List (Server.Event DailyLossCheck)) : Prop where
  written : ∀ pre t mid post, es = pre ++ .acts t :: mid ++ .acts t :: post →
    Crosses str (dailyLossChecks accounts str pre) t day →
    OutOfDate (dailyLossChecks accounts str (pre ++ .acts t :: mid)) t →
    Latched (dailyLossChecks accounts str (pre ++ .acts t :: mid)).table day
  limited : ∀ pre check post, es = pre ++ .start check :: post →
    check.day = day → Failed (dailyLossChecks accounts str pre) day →
    check.limit ≠ none

/-- Once a check for the day has failed, every check for it that is
started later and answered fails. -/
def Sticky (accounts : List Nat) (str : ℚ → String) (day : AccountDay)
    (es : List (Server.Event DailyLossCheck)) : Prop :=
  ∀ pre mid, es = pre ++ mid → Failed (dailyLossChecks accounts str pre) day →
    ∀ a ∈ (dailyLossChecks accounts str es).answers, a.job.day = day →
      (dailyLossChecks accounts str pre).connections.length ≤ a.connection →
      ∃ result, a.result = .ok result ∧ result.status = .failed

-- ================================================= the check, unfolded

/-- What is left once everything is written. -/
private def finish (result : RiskCheckResult) :
    DailyRiskSession RiskCheckResult := .commit (.done (.ok result))

/-- What is left after a refused version. -/
private def giveUp (result : RiskCheckResult) :
    DailyRiskSession RiskCheckResult := .rollback (.done (.ok result))

/-- What is left after any other error. -/
private def fail (e : Exc) : DailyRiskSession RiskCheckResult :=
  .rollback (.done (.error e))

/-- A write down of the check's figures: what is to be written, and what
the check will answer. -/
private structure Plan where
  day : AccountDay
  limit : ℚ
  realized : ℚ
  unrealized : ℚ
  crossed : Bool
  result : RiskCheckResult

namespace Plan

variable (p : Plan)

/-- From `mark_breached` on. -/
private def marking (row : DailyRiskRow) : DailyRiskSession RiskCheckResult :=
  if p.crossed && !row.2.value.breached then
    .update row.1 row.2.version { row.2.value with breached := true } fun
      | true => finish p.result
      | false => giveUp p.result
  else finish p.result

/-- The row with the check's figures. -/
private def figures (row : DailyRiskState) : DailyRiskState :=
  { row with realizedPnl := p.realized, unrealizedPnl := p.unrealized }

/-- From `update_pnl` on. -/
private def writing (row : DailyRiskRow) : DailyRiskSession RiskCheckResult :=
  if p.figures row.2.value = row.2.value then p.marking row
  else .update row.1 row.2.version (p.figures row.2.value) fun
    | true => p.marking (row.1, ⟨p.figures row.2.value, row.2.version + 1⟩)
    | false => giveUp p.result

/-- From the look-up after a refused INSERT on. -/
private def lookingAgain : DailyRiskSession RiskCheckResult :=
  .select fun rows => match portfolioRow p.day rows with
    | .error e => fail e
    | .ok (some row) => p.writing row
    | .ok none => fail .integrity

/-- From the INSERT on. -/
private def inserting : DailyRiskSession RiskCheckResult :=
  .insert (newPortfolioRow p.day p.limit) fun
    | some id => p.writing (id, ⟨newPortfolioRow p.day p.limit, 1⟩)
    | none => p.lookingAgain

/-- From the look-up of `get_or_create_portfolio_row` on. -/
private def looking : DailyRiskSession RiskCheckResult :=
  .select fun rows => match portfolioRow p.day rows with
    | .error e => fail e
    | .ok (some row) => p.writing row
    | .ok none => p.inserting

end Plan

/-- What a check that read `existing` will do. -/
private def planOf (str : ℚ → String) (check : DailyLossCheck) (limit : ℚ)
    (existing : Option DailyRiskRow) : Plan where
  day := check.day
  limit := limit
  realized := check.realized
  unrealized := unrealized existing
  crossed := check.crossed existing limit
  result := dailyLossResult str check existing limit

/-- `persist` with the answer that follows it. -/
private def afterwards (result : RiskCheckResult)
    (body : DailyRiskSession Unit) : DailyRiskSession RiskCheckResult :=
  Sql.bind (Sql.tryCatch body fun e =>
    if e = .concurrentModification then .rollback (.done (.ok ()))
    else .rollback (.done (.error e))) fun _ => .done (.ok result)

private theorem afterwards_marking (p : Plan) (row : DailyRiskRow) :
    afterwards p.result (do
      if p.crossed && !row.2.value.breached then discard (markBreached row)
      .commit (pure ())) = p.marking row := by
  unfold Plan.marking
  split
  · rename_i h
    have hne : ¬ { row.2.value with breached := true } = row.2.value := by
      intro heq
      have hbreached : true = row.2.value.breached :=
        congrArg DailyRiskState.breached heq
      simp [← hbreached] at h
    have hmark : markBreached row
        = .update row.1 row.2.version { row.2.value with breached := true } fun
            | true => pure (row.1,
                ⟨{ row.2.value with breached := true }, row.2.version + 1⟩)
            | false => throw .concurrentModification := if_neg hne
    rw [hmark]
    refine congrArg (Sql.update _ _ _) (funext fun ok => ?_)
    cases ok <;> rfl
  · rfl

private theorem afterwards_writing (p : Plan) (row : DailyRiskRow) :
    afterwards p.result (do
      let row ← updatePnl row p.realized p.unrealized
      if p.crossed && !row.2.value.breached then discard (markBreached row)
      .commit (pure ())) = p.writing row := by
  unfold Plan.writing
  by_cases h : p.figures row.2.value = row.2.value
  · have hskip : updatePnl row p.realized p.unrealized = pure row := if_pos h
    rw [if_pos h, hskip]
    exact afterwards_marking p row
  · have hupdate : updatePnl row p.realized p.unrealized
        = .update row.1 row.2.version (p.figures row.2.value) fun
            | true => pure (row.1,
                ⟨p.figures row.2.value, row.2.version + 1⟩)
            | false => throw .concurrentModification := if_neg h
    rw [if_neg h, hupdate]
    refine congrArg (Sql.update _ _ _) (funext fun ok => ?_)
    cases ok with
    | false => rfl
    | true => exact afterwards_marking p _

/-- A look-up fails only where two rows share the day. -/
private theorem portfolioRow_error {rows : List DailyRiskRow} {e : Exc}
    (h : portfolioRow day rows = .error e) : e = .multipleResults := by
  unfold portfolioRow at h
  split at h <;> cases h
  rfl

/-- A check under a limit: one read, and then what it plans. -/
private theorem check_script {limit : ℚ} (h : check.limit = some limit) :
    checkDailyLossLimit str check = .select fun rows =>
      match portfolioRow check.day rows with
      | .error e => .done (.error e)
      | .ok existing => (planOf str check limit existing).looking := by
  unfold checkDailyLossLimit
  rw [h]
  refine congrArg Sql.select (funext fun rows => ?_)
  dsimp only
  cases hrow : portfolioRow check.day rows with
  | error e => rfl
  | ok existing =>
      refine congrArg Sql.select (funext fun rows' => ?_)
      show afterwards _ _ = _
      dsimp only [planOf]
      cases hfound : portfolioRow check.day rows' with
      | error e =>
          rw [portfolioRow_error hfound]
          rfl
      | ok found =>
          cases found with
          | some row =>
              exact afterwards_writing (planOf str check limit existing) row
          | none =>
              refine congrArg (Sql.insert _) (funext fun created => ?_)
              cases created with
              | some id =>
                  exact afterwards_writing (planOf str check limit existing) _
              | none =>
                  refine congrArg Sql.select (funext fun rows'' => ?_)
                  dsimp only [planOf]
                  cases hagain : portfolioRow check.day rows'' with
                  | error e =>
                      rw [portfolioRow_error hagain]
                      rfl
                  | ok found =>
                      cases found with
                      | none => rfl
                      | some row =>
                          exact afterwards_writing
                            (planOf str check limit existing) row

-- ======================================================== the day's row

/-- How a row grows: it stays the day's row it is, and latched once
latched. -/
private structure Grown (r r' : DailyRiskState) : Prop where
  account : r'.accountId = r.accountId
  date : r'.tradeDate = r.tradeDate
  instrument : r'.instrument = r.instrument
  breached : r.breached = true → r'.breached = true

private theorem growth : Growth (dailyRiskState accounts) Grown where
  refl _ := ⟨rfl, rfl, rfl, id⟩
  trans h h' := ⟨h'.account.trans h.account, h'.date.trans h.date,
    h'.instrument.trans h.instrument, h'.breached ∘ h.breached⟩
  symm {r r'} h := by
    obtain ⟨haccount, hdate, hinstrument⟩ := h
    refine ⟨haccount.symm, hdate.symm, hinstrument.imp And.symm ?_⟩
    exact fun ⟨hr, hr', heq⟩ => ⟨hr', hr, heq.symm⟩
  clash {r r'} h q := by
    show _ ∧ _ ∧ _ ↔ _ ∧ _ ∧ _
    rw [h.account, h.date, h.instrument]

private theorem Grown.portfolio {r r' : DailyRiskState} (h : Grown r r') :
    day.Portfolio r' ↔ day.Portfolio r := by
  unfold AccountDay.Portfolio
  rw [h.account, h.date, h.instrument]

variable {table table' : List (Slot DailyRiskState)} {row : DailyRiskRow}
  {prog prog' : DailyRiskSession RiskCheckResult} {p : Plan}

/-- The latch stays, whatever a connection does. -/
private theorem Latched.moves (h : Latched table day)
    (hmoves : Moves Grown t table table') : Latched table' day := by
  obtain ⟨i, v, hrow, hday, hbreached⟩ := h
  obtain ⟨v', hrow', hgrown, _⟩ := hmoves.rows hrow
  exact ⟨i, v', hrow', hgrown.portfolio.2 hday, hgrown.breached hbreached⟩

/-- What a look-up finds is the day's committed row. -/
private theorem portfolioRow_some (hun : Unwritten t table)
    (h : portfolioRow day (selectAll t table) = .ok (some row)) :
    day.Portfolio row.2.value ∧ rowAt table row.1 = some row.2 := by
  unfold portfolioRow at h
  split at h
  · cases h
  · rename_i found hfound
    cases h
    have hmem : row ∈ (selectAll t table).filter fun row =>
        decide (day.Portfolio row.2.value) := by
      rw [hfound]
      exact List.mem_cons_self
    rw [List.mem_filter, decide_eq_true_eq] at hmem
    exact ⟨hmem.2, (mem_selectAll_of_unwritten hun).1 hmem.1⟩
  · cases h

/-- Where the day is latched, a look-up finds the latched row. -/
private theorem portfolioRow_latched
    (horderly : Orderly (dailyRiskState accounts) Grown table)
    (hun : Unwritten t table) (h : Latched table day) :
    ∃ row, portfolioRow day (selectAll t table) = .ok (some row)
      ∧ row.2.value.breached = true := by
  obtain ⟨i, v, hrow, hday, hbreached⟩ := h
  refine ⟨(i, v), ?_, hbreached⟩
  have hall : ∀ x ∈ (selectAll t table).filter fun row =>
      decide (day.Portfolio row.2.value), x = (i, v) := by
    intro x hx
    rw [List.mem_filter, decide_eq_true_eq] at hx
    have hx' := (mem_selectAll_of_unwritten hun).1 hx.1
    have hi : x.1 = i := by
      refine horderly.unique (.inl hx') (.inl hrow) ?_
      exact ⟨hx.2.1.trans hday.1.symm, hx.2.2.1.trans hday.2.1.symm,
        .inl ⟨hx.2.2.2, hday.2.2⟩⟩
    refine Prod.ext hi ?_
    rw [hi, hrow] at hx'
    exact (Option.some.inj hx').symm
  have hmem : (i, v) ∈ (selectAll t table).filter fun row =>
      decide (day.Portfolio row.2.value) := by
    rw [List.mem_filter, decide_eq_true_eq]
    exact ⟨(mem_selectAll_of_unwritten hun).2 hrow, hday⟩
  have hnodup : ((selectAll t table).filter fun row =>
      decide (day.Portfolio row.2.value)).Nodup :=
    (List.Nodup.of_map _ (selectAll_keys_nodup t table)).filter _
  unfold portfolioRow
  match hrows : (selectAll t table).filter fun row =>
      decide (day.Portfolio row.2.value) with
  | [] =>
      rw [hrows] at hmem
      cases hmem
  | [x] =>
      obtain rfl := hall x (hrows ▸ List.mem_cons_self)
      simp only [hrows]
  | x :: y :: rest =>
      rw [hrows] at hnodup
      have hx := hall x (hrows ▸ List.mem_cons_self)
      have hy := hall y (hrows ▸ List.mem_cons_of_mem _ List.mem_cons_self)
      exact absurd (hx.trans hy.symm)
        (List.ne_of_not_mem_cons (List.nodup_cons.1 hnodup).1)

-- ======================================================= the invariant

/-- What a check of the day knows once it has read; `C` says that it then
crossed the limit, `L` that it was started after a failed check. -/
private structure Decided (day : AccountDay) (C L : Prop)
    (table : List (Slot DailyRiskState)) (p : Plan) : Prop where
  crossing : p.crossed = true → C
  latched : p.result.status = .failed → p.crossed = false →
    Latched table day
  late : L → p.result.status = .failed ∧ Latched table day

/-- Where in its transaction a check is. -/
private inductive Phase (str : ℚ → String) (day : AccountDay) (C L : Prop)
    (table : List (Slot DailyRiskState)) (t : Nat) (check : DailyLossCheck) :
    DailyRiskSession RiskCheckResult → Prop
  | begun (limit : ℚ) (limited : check.limit = some limit)
      (unwritten : Unwritten t table)
      (late : check.day = day → L → Latched table day) :
      Phase str day C L table t check (checkDailyLossLimit str check)
  | looking (p : Plan) (own : p.day = check.day)
      (unwritten : Unwritten t table)
      (decided : p.day = day → Decided day C L table p) :
      Phase str day C L table t check p.looking
  | inserting (p : Plan) (own : p.day = check.day)
      (unwritten : Unwritten t table) (first : p.day = day → ¬ L)
      (decided : p.day = day → Decided day C L table p) :
      Phase str day C L table t check p.inserting
  | lookingAgain (p : Plan) (own : p.day = check.day)
      (unwritten : Unwritten t table) (first : p.day = day → ¬ L)
      (decided : p.day = day → Decided day C L table p) :
      Phase str day C L table t check p.lookingAgain
  | writing (p : Plan) (row : DailyRiskRow)
      (own : p.day = check.day) (copy : Copy Grown t table row.1 row.2)
      (of : p.day.Portfolio row.2.value)
      (changes : p.figures row.2.value ≠ row.2.value)
      (decided : p.day = day → Decided day C L table p) :
      Phase str day C L table t check (p.writing row)
  | marking (p : Plan) (row : DailyRiskRow)
      (own : p.day = check.day) (copy : Copy Grown t table row.1 row.2)
      (of : p.day.Portfolio row.2.value)
      (marks : p.crossed && !row.2.value.breached)
      (decided : p.day = day → Decided day C L table p) :
      Phase str day C L table t check (p.marking row)
  | finishing (p : Plan) (own : p.day = check.day)
      (decided : p.day = day → Decided day C L table p)
      (latches : p.day = day → p.crossed = true → Latched table day
        ∨ ∃ i w, writeOf t table i = some w ∧ day.Portfolio w.value
          ∧ w.value.breached = true) :
      Phase str day C L table t check (finish p.result)
  | givingUp (p : Plan) (own : p.day = check.day)
      (decided : p.day = day → Decided day C L table p)
      (latched : p.day = day → p.result.status = .failed →
        Latched table day) :
      Phase str day C L table t check (giveUp p.result)
  | failing (e : Exc)
      (first : check.day = day → ¬ L) :
      Phase str day C L table t check (fail e)

variable {C C' L L' : Prop}

private theorem Decided.moves (h : Decided day C L table p)
    (hmoves : Moves Grown t table table') (hC : C → C') (hL : L' → L) :
    Decided day C' L' table' p where
  crossing hcrossed := hC (h.crossing hcrossed)
  latched hfailed hnot := (h.latched hfailed hnot).moves hmoves
  late hlate := ⟨(h.late (hL hlate)).1, (h.late (hL hlate)).2.moves hmoves⟩

private theorem Decided.stay (h : Decided day C L table p) (hC : C → C')
    (hL : L' → L) : Decided day C' L' table p :=
  h.moves (t := 0) (.refl (@growth [])) hC hL

/-- A failed check whose refused write is heeded is latched. -/
private theorem Decided.latched_of_refused (h : Decided day C L table p)
    (hfailed : p.result.status = .failed)
    (hheeded : C → Latched table day) : Latched table day := by
  cases hcrossed : p.crossed with
  | true => exact hheeded (h.crossing hcrossed)
  | false => exact h.latched hfailed hcrossed

/-- What the others do leaves a check where it is. -/
private theorem Phase.stable (h : Phase str day C L table u check prog)
    (hu : u ≠ t) (hmoves : Moves Grown t table table') (hC : C → C')
    (hL : L' → L) : Phase str day C' L' table' u check prog := by
  cases h with
  | begun limit limited unwritten late =>
      exact .begun limit limited (unwritten.moves hu hmoves)
        fun hday hlate => (late hday (hL hlate)).moves hmoves
  | looking p own unwritten decided =>
      exact .looking p own (unwritten.moves hu hmoves)
        fun hday => (decided hday).moves hmoves hC hL
  | inserting p own unwritten first decided =>
      exact .inserting p own (unwritten.moves hu hmoves)
        (fun hday hlate => first hday (hL hlate))
        fun hday => (decided hday).moves hmoves hC hL
  | lookingAgain p own unwritten first decided =>
      exact .lookingAgain p own (unwritten.moves hu hmoves)
        (fun hday hlate => first hday (hL hlate))
        fun hday => (decided hday).moves hmoves hC hL
  | writing p row own copy of changes decided =>
      exact .writing p row own (copy.moves (@growth []) hu hmoves) of changes
        fun hday => (decided hday).moves hmoves hC hL
  | marking p row own copy of marks decided =>
      exact .marking p row own (copy.moves (@growth []) hu hmoves) of marks
        fun hday => (decided hday).moves hmoves hC hL
  | finishing p own decided latches =>
      refine .finishing p own
        (fun hday => (decided hday).moves hmoves hC hL) fun hday hcrossed => ?_
      refine (latches hday hcrossed).imp (·.moves hmoves) ?_
      exact fun ⟨i, w, hwrite, hw⟩ =>
        ⟨i, w, (hmoves.writes u hu i).trans hwrite, hw⟩
  | givingUp p own decided latched =>
      exact .givingUp p own (fun hday => (decided hday).moves hmoves hC hL)
        fun hday hfailed => (latched hday hfailed).moves hmoves
  | failing e first =>
      exact .failing e fun hday hlate => first hday (hL hlate)

-- ================================================================ acts

/-- What an answered check of the day leaves. -/
private structure Answers (day : AccountDay) (L : Prop)
    (table : List (Slot DailyRiskState)) (r : Except Exc RiskCheckResult) :
    Prop where
  latched : ∀ result, r = .ok result → result.status = .failed →
    Latched table day
  late : L → ∃ result, r = .ok result ∧ result.status = .failed

/-- A check that returned, or has a phase. -/
private def Goes (str : ℚ → String) (day : AccountDay) (C L : Prop)
    (table : List (Slot DailyRiskState)) (t : Nat) (check : DailyLossCheck)
    (prog : DailyRiskSession RiskCheckResult) : Prop :=
  (∃ r, prog = .done r ∧ (check.day = day → Answers day L table r))
    ∨ Phase str day C L table t check prog

/-- A row the check holds is the day's latched row, or its own latched
write. -/
private theorem latched_of_copy (hcopy : Copy Grown t table row.1 row.2)
    (hof : day.Portfolio row.2.value) (hbreached : row.2.value.breached = true) :
    Latched table day ∨ ∃ i w, writeOf t table i = some w
      ∧ day.Portfolio w.value ∧ w.value.breached = true := by
  rcases hcopy with hown | ⟨_, v, hrow, hgrown, _⟩
  · exact .inr ⟨_, _, hown, hof, hbreached⟩
  · exact .inl ⟨_, v, hrow, hgrown.portfolio.2 hof, hgrown.breached hbreached⟩

private theorem phase_marking (own : p.day = check.day)
    (copy : Copy Grown t table row.1 row.2) (of : p.day.Portfolio row.2.value)
    (decided : p.day = day → Decided day C L table p) :
    Phase str day C L table t check (p.marking row) := by
  by_cases hmarks : p.crossed && !row.2.value.breached
  · exact .marking p row own copy of hmarks decided
  · have hfinish : p.marking row = finish p.result := if_neg hmarks
    rw [hfinish]
    refine .finishing p own decided fun hday hcrossed => ?_
    subst hday
    refine latched_of_copy copy of ?_
    simpa [hcrossed] using hmarks

private theorem phase_writing (own : p.day = check.day)
    (copy : Copy Grown t table row.1 row.2) (of : p.day.Portfolio row.2.value)
    (decided : p.day = day → Decided day C L table p) :
    Phase str day C L table t check (p.writing row) := by
  by_cases hchanges : p.figures row.2.value = row.2.value
  · have hmarking : p.writing row = p.marking row := if_pos hchanges
    rw [hmarking]
    exact phase_marking own copy of decided
  · exact .writing p row own copy of hchanges decided

/-- A look-up that finds the row goes on to write it; where the row is
latched it does find it. -/
private theorem goes_lookup
    (horderly : Orderly (dailyRiskState accounts) Grown table)
    (own : p.day = check.day) (unwritten : Unwritten t table)
    (decided : p.day = day → Decided day C L table p)
    {missing : DailyRiskSession RiskCheckResult}
    (hmissing : (p.day = day → ¬ L) →
      Phase str day C L table t check missing) :
    Phase str day C L table t check
      (match portfolioRow p.day (selectAll t table) with
      | .error e => fail e
      | .ok (some row) => p.writing row
      | .ok none => missing) := by
  have hfound : p.day = day → L → ∃ row,
      portfolioRow p.day (selectAll t table) = .ok (some row) := by
    intro hday hlate
    obtain ⟨row, hrow, _⟩ := portfolioRow_latched horderly unwritten
      ((decided hday).late hlate).2
    exact ⟨row, hday ▸ hrow⟩
  cases hrow : portfolioRow p.day (selectAll t table) with
  | error e =>
      refine .failing e fun hday hlate => ?_
      obtain ⟨row, hrow'⟩ := hfound (own.trans hday) hlate
      rw [hrow] at hrow'
      cases hrow'
  | ok found =>
      cases found with
      | none =>
          refine hmissing fun hday hlate => ?_
          obtain ⟨row, hrow'⟩ := hfound hday hlate
          rw [hrow] at hrow'
          cases hrow'
      | some row =>
          obtain ⟨hof, hcommitted⟩ := portfolioRow_some unwritten hrow
          exact phase_writing own (copy_of_select (@growth []) unwritten
            ((mem_selectAll_of_unwritten unwritten).2 hcommitted)) hof decided

/-- What a check has decided once it has read. -/
private theorem decided_read {limit : ℚ} {existing : Option DailyRiskRow}
    (horderly : Orderly (dailyRiskState accounts) Grown table)
    (unwritten : Unwritten t table)
    (hrow : portfolioRow day (selectAll t table) = .ok existing)
    (hcrosses : check.crossed existing limit = true → C)
    (hlate : L → Latched table day) :
    Decided day C L table (planOf str check limit existing) := by
  have hbreached : alreadyBreached existing = true → Latched table day := by
    intro hbreached
    cases existing with
    | none => cases hbreached
    | some row =>
        obtain ⟨hof, hcommitted⟩ := portfolioRow_some unwritten hrow
        exact ⟨row.1, row.2, hcommitted, hof, hbreached⟩
  refine ⟨hcrosses, fun hfailed hnot => ?_, fun hL => ⟨?_, hlate hL⟩⟩
  · refine hbreached ?_
    by_contra hno
    have hpassed : dailyLossResult str check existing limit
        = ⟨"daily_loss_limit", .passed, _⟩ := if_neg (by
      show ¬ (alreadyBreached existing || check.crossed existing limit) = true
      rw [show check.crossed existing limit = false from hnot]
      simpa using hno)
    have hstatus : RiskCheckStatus.passed = .failed :=
      (congrArg RiskCheckResult.status hpassed).symm.trans hfailed
    cases hstatus
  · obtain ⟨row, hrow', hlatched⟩ :=
      portfolioRow_latched horderly unwritten (hlate hL)
    rw [hrow] at hrow'
    cases hrow'
    have hfailed : dailyLossResult str check (some row) limit
        = ⟨"daily_loss_limit", .failed, _⟩ := if_pos (by
      show (row.2.value.breached || _) = true
      rw [hlatched]
      rfl)
    exact congrArg RiskCheckResult.status hfailed

/-- What one statement leaves: an orderly table in which only this check
moved, and the check returned or in a phase. -/
private def Acted (accounts : List Nat) (str : ℚ → String) (day : AccountDay)
    (C L : Prop) (t : Nat) (check : DailyLossCheck)
    (table table' : List (Slot DailyRiskState))
    (prog : DailyRiskSession RiskCheckResult) : Prop :=
  Orderly (dailyRiskState accounts) Grown table' ∧ Moves Grown t table table'
    ∧ Goes str day C L table' t check prog

/-- The first statement reads, and so decides. -/
private theorem acted_begun {limit : ℚ}
    (horderly : Orderly (dailyRiskState accounts) Grown table)
    (limited : check.limit = some limit) (unwritten : Unwritten t table)
    (late : check.day = day → L → Latched table day)
    (hcrosses : ∀ existing, check.day = day →
      portfolioRow day (selectAll t table) = .ok existing →
      check.crossed existing limit = true → C)
    (hstep : (checkDailyLossLimit str check).step (dailyRiskState accounts) t
      table = some (prog', table')) :
    Acted accounts str day C L t check table table' prog' := by
  rw [check_script limited] at hstep
  cases hstep
  refine ⟨horderly, .refl (@growth accounts), ?_⟩
  dsimp only
  cases hrow : portfolioRow check.day (selectAll t table) with
  | error e =>
      refine .inl ⟨_, rfl, fun hday => ⟨nofun, fun hlate => ?_⟩⟩
      obtain ⟨row, hrow', _⟩ := portfolioRow_latched horderly unwritten
        (late hday hlate)
      rw [← hday, hrow] at hrow'
      cases hrow'
  | ok existing =>
      refine .inr (.looking _ rfl unwritten fun hday => ?_)
      subst hday
      exact decided_read horderly unwritten hrow
        (hcrosses existing rfl hrow) fun hlate => late rfl hlate

/-- The insert goes through, or another check's row is in its way. -/
private theorem acted_inserting
    (horderly : Orderly (dailyRiskState accounts) Grown table)
    (own : p.day = check.day) (unwritten : Unwritten t table)
    (first : p.day = day → ¬ L)
    (decided : p.day = day → Decided day C L table p)
    (hstep : p.inserting.step (dailyRiskState accounts) t table
      = some (prog', table')) :
    Acted accounts str day C L t check table table' prog' := by
  obtain ⟨⟨r, table₁⟩, hinsert, heq⟩ := Option.map_eq_some_iff.1 hstep
  cases heq
  cases r with
  | none =>
      rcases insertRow_cases hinsert with ⟨_, rfl⟩ | ⟨hr, _⟩
      · exact ⟨horderly, .refl (@growth accounts),
          .inr (.lookingAgain p own unwritten first decided)⟩
      · cases hr
  | some id =>
      obtain ⟨horderly', hmoves, hwrites⟩ :=
        horderly.insert growth unwritten hinsert
      refine ⟨horderly', hmoves, .inr (phase_writing own ?_ ?_
        fun hday => (decided hday).moves hmoves (fun h => h) fun h => h)⟩
      · exact .inl ((hwrites _).trans (if_pos rfl))
      · exact ⟨rfl, rfl, rfl⟩

/-- An update of the row goes through, or loses the version race and the
check gives up. -/
private theorem acted_update {value : DailyRiskState}
    {k : Bool → DailyRiskSession RiskCheckResult}
    (horderly : Orderly (dailyRiskState accounts) Grown table)
    (own : p.day = check.day) (copy : Copy Grown t table row.1 row.2)
    (hgrown : Grown row.2.value value)
    (decided : p.day = day → Decided day C L table p)
    (hrefused : p.day = day → p.result.status = .failed →
      updateRow t row.1 row.2.version value table = some (false, table) →
      Latched table day)
    (hlost : k false = giveUp p.result)
    (hwon : ∀ table₁, Moves Grown t table table₁ →
      writeOf t table₁ row.1 = some ⟨value, row.2.version + 1⟩ →
      Phase str day C L table₁ t check (k true))
    (hstep : Sql.step (dailyRiskState accounts) t
      (.update row.1 row.2.version value k) table = some (prog', table')) :
    Acted accounts str day C L t check table table' prog' := by
  obtain ⟨⟨r, table₁⟩, hupdate, heq⟩ := Option.map_eq_some_iff.1 hstep
  cases heq
  cases r with
  | true =>
      obtain ⟨horderly', hmoves, hwrites⟩ :=
        horderly.update growth copy hgrown hupdate
      exact ⟨horderly', hmoves,
        .inr (hwon _ hmoves ((hwrites row.1).trans (if_pos rfl)))⟩
  | false =>
      rcases updateRow_cases hupdate with ⟨_, rfl⟩ | ⟨hr, _⟩
      · refine ⟨horderly, .refl (@growth accounts), .inr ?_⟩
        rw [hlost]
        exact .givingUp p own decided fun hday hfailed =>
          hrefused hday hfailed hupdate
      · cases hr

/-- The commit publishes the latch the check wrote. -/
private theorem acted_finishing
    (horderly : Orderly (dailyRiskState accounts) Grown table)
    (own : p.day = check.day)
    (decided : p.day = day → Decided day C L table p)
    (latches : p.day = day → p.crossed = true → Latched table day
      ∨ ∃ i w, writeOf t table i = some w ∧ day.Portfolio w.value
        ∧ w.value.breached = true)
    (hstep : (finish p.result).step (dailyRiskState accounts) t table
      = some (prog', table')) :
    Acted accounts str day C L t check table table' prog' := by
  cases hstep
  have hmoves := horderly.moves_commit (t := t) growth
  refine ⟨horderly.commit, hmoves, .inl ⟨_, rfl, fun hday =>
    ⟨fun result hresult hfailed => ?_, fun hlate => ⟨_, rfl, ?_⟩⟩⟩⟩
  · cases hresult
    cases hcrossed : p.crossed with
    | false =>
        exact ((decided (own.trans hday)).latched hfailed hcrossed).moves hmoves
    | true =>
        rcases latches (own.trans hday) hcrossed with hold | hnew
        · exact hold.moves hmoves
        · obtain ⟨i, w, hwrite, hw⟩ := hnew
          refine ⟨i, w, ?_, hw⟩
          rw [rowAt_commit, hwrite]
          rfl
  · exact ((decided (own.trans hday)).late hlate).1

/-- A check that gives up answers all the same. -/
private theorem acted_givingUp
    (horderly : Orderly (dailyRiskState accounts) Grown table)
    (own : p.day = check.day)
    (decided : p.day = day → Decided day C L table p)
    (latched : p.day = day → p.result.status = .failed → Latched table day)
    (hstep : (giveUp p.result).step (dailyRiskState accounts) t table
      = some (prog', table')) :
    Acted accounts str day C L t check table table' prog' := by
  cases hstep
  have hmoves : Moves Grown t table (table.map (·.rollback t)) :=
    .rollback (@growth accounts)
  refine ⟨horderly.rollback, hmoves, .inl ⟨_, rfl, fun hday =>
    ⟨fun result hresult hfailed => ?_, fun hlate => ⟨_, rfl, ?_⟩⟩⟩⟩
  · cases hresult
    exact (latched (own.trans hday) hfailed).moves hmoves
  · exact ((decided (own.trans hday)).late hlate).1

/-- One statement of a check whose refused writes are heeded. -/
private theorem Phase.acts
    (h : Phase str day C L table t check prog)
    (horderly : Orderly (dailyRiskState accounts) Grown table)
    (hcrosses : ∀ limit existing, check.day = day →
      check.limit = some limit → prog = checkDailyLossLimit str check →
      portfolioRow day (selectAll t table) = .ok existing →
      check.crossed existing limit = true → C')
    (hC : C → C') (hL : L' → L)
    (hheeded : check.day = day → C → ∀ i version value k,
      prog = .update i version value k →
      updateRow t i version value table = some (false, table) →
      Latched table day)
    (hstep : prog.step (dailyRiskState accounts) t table
      = some (prog', table')) :
    Acted accounts str day C' L' t check table table' prog' := by
  -- the phase under the conditions of after the statement
  have hstays : ∀ {p : Plan}, (p.day = day → Decided day C L table p) →
      p.day = day → Decided day C' L' table p :=
    fun decided hday => (decided hday).stay hC hL
  cases h with
  | begun limit limited unwritten late =>
      exact acted_begun horderly limited unwritten
        (fun hday hlate => late hday (hL hlate))
        (fun existing hday => hcrosses limit existing hday limited rfl) hstep
  | looking p own unwritten decided =>
      cases hstep
      refine ⟨horderly, .refl (@growth accounts),
        .inr (goes_lookup horderly own unwritten (hstays decided)
          fun first => ?_)⟩
      exact .inserting p own unwritten first (hstays decided)
  | inserting p own unwritten first decided =>
      exact acted_inserting horderly own unwritten
        (fun hday hlate => first hday (hL hlate)) (hstays decided) hstep
  | lookingAgain p own unwritten first decided =>
      cases hstep
      exact ⟨horderly, .refl (@growth accounts),
        .inr (goes_lookup horderly own unwritten (hstays decided)
          fun hfirst => .failing _ fun hday => hfirst (own.trans hday))⟩
  | writing p row own copy of changes decided =>
      have hprog : p.writing row = .update row.1 row.2.version
          (p.figures row.2.value) _ := if_neg changes
      have hgrown : Grown row.2.value (p.figures row.2.value) :=
        ⟨rfl, rfl, rfl, id⟩
      rw [hprog] at hstep
      refine acted_update horderly own copy hgrown (hstays decided)
        (fun hday hfailed hupdate => (decided hday).latched_of_refused hfailed
          fun hcrossed => hheeded (own.symm.trans hday) hcrossed _ _ _ _ hprog
            hupdate) rfl
        (fun table₁ hmoves hwrite => ?_) hstep
      exact phase_marking own (.inl hwrite) of
        fun hday => (decided hday).moves hmoves hC hL
  | marking p row own copy of marks decided =>
      have hprog : p.marking row = .update row.1 row.2.version
          { row.2.value with breached := true } _ := if_pos marks
      have hgrown : Grown row.2.value { row.2.value with breached := true } :=
        ⟨rfl, rfl, rfl, fun _ => rfl⟩
      rw [hprog] at hstep
      refine acted_update horderly own copy hgrown (hstays decided)
        (fun hday hfailed hupdate => (decided hday).latched_of_refused hfailed
          fun hcrossed => hheeded (own.symm.trans hday) hcrossed _ _ _ _ hprog
            hupdate) rfl
        (fun table₁ hmoves hwrite => ?_) hstep
      exact .finishing p own
        (fun hday => (decided hday).moves hmoves hC hL)
        fun hday _ => .inr ⟨row.1, _, hwrite, hday ▸ of, rfl⟩
  | finishing p own decided latches =>
      exact acted_finishing horderly own (hstays decided) latches hstep
  | givingUp p own decided latched =>
      exact acted_givingUp horderly own (hstays decided) latched hstep
  | failing e first =>
      cases hstep
      exact ⟨horderly.rollback, .rollback (@growth accounts),
        .inl ⟨_, rfl, fun hday => ⟨nofun, fun hlate =>
          absurd (hL hlate) (first hday)⟩⟩⟩

-- ================================================================ runs

/-- Check `t` was past the limit when it read. -/
private def Crossed (accounts : List Nat) (str : ℚ → String)
    (day : AccountDay) (es : List (Server.Event DailyLossCheck)) (t : Nat) :
    Prop :=
  ∃ pre mid, es = pre ++ .acts t :: mid
    ∧ Crosses str (dailyLossChecks accounts str pre) t day

/-- Check `t` was started after a failed check of the day. -/
private def Late (accounts : List Nat) (str : ℚ → String) (day : AccountDay)
    (es : List (Server.Event DailyLossCheck)) (t : Nat) : Prop :=
  ∃ pre mid, es = pre ++ mid ∧ Failed (dailyLossChecks accounts str pre) day
    ∧ (dailyLossChecks accounts str pre).connections.length ≤ t

/-- What holds along a run whose refused writes are heeded. -/
private structure Holds (accounts : List Nat) (str : ℚ → String)
    (day : AccountDay) (es : List (Server.Event DailyLossCheck)) : Prop where
  orderly : Orderly (dailyRiskState accounts) Grown
    (dailyLossChecks accounts str es).table
  phase : ∀ t check prog, (dailyLossChecks accounts str es).Runs t check prog →
    Phase str day (Crossed accounts str day es t) (Late accounts str day es t)
      (dailyLossChecks accounts str es).table t check prog
  gone : ∀ t, (∀ check prog,
      ¬ (dailyLossChecks accounts str es).Runs t check prog) →
    Unwritten t (dailyLossChecks accounts str es).table
  answers : ∀ a ∈ (dailyLossChecks accounts str es).answers,
    a.connection < (dailyLossChecks accounts str es).connections.length
      ∧ (a.job.day = day → Answers day (Late accounts str day es a.connection)
          (dailyLossChecks accounts str es).table a.result)

variable {e : Server.Event DailyLossCheck}

private theorem checks_snoc (es : List (Server.Event DailyLossCheck))
    (e : Server.Event DailyLossCheck) :
    dailyLossChecks accounts str (es ++ [e])
      = Server.step (dailyRiskState accounts) (checkDailyLossLimit str)
          (dailyLossChecks accounts str es) e := Server.run_snoc es e

private theorem Crossed.later (h : Crossed accounts str day es t) :
    Crossed accounts str day (es ++ [e]) t := by
  obtain ⟨pre, mid, rfl, hcrosses⟩ := h
  exact ⟨pre, mid ++ [e], by simp, hcrosses⟩

/-- Whether a check is late is settled when it starts. -/
private theorem Late.earlier (h : Late accounts str day (es ++ [e]) t)
    (ht : t < (dailyLossChecks accounts str es).connections.length) :
    Late accounts str day es t := by
  obtain ⟨pre, mid, hsplit, hfailed, hlength⟩ := h
  rcases List.eq_nil_or_concat mid with rfl | ⟨mid, last, rfl⟩
  · have hpre : pre = es ++ [e] := by simpa using hsplit.symm
    have hgrows : (dailyLossChecks accounts str es).connections.length
        ≤ (dailyLossChecks accounts str (es ++ [e])).connections.length := by
      rw [checks_snoc]
      exact Server.connections_step e
    rw [hpre] at hlength
    omega
  · rw [List.concat_eq_append, ← List.append_assoc] at hsplit
    exact ⟨pre, mid, (List.append_inj' hsplit rfl).1, hfailed, hlength⟩

/-- A check of the day that failed left it latched. -/
private theorem Holds.latched (h : Holds accounts str day es)
    (hfailed : Failed (dailyLossChecks accounts str es) day) :
    Latched (dailyLossChecks accounts str es).table day := by
  obtain ⟨a, ha, hday, result, hresult, hstatus⟩ := hfailed
  exact ((h.answers a ha).2 hday).latched result hresult hstatus

/-- A check started now is late only if one of the day has failed. -/
private theorem Late.failed
    (h : Late accounts str day (es ++ [.start check])
      (dailyLossChecks accounts str es).connections.length) :
    Failed (dailyLossChecks accounts str es) day := by
  obtain ⟨pre, mid, hsplit, hfailed, hlength⟩ := h
  rcases List.eq_nil_or_concat mid with rfl | ⟨mid, last, rfl⟩
  · have hpre : pre = es ++ [.start check] := by simpa using hsplit.symm
    rw [hpre, checks_snoc, Server.connections_start] at hlength
    omega
  · rw [List.concat_eq_append, ← List.append_assoc] at hsplit
    have hes : es = pre ++ mid := (List.append_inj' hsplit rfl).1
    obtain ⟨a, ha, hday⟩ := hfailed
    refine ⟨a, ?_, hday⟩
    rw [hes, dailyLossChecks, Server.run_append]
    exact (Server.answers_run mid).subset ha

/-- An event in which only check `t` moves. -/
private theorem Holds.next (h : Holds accounts str day es) (t : Nat)
    (horderly : Orderly (dailyRiskState accounts) Grown
      (dailyLossChecks accounts str (es ++ [e])).table)
    (hmoves : Moves Grown t (dailyLossChecks accounts str es).table
      (dailyLossChecks accounts str (es ++ [e])).table)
    (hother : ∀ u, u ≠ t → ∀ check prog,
      (dailyLossChecks accounts str (es ++ [e])).Runs u check prog
        ↔ (dailyLossChecks accounts str es).Runs u check prog)
    (hphase : ∀ check prog,
      (dailyLossChecks accounts str (es ++ [e])).Runs t check prog →
      Phase str day (Crossed accounts str day (es ++ [e]) t)
        (Late accounts str day (es ++ [e]) t)
        (dailyLossChecks accounts str (es ++ [e])).table t check prog)
    (hgone : (∀ check prog,
        ¬ (dailyLossChecks accounts str (es ++ [e])).Runs t check prog) →
      Unwritten t (dailyLossChecks accounts str (es ++ [e])).table)
    (hanswers : ∀ a ∈ (dailyLossChecks accounts str (es ++ [e])).answers,
      a ∈ (dailyLossChecks accounts str es).answers ∨ a.connection = t
        ∧ t < (dailyLossChecks accounts str (es ++ [e])).connections.length
        ∧ (a.job.day = day →
          Answers day (Late accounts str day (es ++ [e]) t)
            (dailyLossChecks accounts str (es ++ [e])).table a.result)) :
    Holds accounts str day (es ++ [e]) := by
  refine ⟨horderly, fun u check prog hrun => ?_, fun u hnot => ?_,
    fun a ha => ?_⟩
  · by_cases hu : u = t
    · subst hu
      exact hphase check prog hrun
    · have hold := (hother u hu check prog).1 hrun
      exact (h.phase u check prog hold).stable hu hmoves Crossed.later
        fun hlate => hlate.earlier (Server.runs_lt hold)
  · by_cases hu : u = t
    · subst hu
      exact hgone hnot
    · refine (h.gone u fun check prog hrun => ?_).moves hu hmoves
      exact hnot check prog ((hother u hu check prog).2 hrun)
  · rcases hanswers a ha with hold | ⟨rfl, hlt, hnew⟩
    · obtain ⟨hlt, hanswer⟩ := h.answers a hold
      refine ⟨?_, fun hday => ⟨fun result hresult hfailed => ?_,
        fun hlate => ?_⟩⟩
      · rw [checks_snoc]
        exact Nat.lt_of_lt_of_le hlt (Server.connections_step e)
      · exact ((hanswer hday).latched result hresult hfailed).moves hmoves
      · exact (hanswer hday).late (hlate.earlier hlt)
    · exact ⟨hlt, hnew⟩

/-- An event that does nothing. -/
private theorem Holds.still (h : Holds accounts str day es)
    (hstep : dailyLossChecks accounts str (es ++ [e])
      = dailyLossChecks accounts str es) :
    Holds accounts str day (es ++ [e]) := by
  refine h.next (dailyLossChecks accounts str es).connections.length ?_ ?_
    (fun u _ c p => by rw [hstep]) (fun c p hrun => ?_) (fun _ => ?_)
    fun a ha => .inl (hstep ▸ ha)
  · rw [hstep]
    exact h.orderly
  · rw [hstep]
    exact .refl (@growth accounts)
  · rw [hstep] at hrun
    exact absurd (Server.runs_lt hrun) (Nat.lt_irrefl _)
  · rw [hstep]
    exact h.gone _ fun c p hrun =>
      Nat.lt_irrefl _ (Server.runs_lt hrun)

/-- A check under way has something left to do. -/
private theorem Phase.left (h : Phase str day C L table t check prog)
    (r : Except Exc RiskCheckResult) : prog ≠ .done r := by
  cases h with
  | begun limit limited unwritten late =>
      rw [check_script limited]
      exact nofun
  | writing p row own copy of changes decided =>
      have hprog : p.writing row = .update _ _ _ _ := if_neg changes
      rw [hprog]
      exact nofun
  | marking p row own copy of marks decided =>
      have hprog : p.marking row = .update _ _ _ _ := if_pos marks
      rw [hprog]
      exact nofun
  | _ => exact nofun

/-- Check `t` goes on, or returns. -/
private theorem Holds.proceeds {s₀ : DailyLossChecks}
    (h : Holds accounts str day es)
    (hstep : dailyLossChecks accounts str (es ++ [e])
      = s₀.proceed t check prog table)
    (ht : t < s₀.connections.length)
    (hothers : ∀ u, u ≠ t → ∀ c p, s₀.Runs u c p
      ↔ (dailyLossChecks accounts str es).Runs u c p)
    (hanswers : s₀.answers = (dailyLossChecks accounts str es).answers)
    (horderly : Orderly (dailyRiskState accounts) Grown table)
    (hmoves : Moves Grown t (dailyLossChecks accounts str es).table table)
    (hgoes : Goes str day (Crossed accounts str day (es ++ [e]) t)
      (Late accounts str day (es ++ [e]) t) table t check prog) :
    Holds accounts str day (es ++ [e]) := by
  have hother : ∀ u, u ≠ t → ∀ c p,
      (dailyLossChecks accounts str (es ++ [e])).Runs u c p
        ↔ (dailyLossChecks accounts str es).Runs u c p := by
    intro u hu c p
    rw [hstep]
    exact (Server.runs_proceed_other hu).trans (hothers u hu c p)
  rcases hgoes with ⟨r, rfl, hr⟩ | hphase
  · rw [Server.proceed_done] at hstep
    have hrollback : Moves Grown t table (table.map (·.rollback t)) :=
      .rollback (@growth accounts)
    refine h.next t ?_ ?_ hother (fun c p hrun => ?_) (fun _ i => ?_)
      fun a ha => ?_
    · rw [hstep]
      exact horderly.rollback
    · rw [hstep]
      exact hmoves.trans (@growth accounts) hrollback
    · rw [hstep] at hrun
      simp [Server.Runs, ht] at hrun
    · rw [hstep, writeOf_rollback, if_pos rfl]
    · rw [hstep] at ha ⊢
      rcases List.mem_append.1 ha with hold | hnew
      · exact .inl (hanswers ▸ hold)
      · obtain rfl := List.mem_singleton.1 hnew
        refine .inr ⟨rfl, by simpa using ht, fun hday => ⟨?_, (hr hday).late⟩⟩
        intro result hresult hfailed
        exact ((hr hday).latched result hresult hfailed).moves hrollback
  · rw [Server.proceed_open hphase.left] at hstep
    have hself : (dailyLossChecks accounts str (es ++ [e])).Runs t check
        prog := by
      rw [hstep]
      simp [Server.Runs, ht]
    refine h.next t ?_ ?_ hother (fun c p hrun => ?_)
      (fun hnot => absurd hself (hnot check prog)) fun a ha => ?_
    · rw [hstep]
      exact horderly
    · rw [hstep]
      exact hmoves
    · have hsame := Option.some.inj (hself.symm.trans hrun)
      cases hsame
      rw [hstep]
      exact hphase
    · rw [hstep] at ha
      exact .inl (hanswers ▸ ha)

/-- A check is started. -/
private theorem Holds.start (h : Holds accounts str day es)
    (hlimited : check.day = day →
      Failed (dailyLossChecks accounts str es) day → check.limit ≠ none) :
    Holds accounts str day (es ++ [.start check]) := by
  have hnew : ∀ c p, ¬ (dailyLossChecks accounts str es).Runs
      (dailyLossChecks accounts str es).connections.length c p :=
    fun c p hrun => Nat.lt_irrefl _ (Server.runs_lt hrun)
  refine h.proceeds (checks_snoc es _) (by simp) (fun u hu c p => ?_) rfl
    h.orderly (.refl (@growth accounts)) ?_
  · refine ⟨fun hrun => ?_, fun hrun => ?_⟩
    · have hlt := Server.runs_lt hrun
      rw [List.length_append, List.length_singleton] at hlt
      unfold Server.Runs at hrun ⊢
      rwa [List.getElem?_append_left (by omega)] at hrun
    · unfold Server.Runs at hrun ⊢
      rwa [List.getElem?_append_left (Server.runs_lt hrun)]
  · cases hlimit : check.limit with
    | none =>
        have hscript : checkDailyLossLimit str check
            = .done (.ok ⟨"daily_loss_limit", .passed,
              "no daily loss limit configured"⟩) := by
          unfold checkDailyLossLimit
          rw [hlimit]
          rfl
        refine .inl ⟨_, hscript, fun hday => ⟨fun result hresult hfailed => ?_,
          fun hlate => absurd hlimit (hlimited hday hlate.failed)⟩⟩
        cases hresult
        cases hfailed
    | some limit =>
        exact .inr (.begun limit hlimit (h.gone _ hnew)
          fun _ hlate => h.latched hlate.failed)

/-- A check goes on. -/
private theorem Holds.acts (h : Holds accounts str day es)
    (hheeded : Heeded accounts str day (es ++ [.acts t])) :
    Holds accounts str day (es ++ [.acts t]) := by
  have hstep : dailyLossChecks accounts str (es ++ [.acts t]) = _ :=
    checks_snoc es (.acts t)
  by_cases hrun : ∃ check prog,
      (dailyLossChecks accounts str es).Runs t check prog
  · obtain ⟨check, prog, hrun⟩ := hrun
    rw [Server.step_acts hrun] at hstep
    cases hnext : prog.step (dailyRiskState accounts) t
        (dailyLossChecks accounts str es).table with
    | none =>
        rw [hnext] at hstep
        exact h.still hstep
    | some x =>
        obtain ⟨prog', table'⟩ := x
        rw [hnext] at hstep
        have hcrosses : ∀ limit existing, check.day = day →
            check.limit = some limit → prog = checkDailyLossLimit str check →
            portfolioRow day (selectAll t
              (dailyLossChecks accounts str es).table) = .ok existing →
            check.crossed existing limit = true →
            Crossed accounts str day (es ++ [.acts t]) t := by
          intro limit existing hday hlimit hprog hrow hcrossed
          exact ⟨es, [], rfl, check, limit, existing, hday, hlimit,
            hprog ▸ hrun, hrow, hcrossed⟩
        have hwritten : check.day = day → Crossed accounts str day es t →
            ∀ i version value k, prog = .update i version value k →
            updateRow t i version value
                (dailyLossChecks accounts str es).table
              = some (false, (dailyLossChecks accounts str es).table) →
            Latched (dailyLossChecks accounts str es).table day := by
          intro _ hcrossed i version value k hprog hupdate
          obtain ⟨pre, mid, rfl, hread⟩ := hcrossed
          refine hheeded.written pre t mid [] rfl hread ?_
          unfold OutOfDate
          rw [show _ = some _ from hrun, hprog]
          exact hupdate
        obtain ⟨horderly, hmoves, hgoes⟩ := (h.phase t check prog hrun).acts
          h.orderly hcrosses Crossed.later
          (fun hlate : Late accounts str day (es ++ [.acts t]) t =>
            hlate.earlier (Server.runs_lt hrun)) hwritten hnext
        exact h.proceeds hstep (Server.runs_lt hrun)
          (fun _ _ _ _ => Iff.rfl) rfl horderly hmoves hgoes
  · rw [Server.step_acts_gone fun c p hc => hrun ⟨c, p, hc⟩] at hstep
    exact h.still hstep

/-- A check is cut off. -/
private theorem Holds.cutOff (h : Holds accounts str day es) :
    Holds accounts str day (es ++ [.cutOff t]) := by
  have hstep : dailyLossChecks accounts str (es ++ [.cutOff t]) = _ :=
    checks_snoc es (.cutOff t)
  by_cases hrun : ∃ check prog,
      (dailyLossChecks accounts str es).Runs t check prog
  · obtain ⟨check, prog, hrun⟩ := hrun
    have hlt := Server.runs_lt hrun
    rw [Server.step_cutOff hrun] at hstep
    have hself : ∀ c p,
        ¬ (dailyLossChecks accounts str (es ++ [.cutOff t])).Runs t c p := by
      intro c p hc
      rw [hstep] at hc
      simp [Server.Runs, hlt] at hc
    refine h.next t ?_ ?_ (fun u hu c p => ?_)
      (fun c p hc => absurd hc (hself c p)) (fun _ i => ?_)
      fun a ha => .inl ?_
    · rw [hstep]
      exact h.orderly.rollback
    · rw [hstep]
      exact .rollback (@growth accounts)
    · rw [hstep]
      simp [Server.Runs, List.getElem?_set_ne (Ne.symm hu)]
    · rw [hstep, writeOf_rollback, if_pos rfl]
    · rw [hstep] at ha
      exact ha
  · rw [Server.step_cutOff_gone fun c p hc => hrun ⟨c, p, hc⟩] at hstep
    exact h.still hstep

private theorem Heeded.earlier (h : Heeded accounts str day (es ++ [e])) :
    Heeded accounts str day es where
  written pre t mid post hes := h.written pre t mid (post ++ [e]) (by
    rw [hes, List.append_assoc _ _ [e], List.cons_append])
  limited pre check post hes := h.limited pre check (post ++ [e]) (by
    rw [hes, List.append_assoc, List.cons_append])

private theorem holds_checks (h : Heeded accounts str day es) :
    Holds accounts str day es := by
  induction es using List.reverseRecOn with
  | nil =>
      refine ⟨orderly_nil, fun t c p hrun => ?_, fun t _ i => rfl,
        fun a ha => ?_⟩
      · exact absurd (Server.runs_lt hrun) (Nat.not_lt_zero t)
      · cases ha
  | append_singleton es e ih =>
      have hes := ih h.earlier
      cases e with
      | start check =>
          exact hes.start (h.limited es check [] rfl)
      | acts t => exact hes.acts h
      | cutOff t => exact hes.cutOff

/-- Where the refused write of a check past the limit finds the row
latched, a daily-loss breach is sticky. -/
theorem sticky_of_heeded (h : Heeded accounts str day es) :
    Sticky accounts str day es := by
  intro pre mid hes hfailed a ha hday hlate
  exact (((holds_checks h).answers a ha).2 hday).late
    ⟨pre, mid, hes, hfailed, hlate⟩

-- ============================================================= samples

/-- The day of both sample runs. -/
def sampleDay : AccountDay := ⟨1, ⟨2025, 1, 7, by decide⟩⟩

/-- A check of that day under the usual limit. -/
def sampleCheck (realized : ℚ) : DailyLossCheck :=
  ⟨sampleDay, some 25000, realized⟩

/-- Who was answered what: the connection and the status. -/
def outcomes (s : DailyLossChecks) : List (Nat × DailyLossCheck
    × Option RiskCheckStatus) :=
  s.answers.map fun a =>
    (a.connection, a.job, a.result.toOption.map (·.status))

/-- What a list of outcomes says of a check. -/
private theorem answer_of_outcome {n : Nat} {status : RiskCheckStatus}
    (h : (n, check, some status) ∈ outcomes s) :
    ∃ a ∈ s.answers, a.connection = n ∧ a.job = check
      ∧ ∃ result, a.result = .ok result ∧ result.status = status := by
  obtain ⟨⟨connection, job, result⟩, ha, heq⟩ := List.mem_map.1 h
  cases result with
  | error e => cases heq
  | ok result =>
      cases heq
      exact ⟨_, ha, rfl, rfl, result, rfl, rfl⟩

private theorem failed_of_outcome {n : Nat}
    (h : (n, check, some .failed) ∈ outcomes s) : Failed s check.day := by
  obtain ⟨a, ha, _, rfl, hresult⟩ := answer_of_outcome h
  exact ⟨a, ha, rfl, hresult⟩

/-- A check without a loss creates the row; the next is past the limit and
has looked the row up when a third, after a gain, writes its figures
first. -/
def overtaken : List (Server.Event DailyLossCheck) :=
  [.start (sampleCheck 0), .acts 0, .acts 0, .acts 0, .acts 0,
    .start (sampleCheck (-30000)), .acts 1, .acts 1,
    .start (sampleCheck (-1000)), .acts 2, .acts 2, .acts 2, .acts 2,
    .acts 1, .acts 1]

/-- Check `t`, started after the gain. -/
def checkedAfter (t : Nat) : List (Server.Event DailyLossCheck) :=
  [.start (sampleCheck (-1000)), .acts t, .acts t, .acts t, .acts t]

/-- The failed check leaves no latch, and the check after it passes. -/
theorem breach_forgotten :
    ¬ ∀ (accounts : List Nat) (str : ℚ → String) (day : AccountDay)
        (es : List (Server.Event DailyLossCheck)),
      Sticky accounts str day es := by
  intro h
  have hsecond : (1, sampleCheck (-30000), some RiskCheckStatus.failed)
      ∈ outcomes (dailyLossChecks [1] (fun _ => "") overtaken) := by
    decide +kernel
  have hfourth : (3, sampleCheck (-1000), some RiskCheckStatus.passed)
      ∈ outcomes (dailyLossChecks [1] (fun _ => "")
        (overtaken ++ checkedAfter 3)) := by decide +kernel
  obtain ⟨a, ha, hthree, hjob, result, hresult, hpassed⟩ :=
    answer_of_outcome hfourth
  have hlate : (dailyLossChecks [1] (fun _ => "")
      overtaken).connections.length ≤ a.connection := by
    rw [hthree]
    decide +kernel
  obtain ⟨result', hresult', hstatus⟩ :=
    h [1] (fun _ => "") sampleDay _ overtaken (checkedAfter 3) rfl
      (failed_of_outcome hsecond) a ha (hjob ▸ rfl) hlate
  rw [hresult] at hresult'
  cases hresult'
  rw [hpassed] at hstatus
  cases hstatus

/-- The first two checks one after the other. -/
def inTurn : List (Server.Event DailyLossCheck) :=
  [.start (sampleCheck 0), .acts 0, .acts 0, .acts 0, .acts 0,
    .start (sampleCheck (-30000)), .acts 1, .acts 1, .acts 1, .acts 1, .acts 1]

/-- One after the other, the check after the gain fails too. -/
theorem sticky_sample :
    Failed (dailyLossChecks [1] (fun _ => "") inTurn) sampleDay
      ∧ Sticky [1] (fun _ => "") sampleDay (inTurn ++ checkedAfter 2) := by
  have hsecond : (1, sampleCheck (-30000), some RiskCheckStatus.failed)
      ∈ outcomes (dailyLossChecks [1] (fun _ => "") inTurn) := by
    decide +kernel
  have huptodate : ∀ k < 16, ∀ t < 3, ¬ OutOfDate (dailyLossChecks [1]
      (fun _ => "") ((inTurn ++ checkedAfter 2).take k)) t := by
    decide +kernel
  refine ⟨failed_of_outcome hsecond, sticky_of_heeded
    ⟨fun pre t mid post hes _ hstale => ?_,
      fun pre check post hes _ _ hlimit => ?_⟩⟩
  · have hpre : (inTurn ++ checkedAfter 2).take
        (pre ++ .acts t :: mid).length = pre ++ .acts t :: mid := by
      rw [hes, List.take_left]
    have hmem : .acts t ∈ inTurn ++ checkedAfter 2 := by
      rw [hes]
      simp
    have ht : t < 3 := by
      simp [inTurn, checkedAfter] at hmem
      omega
    have hlength := congrArg List.length hes
    simp [inTurn, checkedAfter] at hlength
    rw [← hpre] at hstale
    exact absurd hstale (huptodate _ (by simp; omega) t ht)
  · have hmem : .start check ∈ inTurn ++ checkedAfter 2 := by
      rw [hes]
      simp
    simp [inTurn, checkedAfter] at hmem
    rcases hmem with rfl | rfl | rfl <;> cases hlimit

end AlgoPlatform.RiskCore
