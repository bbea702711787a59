/-
The trade history says what became of positions, and says it once.

# In every interleaving

Recorders and backfills run beside the writers of the platform and beside
each other, each cut off anywhere. A row is written for a CLOSED position
only, and CLOSED is final, so a row stays a record of a completed trade
of its instance and day (`history_describes`).

# Backfill

A backfill that is left alone completes the table: afterwards a CLOSED
position without a row is one whose row does not fit its columns, and
another backfill writes nothing (`backfill_completes`).
-/
import AlgoPlatform.Model.TradeHistory
import AlgoPlatform.Proofs.Finality

open Basis

namespace AlgoPlatform

-- =========================================================== the archive

/-- The rows of the platform. -/
def Archive.tables (a : Archive) : Rows := a.world.db.rows

/-- The row is of a completed trade. -/
def TradeHistory.Describes (row : TradeHistory) (r : Rows) : Prop :=
  ∃ p : Position, r.positions[row.positionId]? = some p ∧ p.state = .closed
    ∧ p.origin = (row.strategyInstanceId, row.tradeDate)

/-- Every row is. -/
def Archive.Sound (a : Archive) : Prop :=
  ∀ row ∈ a.history.rows, row.Describes a.tables

/-- What an act does to the archive: the tables keep their chart, and the
history is added to, about completed trades. -/
structure Archive.Extends (a a' : Archive) : Prop where
  tables : Accrues a.tables a'.tables
  charts : Charts a.tables a'.tables
  history : a.history.rows <+: a'.history.rows
  added : Charted a.tables → ∀ row ∈ a'.history.rows,
    row ∈ a.history.rows ∨ row.Describes a'.tables

/-- A completed trade stays one. -/
theorem TradeHistory.Describes.kept {row : TradeHistory} {r r' : Rows}
    (h : row.Describes r) (hr : Charted r) (haccrues : Accrues r r')
    (hcharts : Charts r r') : row.Describes r' := by
  obtain ⟨p, hp, hclosed, horigin⟩ := h
  obtain ⟨q, hq, hsame, hclosed'⟩ := haccrues.closed hr (hcharts hr) hp hclosed
  exact ⟨q, hq, hclosed', hsame.trans horigin⟩

instance : Prog.Frame Archive.Extends where
  refl := fun a => ⟨Session.Frame.refl _, id, List.prefix_refl _,
    fun _ _ hrow => .inl hrow⟩
  trans := by
    intro a b c h h'
    refine ⟨Session.Frame.trans h.tables h'.tables, h'.charts ∘ h.charts,
      h.history.trans h'.history, fun ha row hrow => ?_⟩
    rcases h'.added (h.charts ha) row hrow with hold | hnew
    · exact (h.added ha row hold).imp_right fun hdescribes =>
        hdescribes.kept (h.charts ha) h'.tables h'.charts
    · exact .inr hnew

/-- The history is sound at the end if it was at the start. -/
theorem Archive.Extends.sound {a a' : Archive} (h : a.Extends a')
    (ha : Charted a.tables) (hsound : a.Sound) : a'.Sound := by
  intro row hrow
  rcases h.added ha row hrow with hold | hnew
  · exact (hsound row hold).kept ha h.tables h.charts
  · exact hnew

/-- An act of the platform leaves the history alone. -/
private theorem extends_of_tables {a : Archive} {w : World}
    (haccrues : Accrues a.tables w.db.rows) (hcharts : Charts a.tables w.db.rows) :
    a.Extends { a with world := w } :=
  ⟨haccrues, hcharts, List.prefix_refl _, fun _ _ hrow => .inl hrow⟩

/-- The environment's turn. -/
private theorem extends_interfere (a : Archive) (m : Move) :
    a.Extends { a with world := a.world.interfere m } :=
  extends_of_tables (waits_interfere a.world m).rows
    (waits_interfere a.world m).rows

-- ============================================================ the threads

/-- What runs on the archive: a writer of the platform, the recording of
an exit that was finalized, the backfill command. -/
inductive HistoryJob
  | platform (writer : Writer)
  | record (mode : Option String) (positionId : Nat)
  | backfill (dryRun : Bool)

/-- The program of a job. -/
def HistoryJob.program (reconciler : Option PositionReconciler) :
    HistoryJob → HistoryProgram Unit
  | .platform writer => HistoryProgram.ofPlatform (writer.program reconciler)
  | .record mode positionId => recordClosedPosition mode positionId
  | .backfill dryRun => discard (BackfillTradeHistory.run dryRun)

/-- A unit of work that adds rows about completed trades. -/
private theorem along_history {α : Type}
    {body : HistoryColumns → List Nat → Rows → HistoryTable →
      Except Exc (α × HistoryTable)}
    (hbody : ∀ columns scan r t x t', body columns scan r t = .ok (x, t') →
      t.rows <+: t'.rows ∧ ∀ row ∈ t'.rows, row ∈ t.rows ∨ row.Describes r) :
    (HistoryProgram.unitOfWork body).Along Archive.Extends := by
  refine Prog.along_atomic fun m a => ?_
  have hturn := extends_interfere a m.toMove
  dsimp only
  cases m.toMove.fault with
  | some fault => exact hturn
  | none =>
      dsimp only
      cases hrun : body m.columns m.toMove.scan
          (a.world.interfere m.toMove).db.rows a.history with
      | error e => exact hturn
      | ok x =>
          obtain ⟨hgrown, hadded⟩ := hbody _ _ _ _ _ _ hrun
          exact Prog.Frame.trans hturn
            ⟨Session.Frame.refl _, id, hgrown, fun _ => hadded⟩

/-- The insert adds its row, or raises. -/
private theorem insert_rows {t t' : HistoryTable} {row : TradeHistory}
    (h : TradeHistoryRepository.insert t row = .ok t') :
    t'.rows = t.rows ++ [row] := by
  unfold TradeHistoryRepository.insert at h
  split_ifs at h
  cases h
  rfl

/-- `add_if_absent` adds its row, or nothing. -/
theorem addIfAbsent_rows {t t' : HistoryTable} {row : TradeHistory} {x : Bool}
    (h : TradeHistoryRepository.addIfAbsent t row = .ok (x, t')) :
    t'.rows = if x then t.rows ++ [row] else t.rows := by
  unfold TradeHistoryRepository.addIfAbsent at h
  cases hfound : TradeHistoryRepository.getByPositionId t row.positionId with
  | some _ =>
      rw [hfound] at h
      cases h
      rfl
  | none =>
      rw [hfound] at h
      cases hinsert : TradeHistoryRepository.insert t row with
      | ok t'' =>
          rw [hinsert] at h
          cases h
          exact insert_rows hinsert
      | error e =>
          rw [hinsert] at h
          cases e <;> cases h

/-- `_record` adds the row of a CLOSED position, or nothing. -/
theorem record_rows {mode : Option String} {columns : HistoryColumns}
    {scan : List Nat} {r : Rows} {positionId : Nat} {t t' : HistoryTable}
    {x : Bool}
    (h : TradeHistoryRecorder.record mode columns scan r positionId t
      = .ok (x, t')) :
    t'.rows = t.rows ∨ ∃ p : Position, r.positions[positionId]? = some p
      ∧ p.state = .closed ∧ t'.rows = t.rows
        ++ [TradeHistoryRecorder.buildRow mode columns scan r positionId p] := by
  unfold TradeHistoryRecorder.record at h
  cases hfound : TradeHistoryRepository.getByPositionId t positionId with
  | some _ =>
      rw [hfound] at h
      cases h
      exact .inl rfl
  | none =>
      rw [hfound] at h
      cases hp : r.positions[positionId]? with
      | none =>
          rw [hp] at h
          cases h
          exact .inl rfl
      | some p =>
          rw [hp] at h
          dsimp only at h
          split_ifs at h with hclosed
          · have hrows := addIfAbsent_rows h
            cases x
            · exact .inl hrows
            · exact .inr ⟨p, rfl, hclosed, hrows⟩
          · cases h
            exact .inl rfl

theorem along_recordClosedPosition (mode : Option String) (positionId : Nat) :
    (recordClosedPosition mode positionId).Along Archive.Extends := by
  refine Prog.along_tryCatch (Prog.along_bind (along_history ?_)
    fun _ => Prog.along_pure _) fun _ => Prog.along_pure _
  intro columns scan r t x t' h
  rcases record_rows h with hsame | ⟨p, hp, hclosed, hadded⟩
  · rw [hsame]
    exact ⟨List.prefix_refl _, fun _ hrow => .inl hrow⟩
  · rw [hadded]
    refine ⟨List.prefix_append _ _, fun row hrow => ?_⟩
    refine (List.mem_append.1 hrow).imp_right fun hnew => ?_
    rw [List.mem_singleton.1 hnew]
    exact ⟨p, hp, hclosed, rfl⟩

/-- A session that only reads. -/
private theorem along_lookups {α : Type}
    {f : HistoryColumns → List Nat → Rows → HistoryTable → α} :
    (HistoryProgram.unitOfWork fun columns scan r t =>
      .ok (f columns scan r t, t)).Along Archive.Extends := by
  refine along_history fun columns scan r t x t' h => ?_
  cases h
  exact ⟨List.prefix_refl _, fun _ hrow => .inl hrow⟩

private theorem along_backfillEach (ids : List Nat) :
    (BackfillTradeHistory.each ids).Along Archive.Extends := by
  induction ids with
  | nil => exact Prog.along_pure _
  | cons id ids ih =>
      refine Prog.along_bind along_lookups fun before => ?_
      refine Prog.along_bind (along_recordClosedPosition none id) fun _ => ?_
      refine Prog.along_bind (Prog.along_ite (Prog.along_pure _) along_lookups)
        fun new => ?_
      exact Prog.along_bind ih fun _ => Prog.along_pure _

/-- Every act of every job extends the archive. -/
private theorem along_extends {reconciler : Option PositionReconciler}
    (hseam : ∀ s ∈ reconciler, s.Disciplined) (job : HistoryJob) :
    (job.program reconciler).Along Archive.Extends := by
  cases job with
  | platform writer =>
      exact Prog.along_zoom
        ((along_accrues hseam writer).and
          (along_charts (fun s hs => (hseam s hs).documented) writer))
        fun a w h => extends_of_tables h.1 h.2
  | record mode positionId => exact along_recordClosedPosition mode positionId
  | backfill dryRun =>
      refine Prog.along_discard (Prog.along_bind along_lookups fun ids => ?_)
      cases dryRun with
      | true => exact Prog.along_pure _
      | false => exact along_backfillEach ids

/-- The archive after a run. -/
def Archive.after (reconciler : Option PositionReconciler) (a : Archive)
    (es : List (Pool.Event HistoryJob HistoryMove)) : Archive :=
  (Pool.run (HistoryJob.program reconciler) (Pool.idle a) es).state

/-- In every interleaving of the writers, the recorders and the
backfills, each cut off anywhere, the history is only added to, between
any two moments of the run; it has one row a position, and every row of it
is of a position that is CLOSED, of that instance and day. -/
theorem history_describes {reconciler : Option PositionReconciler}
    (hseam : ∀ s ∈ reconciler, s.Disciplined) {a : Archive}
    (hcharted : Charted a.tables) (hsound : a.Sound)
    (es : List (Pool.Event HistoryJob HistoryMove)) :
    a.history.rows <+: (a.after reconciler es).history.rows
      ∧ (∀ es', (a.after reconciler es).history.rows
        <+: (a.after reconciler (es ++ es')).history.rows)
      ∧ ((a.after reconciler es).history.rows.map (·.positionId)).Nodup
      ∧ (a.after reconciler es).Sound := by
  have hbetween : ∀ es es', (a.after reconciler es).Extends
      (a.after reconciler (es ++ es')) :=
    Pool.run_along_between (p := Pool.idle a) (along_extends hseam)
      fun _ ht => nomatch ht
  have hextends : a.Extends (a.after reconciler es) := hbetween [] es
  exact ⟨hextends.history, fun es' => (hbetween es es').history,
    (a.after reconciler es).history.onePerPosition,
    hextends.sound hcharted hsound⟩

namespace SampleDay

/-- No times, and an account without a name. -/
def noColumns : HistoryColumns where
  entryCompletedAt := fun _ => none
  exitCompletedAt := fun _ => none
  entrySignalTime := fun _ => none
  exitSignalTime := fun _ => none
  displayName := fun _ => none

/-- A job, and the moves its thread gets to see. -/
def startActs (i : Nat) (job : HistoryJob) (moves : List Move) :
    List (Pool.Event HistoryJob HistoryMove) :=
  .start job :: moves.map fun m => .acts i ⟨m, noColumns⟩

/-- The entry and the exit of the day, and then the recording of it. -/
def recordedDay : List (Pool.Event HistoryJob HistoryMove) :=
  startActs 0 (.platform (.strategy SampleDay.ctx entry.job)) entry.moves
    ++ startActs 1 (.platform (.strategy SampleDay.ctx exit.job)) exit.moves
    ++ startActs 2 (.record (some "PAPER") 0) [still]

theorem history_describes_recordedDay :
    ((Archive.after (some seam) ⟨morning, {}⟩ recordedDay).history.rows.map
        fun row => (row.positionId, row.exitReason, row.profitPercent))
      = [(0, some .target, some 50)]
      ∧ (Archive.after (some seam) ⟨morning, {}⟩ recordedDay).Sound := by
  refine ⟨by decide +kernel, ?_⟩
  exact (history_describes seam_disciplined (charted_of_empty rfl)
    (fun _ hrow => absurd hrow List.not_mem_nil) recordedDay).2.2.2

end SampleDay

-- ============================================================= backfill

/-- Nothing happens beside the act, and it finds these columns. -/
structure HistoryMove.Quiet (columns : HistoryColumns) (m : HistoryMove) :
    Prop where
  toMove : m.toMove.Quiet
  columns : m.columns = columns

/-- The position is CLOSED, and its row fits the table. -/
def Fillable (columns : HistoryColumns) (r : Rows) (id : Nat) : Prop :=
  ∃ p : Position, r.positions[id]? = some p ∧ p.state = .closed
    ∧ (TradeHistoryRecorder.buildRow none columns [] r id p).Fits

/-- There is a row for the position. -/
def HistoryTable.Has (t : HistoryTable) (id : Nat) : Prop :=
  id ∈ t.rows.map (·.positionId)

open TradeHistoryRecorder TradeHistoryRepository

variable {columns : HistoryColumns} {scan : List Nat} {r : Rows} {id : Nat}
  {t t' : HistoryTable}

/-- Whether a row fits does not depend on the order rows are read in. -/
private theorem fits_scan {p : Position} :
    (buildRow none columns scan r id p).Fits
      ↔ (buildRow none columns [] r id p).Fits :=
  ⟨fun h => ⟨h.holdingSeconds, h.holdingMinutes, h.pnlPerShare, h.profitPercent⟩,
    fun h => ⟨h.holdingSeconds, h.holdingMinutes, h.pnlPerShare, h.profitPercent⟩⟩

private theorem getByPositionId_eq_none :
    getByPositionId t id = none ↔ ¬ t.Has id := by
  unfold getByPositionId HistoryTable.Has
  rw [List.find?_eq_none]
  simp

private theorem isSome_getByPositionId :
    (getByPositionId t id).isSome = true ↔ t.Has id := by
  rw [← not_iff_not, ← getByPositionId_eq_none, Bool.not_eq_true,
    Option.isSome_eq_false_iff, Option.isNone_iff_eq_none]

/-- What `record_closed_position` leaves of the table. -/
private def recorded (columns : HistoryColumns) (scan : List Nat) (r : Rows)
    (id : Nat) (t : HistoryTable) : HistoryTable :=
  match record none columns scan r id t with
  | .ok x => x.2
  | .error _ => t

/-- A position without a row gets one if it is fillable. -/
private theorem recorded_rows (hnew : ¬ t.Has id) :
    (Fillable columns r id → ∃ p, r.positions[id]? = some p
        ∧ (recorded columns scan r id t).rows
          = t.rows ++ [buildRow none columns scan r id p])
      ∧ (¬ Fillable columns r id → recorded columns scan r id t = t) := by
  have hfound := getByPositionId_eq_none.2 hnew
  unfold recorded record
  rw [hfound]
  cases hp : r.positions[id]? with
  | none =>
      refine ⟨fun hfill => ?_, fun _ => rfl⟩
      obtain ⟨p, hp', -⟩ := hfill
      rw [hp] at hp'
      cases hp'
  | some p =>
      dsimp only
      have hfillable : Fillable columns r id ↔ p.state = .closed
          ∧ (buildRow none columns scan r id p).Fits := by
        rw [fits_scan]
        constructor
        · rintro ⟨q, hq, h⟩
          rw [hp] at hq
          cases hq
          exact h
        · exact fun h => ⟨p, hp, h⟩
      rw [hfillable]
      by_cases hclosed : p.state = .closed
      · rw [if_pos hclosed]
        unfold addIfAbsent
        have hfound' : getByPositionId t
            (buildRow none columns scan r id p).positionId = none := hfound
        rw [hfound']
        unfold TradeHistoryRepository.insert
        by_cases hfits : (buildRow none columns scan r id p).Fits
        · have habsent : (buildRow none columns scan r id p).positionId
              ∉ t.rows.map (·.positionId) := hnew
          simp only [hfits, not_true_eq_false, if_false, habsent, dite_false]
          exact ⟨fun _ => ⟨p, rfl, rfl⟩, fun h => absurd ⟨hclosed, trivial⟩ h⟩
        · simp only [hfits, not_false_eq_true, if_true]
          exact ⟨fun h => h.2.elim, fun _ => trivial⟩
      · rw [if_neg hclosed]
        exact ⟨fun h => absurd h.1 hclosed, fun _ => rfl⟩

/-- An act that nothing happens beside. -/
private theorem run_unitOfWork {α : Type}
    {body : HistoryColumns → List Nat → Rows → HistoryTable →
      Except Exc (α × HistoryTable)} {m : HistoryMove} (hm : m.Quiet columns)
    (ms : List HistoryMove) (a : Archive) :
    (HistoryProgram.unitOfWork body).run (m :: ms) a
      = match body columns m.toMove.scan a.tables a.history with
        | .ok (x, history) => (.returned x, { a with history }, ms)
        | .error e => (.raised e, a, ms) := by
  unfold HistoryProgram.unitOfWork Prog.atomic Prog.run Archive.tables
  dsimp only
  rw [hm.toMove.interfere, hm.toMove.fault, hm.columns]
  cases body columns m.toMove.scan a.world.db.rows a.history <;> rfl

private theorem run_exists {m : HistoryMove} (hm : m.Quiet columns)
    (ms : List HistoryMove) (a : Archive) :
    (BackfillTradeHistory.exists id).run (m :: ms) a
      = (.returned (getByPositionId a.history id).isSome, a, ms) := by
  unfold BackfillTradeHistory.exists
  rw [run_unitOfWork hm]

private theorem run_recordClosedPosition {m : HistoryMove}
    (hm : m.Quiet columns) (ms : List HistoryMove) (a : Archive) :
    (recordClosedPosition none id).run (m :: ms) a = (.returned (),
      { a with history := recorded columns m.toMove.scan a.tables id a.history },
      ms) := by
  unfold recordClosedPosition recorded HistoryProgram.unitOfWork Archive.tables
  simp only [Prog.run, Prog.atomic, MonadExcept.tryCatch, tryCatchThe,
    MonadExceptOf.tryCatch, bind, Prog.bind, Prog.tryCatch,
    hm.toMove.interfere, hm.toMove.fault, hm.columns]
  cases record none columns m.toMove.scan a.world.db.rows id a.history <;> rfl

/-- So many rows were added, about the fillable ones of these
positions. -/
private def Filled (columns : HistoryColumns) (r : Rows) (ids : List Nat)
    (t t' : HistoryTable) (written : Nat) : Prop :=
  ∃ new : List TradeHistory, t'.rows = t.rows ++ new ∧ new.length = written
    ∧ (∀ row ∈ new, ∃ p scan, r.positions[row.positionId]? = some p
      ∧ row = buildRow none columns scan r row.positionId p)
    ∧ ∀ id, id ∈ new.map (·.positionId) ↔ id ∈ ids ∧ Fillable columns r id

/-- One position more. -/
private theorem Filled.cons {ids : List Nat} {u : HistoryTable} {written : Nat}
    (hnew : ¬ t.Has id)
    (h : Filled columns r ids (recorded columns scan r id t) u written) :
    Filled columns r (id :: ids) t u
      (if (getByPositionId (recorded columns scan r id t) id).isSome
        then written + 1 else written) := by
  obtain ⟨new, hrows, hlength, hbuilt, hids⟩ := h
  obtain ⟨hfilled, hunfilled⟩ := @recorded_rows columns scan r _ _ hnew
  by_cases hfill : Fillable columns r id
  · obtain ⟨p, hp, hadded⟩ := hfilled hfill
    have hhas : (recorded columns scan r id t).Has id := by
      unfold HistoryTable.Has
      rw [hadded, List.map_append]
      exact List.mem_append_right _ (List.mem_singleton_self id)
    rw [if_pos (isSome_getByPositionId.2 hhas)]
    refine ⟨buildRow none columns scan r id p :: new, ?_, ?_, ?_, ?_⟩
    · rw [hrows, hadded, List.append_assoc, List.singleton_append]
    · rw [List.length_cons, hlength]
    · exact List.forall_mem_cons.2 ⟨⟨p, scan, hp, rfl⟩, hbuilt⟩
    · intro j
      have hhead : (buildRow none columns scan r id p).positionId = id := rfl
      rw [List.map_cons, List.mem_cons, List.mem_cons, hids, hhead]
      constructor
      · rintro (rfl | ⟨hj, hfillj⟩)
        · exact ⟨.inl rfl, hfill⟩
        · exact ⟨.inr hj, hfillj⟩
      · rintro ⟨hj | hj, hfillj⟩
        · exact .inl hj
        · exact .inr ⟨hj, hfillj⟩
  · rw [hunfilled hfill] at hrows ⊢
    rw [if_neg (by rwa [isSome_getByPositionId])]
    refine ⟨new, hrows, hlength, hbuilt, fun j => ?_⟩
    rw [hids, List.mem_cons]
    constructor
    · rintro ⟨hj, hfillj⟩
      exact ⟨.inr hj, hfillj⟩
    · rintro ⟨rfl | hj, hfillj⟩
      · exact absurd hfillj hfill
      · exact ⟨hj, hfillj⟩

/-- Recording one position gives no other a row. -/
private theorem recorded_has {j : Nat} (hj : j ≠ id) (hnew : ¬ t.Has id)
    (habsent : ¬ t.Has j) : ¬ (recorded columns scan r id t).Has j := by
  obtain ⟨hfilled, hunfilled⟩ := @recorded_rows columns scan r _ _ hnew
  by_cases hfill : Fillable columns r id
  · obtain ⟨p, -, hadded⟩ := hfilled hfill
    unfold HistoryTable.Has at habsent ⊢
    rw [hadded, List.map_append, List.mem_append]
    rintro (hold | hsame)
    · exact habsent hold
    · exact hj (List.mem_singleton.1 hsame)
  · rwa [hunfilled hfill]

/-- The loop records the fillable ones. -/
private theorem each_fills {ids : List Nat} {ms : List HistoryMove}
    {a : Archive} (hnodup : ids.Nodup)
    (habsent : ∀ id ∈ ids, ¬ a.history.Has id)
    (hms : ∀ m ∈ ms, m.Quiet columns) (hlong : 3 * ids.length ≤ ms.length) :
    ∃ written t left, (BackfillTradeHistory.each ids).run ms a
        = (.returned written, { a with history := t }, left)
      ∧ Filled columns a.tables ids a.history t written := by
  induction ids generalizing ms a with
  | nil => exact ⟨0, a.history, ms, rfl, [], (List.append_nil _).symm, rfl,
      fun _ h => absurd h List.not_mem_nil, fun _ => by simp⟩
  | cons id ids ih =>
      obtain ⟨hnotmem, hnodup⟩ := List.nodup_cons.1 hnodup
      obtain ⟨hnew, habsent⟩ := List.forall_mem_cons.1 habsent
      -- one act asks, one records, one asks again
      obtain ⟨m₁, m₂, m₃, rest, rfl⟩ :
          ∃ m₁ m₂ m₃ rest, ms = m₁ :: m₂ :: m₃ :: rest := by
        rw [List.length_cons] at hlong
        rcases ms with _ | ⟨m₁, _ | ⟨m₂, _ | ⟨m₃, rest⟩⟩⟩
        · simp only [List.length_nil] at hlong; omega
        · simp only [List.length_cons, List.length_nil] at hlong; omega
        · simp only [List.length_cons, List.length_nil] at hlong; omega
        · exact ⟨m₁, m₂, m₃, rest, rfl⟩
      obtain ⟨hm₁, hms⟩ := List.forall_mem_cons.1 hms
      obtain ⟨hm₂, hms⟩ := List.forall_mem_cons.1 hms
      obtain ⟨hm₃, hrest⟩ := List.forall_mem_cons.1 hms
      have hbefore : (getByPositionId a.history id).isSome = false := by
        rw [Option.isSome_eq_false_iff, Option.isNone_iff_eq_none]
        exact getByPositionId_eq_none.2 hnew
      obtain ⟨written, t, left, hrun, hfilled⟩ := @ih rest
        ⟨a.world, recorded columns m₂.toMove.scan a.tables id a.history⟩ hnodup
        (fun j hj => recorded_has (fun heq => hnotmem (heq ▸ hj)) hnew
          (habsent j hj))
        hrest (by simp only [List.length_cons] at hlong; omega)
      refine ⟨_, t, left, ?_, hfilled.cons hnew⟩
      unfold BackfillTradeHistory.each
      rw [Prog.run_bind, run_exists hm₁]
      dsimp only
      rw [Prog.run_bind, run_recordClosedPosition hm₂, hbefore]
      dsimp only
      unfold BackfillTradeHistory.appeared
      rw [if_neg Bool.false_ne_true, Prog.run_bind, run_exists hm₃]
      dsimp only
      rw [Prog.run_bind, hrun]
      rfl

-- ========================================================= the command

/-- The positions a backfill looks at. -/
private theorem mem_missing :
    id ∈ BackfillTradeHistory.missing scan r t
      ↔ (∃ p, r.positions[id]? = some p ∧ p.state = .closed) ∧ ¬ t.Has id := by
  unfold BackfillTradeHistory.missing PositionRepository.listClosedIds
    recordedPositionIds HistoryTable.Has
  have hclosed : id ∈ arrange scan
      ((select (·.state = .closed) r.positions).map Prod.fst)
        ↔ ∃ p, r.positions[id]? = some p ∧ p.state = .closed := by
    rw [mem_arrange, List.mem_map]
    constructor
    · rintro ⟨⟨i, p⟩, hmem, rfl⟩
      obtain ⟨hp, hstate⟩ := mem_select.1 hmem
      exact ⟨p, hp, of_decide_eq_true hstate⟩
    · rintro ⟨p, hp, hstate⟩
      exact ⟨(id, p), mem_select.2 ⟨hp, decide_eq_true hstate⟩, rfl⟩
  simp only [List.mem_filter, decide_eq_true_eq, hclosed]
  exact ⟨fun h => ⟨h.1, fun hhas => h.2 ⟨hhas, h.1⟩⟩,
    fun h => ⟨h.1, fun hhas => h.2 hhas.1⟩⟩

private theorem missing_nodup :
    (BackfillTradeHistory.missing scan r t).Nodup :=
  (arrange_nodup (select_keys_nodup _ _)).filter _

private theorem missing_length :
    (BackfillTradeHistory.missing scan r t).length ≤ r.positions.length := by
  refine (List.length_filter_le _ _).trans ?_
  unfold PositionRepository.listClosedIds
  rw [(arrange_perm (select_keys_nodup _ _)).length_eq, List.length_map]
  unfold select
  rw [List.length_map]
  refine (List.length_filter_le _ _).trans ?_
  rw [List.length_zipIdx]

/-- A backfill that is left alone. -/
private theorem run_fills {ms : List HistoryMove} {a : Archive}
    (hms : ∀ m ∈ ms, m.Quiet columns)
    (hlong : 1 + 3 * a.tables.positions.length ≤ ms.length) :
    ∃ written t left scan, (BackfillTradeHistory.run false).run ms a
        = (.returned written, { a with history := t }, left)
      ∧ Filled columns a.tables
        (BackfillTradeHistory.missing scan a.tables a.history) a.history t
        written := by
  rcases ms with _ | ⟨m, rest⟩
  · simp only [List.length_nil] at hlong
    omega
  obtain ⟨hm, hrest⟩ := List.forall_mem_cons.1 hms
  have hcount := @missing_length m.toMove.scan a.tables a.history
  have henough : 3 * (BackfillTradeHistory.missing m.toMove.scan a.tables
      a.history).length ≤ rest.length := by
    rw [List.length_cons] at hlong
    omega
  obtain ⟨written, t, left, hrun, hfilled⟩ := each_fills missing_nodup
    (fun id hid => (mem_missing.1 hid).2) hrest henough
  refine ⟨written, t, left, m.toMove.scan, ?_, hfilled⟩
  unfold BackfillTradeHistory.run
  rw [Prog.run_bind, run_unitOfWork hm]
  exact hrun

/-- A backfill that is left alone returns, having added a row for every
CLOSED position that had none and whose row fits, and nothing else; it
returns how many. Another one then writes nothing. -/
theorem backfill_completes {ms : List HistoryMove} {a : Archive}
    (hms : ∀ m ∈ ms, m.Quiet columns)
    (hlong : 1 + 3 * a.tables.positions.length ≤ ms.length) :
    ∃ written a' left,
      (BackfillTradeHistory.run false).run ms a = (.returned written, a', left)
      ∧ a'.world = a.world
      ∧ (∃ new : List TradeHistory, a'.history.rows = a.history.rows ++ new
        ∧ new.length = written
        ∧ ∀ row ∈ new, ∃ p scan, a.tables.positions[row.positionId]? = some p
          ∧ p.state = .closed ∧ ¬ a.history.Has row.positionId
          ∧ row = buildRow none columns scan a.tables row.positionId p
          ∧ row.Fits)
      ∧ (∀ id p, a.tables.positions[id]? = some p → p.state = .closed →
        (a'.history.Has id ↔ a.history.Has id ∨ Fillable columns a.tables id))
      ∧ ∀ ms' : List HistoryMove, (∀ m ∈ ms', m.Quiet columns) →
        1 + 3 * a.tables.positions.length ≤ ms'.length →
        ∃ left', (BackfillTradeHistory.run false).run ms' a'
          = (.returned 0, a', left') := by
  obtain ⟨written, t, left, scan, hrun, new, hrows, hlength, hbuilt, hids⟩ :=
    run_fills hms hlong
  have hhas : ∀ id, t.Has id ↔ a.history.Has id ∨ (id ∈
      BackfillTradeHistory.missing scan a.tables a.history
        ∧ Fillable columns a.tables id) := by
    intro id
    unfold HistoryTable.Has
    rw [hrows, List.map_append, List.mem_append, hids]
  refine ⟨written, ⟨a.world, t⟩, left, hrun, rfl,
    ⟨new, hrows, hlength, fun row hrow => ?_⟩, fun id p hp hclosed => ?_,
    fun ms' hms' hlong' => ?_⟩
  · obtain ⟨hmissing, q, hq, hclosed, hfits⟩ := (hids row.positionId).1
      (List.mem_map_of_mem hrow)
    obtain ⟨p, scan', hp, hrow'⟩ := hbuilt row hrow
    rw [hp] at hq
    cases hq
    refine ⟨_, scan', hp, hclosed, (mem_missing.1 hmissing).2, hrow', ?_⟩
    rw [hrow']
    exact fits_scan.2 hfits
  · rw [hhas, mem_missing]
    constructor
    · rintro (hold | ⟨-, hfill⟩)
      · exact .inl hold
      · exact .inr hfill
    · rintro (hold | hfill)
      · exact .inl hold
      · by_cases hold : a.history.Has id
        · exact .inl hold
        · exact .inr ⟨⟨⟨p, hp, hclosed⟩, hold⟩, hfill⟩
  · obtain ⟨written', t', left', scan', hrun', new', hrows', hlength', -, hids'⟩ :=
      run_fills (a := ⟨a.world, t⟩) hms' hlong'
    -- what is still missing does not fit
    have hnone : new' = [] := by
      rw [List.eq_nil_iff_forall_not_mem]
      intro row hrow
      obtain ⟨hmissing, hfill⟩ := (hids' row.positionId).1
        (List.mem_map_of_mem hrow)
      obtain ⟨hclosed, habsent⟩ := mem_missing.1 hmissing
      refine habsent ((hhas _).2 ?_)
      by_cases hold : a.history.Has row.positionId
      · exact .inl hold
      · exact .inr ⟨mem_missing.2 ⟨hclosed, hold⟩, hfill⟩
    subst hnone
    rw [List.append_nil] at hrows'
    have hsame : t' = t := by
      cases t
      cases t'
      cases hrows'
      rfl
    rw [hsame, ← hlength'] at hrun'
    exact ⟨left', hrun'⟩

namespace SampleDay

/-- The day's exit done, and not recorded. -/
def closedDay : Archive := ⟨open_.session SampleDay.ctx exit, {}⟩

theorem backfill_completes_closedDay :
    ∃ a' left, (BackfillTradeHistory.run false).run
        (List.replicate 4 ⟨still, noColumns⟩) closedDay
      = (.returned 1, a', left) ∧ a'.history.Has 0 := by
  have hquiet : ∀ m ∈ List.replicate 4 (HistoryMove.mk still noColumns),
      m.Quiet noColumns := by
    intro m hm
    rw [List.eq_of_mem_replicate hm]
    exact ⟨⟨rfl, rfl⟩, rfl⟩
  have hlong : 1 + 3 * closedDay.tables.positions.length
      ≤ (List.replicate 4 (HistoryMove.mk still noColumns)).length := by
    decide +kernel
  obtain ⟨written, a', left, hrun, -, -, hhas, -⟩ :=
    backfill_completes hquiet hlong
  have hone : ((BackfillTradeHistory.run false).run
      (List.replicate 4 ⟨still, noColumns⟩) closedDay).1 = .returned 1 := by
    decide +kernel
  rw [hrun] at hone
  cases hone
  obtain ⟨p, hp, hclosed, hfits⟩ : Fillable noColumns closedDay.tables 0 := by
    exact ⟨closedDay.tables.positions.get ⟨0, by decide +kernel⟩, by decide +kernel,
      by decide +kernel, by decide +kernel⟩
  exact ⟨a', left, hrun, (hhas 0 p hp hclosed).2 (.inr ⟨p, hp, hclosed, hfits⟩)⟩

end SampleDay

end AlgoPlatform
