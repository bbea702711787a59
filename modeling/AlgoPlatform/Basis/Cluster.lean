/-
Transactions side by side, and a logic for what they leave.

# The cluster

Connections are opened, each for one transaction; they act one statement
at a time, in any order, and can be cut off. A body that is done is
committed if it returned and no statement of it is left refused, and
rolled back otherwise.

# The logic

`Holds` is the weakest precondition of a body among others: between any
two statements the rest of the table may change as far as `Undisturbed`
lets it, which is what every other transaction guarantees
(`Performed.undisturbed`, `undisturbed_commit`). `Sound.step` lifts bodies
that meet their specifications to the cluster, `Sound.run` to its runs.
`kept_run` needs no specification: what a transaction has written outside
its savepoints it has until it ends.
-/
import Mathlib.Data.List.Induction
import AlgoPlatform.Basis.Savepoint

namespace Basis

variable {ι ρ ε α β κ : Type}

-- ============================================================= cluster

/-- A connection: the job it was opened for, and what is left of its
transaction; `none` once it has ended. -/
structure Link (ι ρ ε α : Type) where
  job : ι
  left : Option (Txn ρ ε α × Backend ρ)

/-- How a transaction ended: committed, rolled back on an exception, or
rolled back because its COMMIT was refused. -/
inductive Txn.Ending (ε α : Type)
  | committed (a : α)
  | raised (e : ε)
  | refused
  deriving DecidableEq

/-- A transaction that ended. -/
structure Ended (ι ε α : Type) where
  connection : Nat
  job : ι
  ending : Txn.Ending ε α
  deriving DecidableEq

/-- The table, the connections in the order they were opened, and the
transactions that ended, in order. -/
structure Cluster (ι ρ ε α : Type) where
  table : List (Slot ρ)
  links : List (Link ι ρ ε α)
  ended : List (Ended ι ε α)

namespace Cluster

/-- What may happen next. -/
inductive Event (ι : Type)
  | start (job : ι)
  | acts (connection : Nat)
  | cutOff (connection : Nat)

/-- A cluster nobody is connected to. -/
def idle (table : List (Slot ρ)) : Cluster ι ρ ε α := ⟨table, [], []⟩

/-- How a body that is done ends. -/
def ending (r : Except ε α) (b : Backend ρ) : Txn.Ending ε α :=
  match r with
  | .error e => .raised e
  | .ok a => if b.failed then .refused else .committed a

/-- COMMIT or ROLLBACK, and the connection's answer. -/
def finish (s : Cluster ι ρ ε α) (t : Nat) (job : ι) (r : Except ε α)
    (b : Backend ρ) : Cluster ι ρ ε α where
  table := match ending r b with
    | .committed _ => s.table.map (·.commit t)
    | _ => s.table.map (·.rollback t)
  links := s.links.set t ⟨job, none⟩
  ended := s.ended ++ [⟨t, job, ending r b⟩]

variable (c : Constraints ρ) (script : ι → Txn ρ ε α)

/-- One event. A connection that is not there, or waits, does nothing. -/
def step (s : Cluster ι ρ ε α) : Event ι → Cluster ι ρ ε α
  | .start job =>
      { s with links := s.links ++ [⟨job, some (script job, .fresh)⟩] }
  | .acts t =>
      match s.links[t]? with
      | some ⟨job, some (.done r, b)⟩ => s.finish t job r b
      | some ⟨job, some (.call stmt k, b)⟩ =>
          match stmt.exec c t b s.table with
          | some (r, b', table) =>
              { s with table, links := s.links.set t ⟨job, some (k r, b')⟩ }
          | none => s
      | _ => s
  | .cutOff t =>
      match s.links[t]? with
      | some ⟨job, some _⟩ =>
          { s with table := s.table.map (·.rollback t)
                   links := s.links.set t ⟨job, none⟩ }
      | _ => s

/-- A run: events, one after the other. -/
def run (s : Cluster ι ρ ε α) (es : List (Event ι)) : Cluster ι ρ ε α :=
  es.foldl (step c script) s

/-- Connection `t` has `p` left of its job. -/
def Runs (s : Cluster ι ρ ε α) (t : Nat) (job : ι) (p : Txn ρ ε α)
    (b : Backend ρ) : Prop :=
  s.links[t]? = some ⟨job, some (p, b)⟩

variable {c script} {s s' : Cluster ι ρ ε α} {t u : Nat} {job job' : ι}
  {p p' : Txn ρ ε α} {b b' : Backend ρ} {e : Event ι}

theorem run_append (es es' : List (Event ι)) :
    run c script s (es ++ es') = run c script (run c script s es) es' :=
  List.foldl_append

theorem run_snoc (es : List (Event ι)) (e : Event ι) :
    run c script s (es ++ [e]) = step c script (run c script s es) e :=
  run_append es [e]

/-- What one event does to the cluster. -/
inductive Turn (c : Constraints ρ) (script : ι → Txn ρ ε α)
    (s : Cluster ι ρ ε α) : Cluster ι ρ ε α → Prop
  | idle : Turn c script s s
  | start (job : ι) : Turn c script s
      { s with links := s.links ++ [⟨job, some (script job, .fresh)⟩] }
  | stmt (t : Nat) (job : ι) (stmt : Statement ρ)
      (k : Except Refusal stmt.Reply → Txn ρ ε α) (b b' : Backend ρ)
      (r : Except Refusal stmt.Reply) (table : List (Slot ρ))
      (runs : s.Runs t job (.call stmt k) b)
      (effect : Performed c t b s.table stmt r b' table) : Turn c script s
      { s with table, links := s.links.set t ⟨job, some (k r, b')⟩ }
  | finish (t : Nat) (job : ι) (r : Except ε α) (b : Backend ρ)
      (runs : s.Runs t job (.done r) b) :
      Turn c script s (s.finish t job r b)
  | cutOff (t : Nat) (job : ι) (p : Txn ρ ε α) (b : Backend ρ)
      (runs : s.Runs t job p b) : Turn c script s
      { s with table := s.table.map (·.rollback t)
               links := s.links.set t ⟨job, none⟩ }

theorem turn_step (s : Cluster ι ρ ε α) (e : Event ι) :
    Turn c script s (step c script s e) := by
  unfold step
  cases e with
  | start job => exact .start job
  | acts t =>
      dsimp only
      split
      · rename_i job r b hrun
        exact .finish t job r b hrun
      · rename_i job stmt k b hrun
        split
        · rename_i r b' table hexec
          exact .stmt t job stmt k b b' r table hrun (performed_of_exec hexec)
        · exact .idle
      · exact .idle
  | cutOff t =>
      dsimp only
      split
      · rename_i job left hrun
        exact .cutOff t job left.1 left.2 hrun
      · exact .idle

theorem runs_lt (h : s.Runs t job p b) : t < s.links.length :=
  (List.getElem?_eq_some_iff.1 h).1

/-- A connection runs one body. -/
theorem Runs.inj (h : s.Runs t job p b) (h' : s.Runs t job' p' b') :
    job = job' ∧ p = p' ∧ b = b' := by
  cases Option.some.inj (h.symm.trans h')
  exact ⟨rfl, rfl, rfl⟩

end Cluster

-- ========================================================= interference

/-- What the others may do to the table while connection `t` is in its
transaction: its writes stay, a committed row stays and keeps its kind,
and a row it has written is not committed under it. -/
structure Undisturbed (kind : ρ → κ) (t : Nat)
    (table table' : List (Slot ρ)) : Prop where
  writes : ∀ i, writeOf t table' i = writeOf t table i
  rows : ∀ i v, rowAt table i = some v →
    ∃ v', rowAt table' i = some v' ∧ kind v'.value = kind v.value
  locked : ∀ i, writeOf t table i ≠ none → rowAt table' i = rowAt table i

section Interference

variable {kind : ρ → κ} {c : Constraints ρ} {t u : Nat}
  {table table' table'' : List (Slot ρ)} {b b' : Backend ρ}

theorem Undisturbed.refl (table : List (Slot ρ)) :
    Undisturbed kind t table table :=
  ⟨fun _ => rfl, fun _ v hv => ⟨v, hv, rfl⟩, fun _ _ => rfl⟩

theorem Undisturbed.trans (h : Undisturbed kind t table table')
    (h' : Undisturbed kind t table' table'') :
    Undisturbed kind t table table'' := by
  refine ⟨fun i => (h'.writes i).trans (h.writes i), fun i v hv => ?_,
    fun i hi => ?_⟩
  · obtain ⟨v', hv', hkind⟩ := h.rows i v hv
    obtain ⟨v'', hv'', hkind'⟩ := h'.rows i v' hv'
    exact ⟨v'', hv'', hkind'.trans hkind⟩
  · rw [h'.locked i (by rwa [h.writes i]), h.locked i hi]

theorem Undisturbed.writeOf_eq (h : Undisturbed kind t table table') :
    writeOf t table' = writeOf t table := funext h.writes

/-- A statement of another connection does no more. -/
theorem Performed.undisturbed {stmt : Statement ρ}
    {r : Except Refusal stmt.Reply} (h : Performed c t b table stmt r b' table')
    (hu : u ≠ t) : Undisturbed kind u table table' :=
  ⟨h.others hu, fun i v hv => ⟨v, (h.rows i).trans hv, rfl⟩,
    fun i _ => h.rows i⟩

/-- Nor does its COMMIT. -/
theorem undisturbed_commit (huniform : Uniform kind table) (hu : u ≠ t) :
    Undisturbed kind u table (table.map (·.commit t)) := by
  refine ⟨fun i => ?_, fun i v hv => ?_, fun i hi => ?_⟩
  · rw [writeOf_commit, if_neg hu]
  · rw [rowAt_commit]
    cases hw : writeOf t table i with
    | none => exact ⟨v, hv, rfl⟩
    | some w => exact ⟨w, rfl, huniform i t v w hv hw⟩
  · rw [rowAt_commit]
    obtain ⟨w, hw⟩ := Option.ne_none_iff_exists'.1 hi
    cases hw' : writeOf t table i with
    | none => rfl
    | some w' => exact absurd (writeOf_inj hw hw') hu

/-- Nor its ROLLBACK. -/
theorem undisturbed_rollback (hu : u ≠ t) :
    Undisturbed kind u table (table.map (·.rollback t)) := by
  refine ⟨fun i => ?_, fun i v hv => ⟨v, rowAt_rollback.trans hv, rfl⟩,
    fun i _ => rowAt_rollback⟩
  rw [writeOf_rollback, if_neg hu]

variable {k : κ} {i : Nat}

theorem writeOf_of_commit {w : Versioned ρ}
    (h : writeOf u (table.map (·.commit t)) i = some w) :
    u ≠ t ∧ writeOf u table i = some w := by
  rw [writeOf_commit] at h
  split_ifs at h with hu
  exact ⟨hu, h⟩

theorem writeOf_of_rollback {w : Versioned ρ}
    (h : writeOf u (table.map (·.rollback t)) i = some w) :
    u ≠ t ∧ writeOf u table i = some w := by
  rw [writeOf_rollback] at h
  split_ifs at h with hu
  exact ⟨hu, h⟩

theorem uniform_commit (h : Uniform kind table) :
    Uniform kind (table.map (·.commit t)) := by
  intro i u v w hv hw
  obtain ⟨hu, hw⟩ := writeOf_of_commit hw
  refine h i u v w ?_ hw
  rw [rowAt_commit] at hv
  cases hw' : writeOf t table i with
  | none =>
      rw [hw'] at hv
      exact hv
  | some w' => exact absurd (writeOf_inj hw hw') hu

theorem uniform_rollback (h : Uniform kind table) :
    Uniform kind (table.map (·.rollback t)) := by
  intro i u v w hv hw
  rw [rowAt_rollback] at hv
  exact h i u v w hv (writeOf_of_rollback hw).2

theorem hasKind_commit (h : HasKind kind k (table.map (·.commit t)) i) :
    HasKind kind k table i := by
  rcases h with ⟨v, hv, hk⟩ | ⟨u, v, hv, hk⟩
  · rw [rowAt_commit] at hv
    rcases Option.or_eq_some_iff.1 hv with hw | ⟨-, hrow⟩
    · exact .inr ⟨t, v, hw, hk⟩
    · exact .inl ⟨v, hrow, hk⟩
  · exact .inr ⟨u, v, (writeOf_of_commit hv).2, hk⟩

theorem hasKind_rollback (h : HasKind kind k (table.map (·.rollback t)) i) :
    HasKind kind k table i := by
  rcases h with ⟨v, hv, hk⟩ | ⟨u, v, hv, hk⟩
  · rw [rowAt_rollback] at hv
    exact .inl ⟨v, hv, hk⟩
  · exact .inr ⟨u, v, (writeOf_of_rollback hv).2, hk⟩

end Interference

-- =============================================================== bodies

/-- What every transaction keeps of the table, committed or not: at least
that writes are of the kind of the row they are on. -/
structure Regime (ρ κ : Type) where
  constraints : Constraints ρ
  kind : ρ → κ
  Inv : List (Slot ρ) → Prop
  uniform : ∀ table, Inv table → Uniform kind table
  rollback : ∀ t table, Inv table → Inv (table.map (·.rollback t))

/-- At most one row of kind `k`, committed or not. -/
def Regime.single (c : Constraints ρ) (kind : ρ → κ) (k : κ) :
    Regime ρ κ where
  constraints := c
  kind := kind
  Inv table := Uniform kind table
    ∧ ∀ i j, HasKind kind k table i → HasKind kind k table j → i = j
  uniform _ h := h.1
  rollback _ _ h := ⟨uniform_rollback h.1, fun i j hi hj =>
    h.2 i j (hasKind_rollback hi) (hasKind_rollback hj)⟩

theorem Regime.single_commit {c : Constraints ρ} {kind : ρ → κ} {k : κ}
    {t : Nat} {table : List (Slot ρ)}
    (h : (Regime.single c kind k).Inv table) :
    (Regime.single c kind k).Inv (table.map (·.commit t)) :=
  ⟨uniform_commit h.1, fun i j hi hj =>
    h.2 i j (hasKind_commit hi) (hasKind_commit hj)⟩

/-- A statement that changes no row's kind and inserts none of the kind. -/
theorem Performed.single {c : Constraints ρ} {kind : ρ → κ} {k : κ} {t : Nat}
    {b b' : Backend ρ} {table table' : List (Slot ρ)} {stmt : Statement ρ}
    {r : Except Refusal stmt.Reply} (h : Performed c t b table stmt r b' table')
    (hsteady : stmt.Steady kind) (havoids : stmt.Avoids kind k)
    (hcovers : ∀ snap ∈ b.saves, Covers kind (writeOf t table) snap)
    (hinv : (Regime.single c kind k).Inv table) :
    (Regime.single c kind k).Inv table' := by
  have hback : ∀ i, HasKind kind k table' i → HasKind kind k table i :=
    fun i hi => h.hasKind hsteady havoids hcovers hi
  exact ⟨h.uniform hsteady hcovers hinv.1, fun i j hi hj =>
    hinv.2 i j (hback i hi) (hback j hj)⟩

theorem Regime.single_quiet {c : Constraints ρ} {kind : ρ → κ} {k : κ}
    {table : List (Slot ρ)} (hquiet : Quiet table)
    (hnone : ∀ i v, rowAt table i = some v → kind v.value ≠ k) :
    (Regime.single c kind k).Inv table := by
  refine ⟨fun i u v w _ hw => ?_, fun i j hi _ => ?_⟩
  · rw [hquiet.writeOf] at hw
    cases hw
  · rcases hi with ⟨v, hv, hk⟩ | ⟨u, v, hv, -⟩
    · exact absurd hk (hnone i v hv)
    · rw [hquiet.writeOf] at hv
      cases hv

namespace Txn

section Logic

variable {g : Regime ρ κ} {t : Nat} {b : Backend ρ} {table table' : List (Slot ρ)}

/-- Whatever the others do from here, every statement of the body keeps
the invariant, and what it comes to satisfies `post`. -/
def Holds (g : Regime ρ κ) (t : Nat)
    (post : Except ε α → Backend ρ → List (Slot ρ) → Prop) :
    Txn ρ ε α → Backend ρ → List (Slot ρ) → Prop
  | .done r, b, table => ∀ table', Undisturbed g.kind t table table' →
      g.Inv table' → post r b table'
  | .call stmt k, b, table => ∀ table', Undisturbed g.kind t table table' →
      g.Inv table' → ∀ r b' table'',
        Performed g.constraints t b table' stmt r b' table'' →
          g.Inv table'' ∧ (k r).Holds g t post b' table''

variable {post post' : Except ε α → Backend ρ → List (Slot ρ) → Prop}
  {p : Txn ρ ε α}

theorem Holds.undisturbed (h : p.Holds g t post b table)
    (hothers : Undisturbed g.kind t table table') :
    p.Holds g t post b table' := by
  cases p with
  | done r => exact fun table'' h' hinv => h table'' (hothers.trans h') hinv
  | call stmt k =>
      exact fun table'' h' hinv => h table'' (hothers.trans h') hinv

/-- What holds after every interference held before it. -/
theorem holds_of_undisturbed
    (h : ∀ table', Undisturbed g.kind t table table' → g.Inv table' →
      p.Holds g t post b table') : p.Holds g t post b table := by
  cases p with
  | done r => exact fun table' h' hinv => h table' h' hinv table' (.refl _) hinv
  | call stmt k =>
      exact fun table' h' hinv => h table' h' hinv table' (.refl _) hinv

theorem Holds.mono (h : p.Holds g t post b table)
    (hpost : ∀ r b' table', g.Inv table' → post r b' table' →
      post' r b' table') : p.Holds g t post' b table := by
  induction p generalizing b table with
  | done r =>
      intro table' hothers hinv
      exact hpost r b table' hinv (h table' hothers hinv)
  | call stmt k ih =>
      intro table' hothers hinv r b' table'' heffect
      obtain ⟨hinv', hrest⟩ := h table' hothers hinv r b' table'' heffect
      exact ⟨hinv', ih r hrest⟩

theorem Holds.and (h : p.Holds g t post b table)
    (h' : p.Holds g t post' b table) :
    p.Holds g t (fun r b' table' => post r b' table' ∧ post' r b' table')
      b table := by
  induction p generalizing b table with
  | done r =>
      intro table' hothers hinv
      exact ⟨h table' hothers hinv, h' table' hothers hinv⟩
  | call stmt k ih =>
      intro table' hothers hinv r b' table'' heffect
      obtain ⟨hinv', hrest⟩ := h table' hothers hinv r b' table'' heffect
      exact ⟨hinv', ih r hrest (h' table' hothers hinv r b' table''
        heffect).2⟩

/-- Sequencing. -/
theorem Holds.bind {q : α → Txn ρ ε β}
    {post : Except ε β → Backend ρ → List (Slot ρ) → Prop}
    (h : p.Holds g t (fun r b' table' => match r with
      | .ok a => (q a).Holds g t post b' table'
      | .error e => post (.error e) b' table') b table) :
    (p.bind q).Holds g t post b table := by
  induction p generalizing b table with
  | done r =>
      cases r with
      | ok a => exact holds_of_undisturbed h
      | error e => exact h
  | call stmt k ih =>
      intro table' hothers hinv r b' table'' heffect
      obtain ⟨hinv', hrest⟩ := h table' hothers hinv r b' table'' heffect
      exact ⟨hinv', ih r hrest⟩

/-- Exception handling. -/
theorem Holds.tryCatch {handler : ε → Txn ρ ε α}
    (h : p.Holds g t (fun r b' table' => match r with
      | .ok a => post (.ok a) b' table'
      | .error e => (handler e).Holds g t post b' table') b table) :
    (p.tryCatch handler).Holds g t post b table := by
  induction p generalizing b table with
  | done r =>
      cases r with
      | ok a => exact h
      | error e => exact holds_of_undisturbed h
  | call stmt k ih =>
      intro table' hothers hinv r b' table'' heffect
      obtain ⟨hinv', hrest⟩ := h table' hothers hinv r b' table'' heffect
      exact ⟨hinv', ih r hrest⟩

/-- The statements of the body meet `ok`, which may depend on how many
savepoints of its own are open. -/
def Within (ok : Nat → Statement ρ → Prop) : Nat → Txn ρ ε α → Prop
  | _, .done _ => True
  | n, .call stmt k => ok n stmt ∧ ∀ r, (k r).Within ok (stmt.depth n r)

/-- What each statement of a body keeps, the body keeps. -/
theorem Within.holds {ok : Nat → Statement ρ → Prop}
    {P : Nat → Backend ρ → List (Slot ρ) → Prop}
    (hothers : ∀ n b table table', P n b table →
      Undisturbed g.kind t table table' → P n b table')
    (hstmt : ∀ n stmt b table r b' table', ok n stmt → g.Inv table →
      P n b table → Performed g.constraints t b table stmt r b' table' →
      g.Inv table' ∧ P (stmt.depth n r) b' table')
    {n : Nat} (hp : p.Within ok n) (h : P n b table) :
    p.Holds g t (fun _ b' table' => ∃ n', P n' b' table') b table := by
  induction p generalizing n b table with
  | done r => exact fun table' h' _ => ⟨n, hothers n b table table' h h'⟩
  | call stmt k ih =>
      intro table' h' hinv r b' table'' heffect
      obtain ⟨hinv', hP⟩ := hstmt n stmt b table' r b' table'' hp.1 hinv
        (hothers n b table table' h h') heffect
      exact ⟨hinv', ih r (hp.2 r) hP⟩

end Logic

end Txn

-- ============================================================ soundness

/-- What the transactions of a cluster promise each other: what their
bodies come to, and what can be said of the ones that ended. -/
structure Contract (g : Regime ρ κ) (script : ι → Txn ρ ε α) where
  post : Nat → ι → Except ε α → Backend ρ → List (Slot ρ) → Prop
  Answers : List (Ended ι ε α) → List (Slot ρ) → Prop
  begins : ∀ t job table, g.Inv table → (∀ i, writeOf t table i = none) →
    (script job).Holds g t (post t job) .fresh table
  commits : ∀ ended table t job a b, g.Inv table → Answers ended table →
    post t job (.ok a) b table →
    g.Inv (table.map (·.commit t))
      ∧ Answers (ended ++ [⟨t, job, .committed a⟩]) (table.map (·.commit t))
  aborts : ∀ ended table t job ending, Answers ended table →
    (∀ a, ending ≠ .committed a) → Answers (ended ++ [⟨t, job, ending⟩]) table
  steady : ∀ ended table table', Answers ended table →
    (∀ i, rowAt table' i = rowAt table i) → Answers ended table'

namespace Cluster

variable {g : Regime ρ κ} {script : ι → Txn ρ ε α}
  {s s' : Cluster ι ρ ε α} {t u : Nat} {job job' : ι} {p p' : Txn ρ ε α}
  {b b' : Backend ρ} {table : List (Slot ρ)}

/-- The invariant, every body that is left, and what ended. -/
structure Sound (C : Contract g script) (s : Cluster ι ρ ε α) : Prop where
  inv : g.Inv s.table
  bodies : ∀ t job p b, s.Runs t job p b →
    p.Holds g t (C.post t job) b s.table
  owners : ∀ t i, writeOf t s.table i ≠ none → t < s.links.length
  answers : C.Answers s.ended s.table

theorem runs_set_other {left : Option (Txn ρ ε α × Backend ρ)}
    {ended : List (Ended ι ε α)} (hu : u ≠ t) :
    Runs ⟨table, s.links.set t ⟨job, left⟩, ended⟩ u job' p' b'
      ↔ s.Runs u job' p' b' := by
  unfold Runs
  rw [List.getElem?_set_ne (Ne.symm hu)]

theorem runs_set_self {left : Option (Txn ρ ε α × Backend ρ)}
    {ended : List (Ended ι ε α)} (ht : t < s.links.length)
    (h : Runs ⟨table, s.links.set t ⟨job, left⟩, ended⟩ t job' p' b') :
    job = job' ∧ left = some (p', b') := by
  unfold Runs at h
  rw [List.getElem?_set_self ht] at h
  cases h
  exact ⟨rfl, rfl⟩

/-- A transaction is gone, and has left the others undisturbed. -/
private theorem Sound.gone {C : Contract g script} (h : s.Sound C)
    {ended : List (Ended ι ε α)} (ht : t < s.links.length)
    (hinv : g.Inv table) (hanswers : C.Answers ended table)
    (hothers : ∀ u, u ≠ t → Undisturbed g.kind u s.table table)
    (hnone : ∀ i, writeOf t table i = none) :
    Sound C ⟨table, s.links.set t ⟨job, none⟩, ended⟩ := by
  refine ⟨hinv, fun u job' p b hrun => ?_, fun u i hw => ?_, hanswers⟩
  · by_cases hu : u = t
    · subst hu
      cases (runs_set_self ht hrun).2
    · exact (h.bodies u job' p b ((runs_set_other hu).1 hrun)).undisturbed
        (hothers u hu)
  · rw [List.length_set]
    by_cases hu : u = t
    · exact hu ▸ ht
    · rw [(hothers u hu).writes] at hw
      exact h.owners u i hw

/-- A transaction that is not committed is rolled back. -/
private theorem Sound.rolledBack {C : Contract g script} (h : s.Sound C)
    {ended : List (Ended ι ε α)} (ht : t < s.links.length)
    (hanswers : C.Answers ended s.table) :
    Sound C ⟨s.table.map (·.rollback t), s.links.set t ⟨job, none⟩,
      ended⟩ := by
  refine h.gone ht (g.rollback t _ h.inv)
    (C.steady _ _ _ hanswers fun i => rowAt_rollback)
    (fun u hu => undisturbed_rollback hu) fun i => ?_
  rw [writeOf_rollback, if_pos rfl]

theorem ending_committed {r : Except ε α} {a : α}
    (h : ending r b = .committed a) : r = .ok a := by
  unfold ending at h
  cases r with
  | error e => cases h
  | ok a' =>
      dsimp only at h
      split_ifs at h
      cases h
      rfl

private theorem Sound.finish {C : Contract g script} (h : s.Sound C)
    {r : Except ε α} (hrun : s.Runs t job (.done r) b) :
    (s.finish t job r b).Sound C := by
  have ht := runs_lt hrun
  have hpost := h.bodies t job _ b hrun s.table (.refl _) h.inv
  have haborts := C.aborts s.ended s.table t job (ending r b) h.answers
  unfold Cluster.finish
  cases hending : ending r b with
  | committed a =>
      rw [ending_committed hending] at hpost
      obtain ⟨hinv, hanswers⟩ :=
        C.commits s.ended s.table t job a b h.inv h.answers hpost
      refine h.gone ht hinv hanswers
        (fun u hu => undisturbed_commit (g.uniform _ h.inv) hu) fun i => ?_
      rw [writeOf_commit, if_pos rfl]
  | raised e =>
      rw [hending] at haborts
      exact h.rolledBack ht (haborts nofun)
  | refused =>
      rw [hending] at haborts
      exact h.rolledBack ht (haborts nofun)

/-- Every turn keeps every promise. -/
theorem Sound.turn {C : Contract g script} (h : s.Sound C)
    (hturn : Turn g.constraints script s s') : s'.Sound C := by
  cases hturn with
  | idle => exact h
  | start job =>
      refine ⟨h.inv, fun t job' p b hrun => ?_, fun t i hw => ?_, h.answers⟩
      · unfold Runs at hrun
        dsimp only at hrun
        rcases Nat.lt_or_ge t s.links.length with ht | ht
        · rw [List.getElem?_append_left ht] at hrun
          exact h.bodies t job' p b hrun
        · have hlt := (List.getElem?_eq_some_iff.1 hrun).1
          rw [List.length_append, List.length_singleton] at hlt
          obtain rfl : t = s.links.length := by omega
          rw [List.getElem?_concat_length] at hrun
          cases hrun
          -- nobody has written under a number not yet given out
          refine C.begins _ job s.table h.inv fun i => ?_
          by_contra hw
          exact Nat.lt_irrefl _ (h.owners _ i hw)
      · rw [List.length_append]
        exact Nat.lt_add_right _ (h.owners t i hw)
  | stmt t job stmt k b b' r table runs effect =>
      have ht := runs_lt runs
      obtain ⟨hinv, hrest⟩ := h.bodies t job _ b runs s.table (.refl _) h.inv
        r b' table effect
      refine ⟨hinv, fun u job' p b hrun => ?_, fun u i hw => ?_,
        C.steady _ _ _ h.answers effect.rows⟩
      · by_cases hu : u = t
        · subst hu
          obtain ⟨rfl, heq⟩ := runs_set_self ht hrun
          cases heq
          exact hrest
        · exact (h.bodies u job' p b ((runs_set_other hu).1 hrun)).undisturbed
            (effect.undisturbed hu)
      · rw [List.length_set]
        by_cases hu : u = t
        · exact hu ▸ ht
        · exact h.owners u i (by rwa [effect.others hu] at hw)
  | finish t job r b runs => exact h.finish runs
  | cutOff t job p b runs => exact h.rolledBack (runs_lt runs) h.answers

theorem sound_idle {C : Contract g script} (hquiet : Quiet table)
    (hinv : g.Inv table) (hanswers : C.Answers [] table) :
    (idle table : Cluster ι ρ ε α).Sound C := by
  refine ⟨hinv, fun _ _ _ _ hrun => (nomatch hrun), fun t i hw => ?_, hanswers⟩
  exact absurd (hquiet.writeOf t i) hw

/-- So does every run. -/
theorem Sound.run {C : Contract g script} (h : s.Sound C)
    (es : List (Event ι)) :
    (Cluster.run g.constraints script s es).Sound C := by
  induction es generalizing s with
  | nil => exact h
  | cons e es ih => exact ih (h.turn (turn_step s e))

-- ================================================= what is kept to the end

section Kept

variable {c : Constraints ρ} {es : List (Event ι)} {x : Ended ι ε α}
  {snap : Nat → Option (Versioned ρ)}

/-- A transaction that has ended does not come back. -/
theorem gone_turn (hturn : Turn c script s s') (ht : t < s.links.length)
    (hgone : ∀ job p b, ¬ s.Runs t job p b) :
    t < s'.links.length ∧ ∀ job p b, ¬ s'.Runs t job p b := by
  have hset : ∀ {u : Nat} {job : ι} {left : Option (Txn ρ ε α × Backend ρ)}
      {table : List (Slot ρ)} {ended : List (Ended ι ε α)}, u ≠ t →
      t < (s.links.set u ⟨job, left⟩).length
        ∧ ∀ job' p b, ¬ Runs ⟨table, s.links.set u ⟨job, left⟩, ended⟩ t
          job' p b := by
    intro u job left table ended hu
    refine ⟨by rwa [List.length_set], fun job' p b hrun => ?_⟩
    exact hgone job' p b ((runs_set_other (Ne.symm hu)).1 hrun)
  cases hturn with
  | idle => exact ⟨ht, hgone⟩
  | start job =>
      refine ⟨?_, fun job' p b hrun => ?_⟩
      · rw [List.length_append]
        exact Nat.lt_add_right _ ht
      · unfold Runs at hrun
        rw [List.getElem?_append_left ht] at hrun
        exact hgone job' p b hrun
  | stmt u job stmt k b b' r table runs effect =>
      refine hset fun hu => ?_
      subst hu
      exact hgone _ _ _ runs
  | finish u job r b runs =>
      refine hset fun hu => ?_
      subst hu
      exact hgone _ _ _ runs
  | cutOff u job p b runs =>
      refine hset fun hu => ?_
      subst hu
      exact hgone _ _ _ runs

theorem gone_run (es : List (Event ι)) (ht : t < s.links.length)
    (hgone : ∀ job p b, ¬ s.Runs t job p b) :
    ∀ job p b, ¬ (run c script s es).Runs t job p b := by
  induction es generalizing s with
  | nil => exact hgone
  | cons e es ih =>
      obtain ⟨ht', hgone'⟩ := gone_turn (turn_step s e) ht hgone
      exact ih ht' hgone'

theorem not_runs_finish {r : Except ε α} (ht : t < s.links.length) :
    t < (s.finish t job r b).links.length
      ∧ ∀ job' p' b', ¬ (s.finish t job r b).Runs t job' p' b' := by
  refine ⟨by rwa [finish, List.length_set], fun job' p' b' hrun => ?_⟩
  cases (runs_set_self ht hrun).2

/-- What `snap` remembers of connection `t`, it still has while it runs. -/
def Remembers (t : Nat) (snap : Nat → Option (Versioned ρ))
    (s : Cluster ι ρ ε α) : Prop :=
  t < s.links.length ∧ ∀ job p b, s.Runs t job p b →
    Stacked (fun _ => ()) (writeOf t s.table :: (b.saves ++ [snap]))

theorem Remembers.turn (h : s.Remembers t snap)
    (hturn : Turn c script s s') : s'.Remembers t snap := by
  obtain ⟨ht, hstack⟩ := h
  have hset : ∀ {u : Nat} {job : ι} {left : Option (Txn ρ ε α × Backend ρ)}
      {table : List (Slot ρ)} {ended : List (Ended ι ε α)},
      (u ≠ t → ∀ i, writeOf t table i = writeOf t s.table i) →
      (u = t → ∀ p b, left = some (p, b) →
        Stacked (fun _ => ()) (writeOf t table :: (b.saves ++ [snap]))) →
      Remembers t snap ⟨table, s.links.set u ⟨job, left⟩, ended⟩ := by
    intro u job left table ended hother hself
    refine ⟨by rwa [List.length_set], fun job' p b hrun => ?_⟩
    by_cases hu : u = t
    · subst hu
      exact hself rfl p b (runs_set_self ht hrun).2
    · rw [show writeOf t table = writeOf t s.table from funext (hother hu)]
      exact hstack job' p b ((runs_set_other (Ne.symm hu)).1 hrun)
  cases hturn with
  | idle => exact ⟨ht, hstack⟩
  | start job =>
      refine ⟨?_, fun job' p b hrun => ?_⟩
      · rw [List.length_append]
        exact Nat.lt_add_right _ ht
      · unfold Runs at hrun
        rw [List.getElem?_append_left ht] at hrun
        exact hstack job' p b hrun
  | stmt u job stmt k b b' r table runs effect =>
      refine hset (fun hu => effect.others (Ne.symm hu)) fun hu p b₁ heq => ?_
      subst hu
      cases heq
      have hsteady : stmt.Steady fun _ : ρ => () := by
        cases stmt with
        | update id version change => exact fun _ => rfl
        | _ => trivial
      obtain ⟨own, hsaves, -, hstack'⟩ := effect.stacked hsteady
        (List.append_nil b.saves).symm (fun _ _ => rfl) (hstack _ _ _ runs)
      rw [hsaves, List.append_nil]
      exact hstack'
  | finish u job r b runs =>
      refine hset (fun hu i => ?_) fun _ _ _ heq => nomatch heq
      split
      · rw [writeOf_commit, if_neg (Ne.symm hu)]
      · rw [writeOf_rollback, if_neg (Ne.symm hu)]
  | cutOff u job p b runs =>
      refine hset (fun hu i => ?_) fun _ _ _ heq => nomatch heq
      rw [writeOf_rollback, if_neg (Ne.symm hu)]

theorem Remembers.run (h : s.Remembers t snap) (es : List (Event ι)) :
    (run c script s es).Remembers t snap := by
  induction es generalizing s with
  | nil => exact h
  | cons e es ih => exact ih (h.turn (turn_step s e))

/-- What a transaction has written outside its savepoints, it has, or a
later version of it, as long as it runs. -/
theorem kept_run (hrun : s.Runs t job p b) (houtside : b.saves = [])
    (es : List (Event ι)) (hrun' : (run c script s es).Runs t job' p' b') :
    Covers (fun _ => ()) (writeOf t (run c script s es).table)
      (writeOf t s.table) := by
  have hstart : s.Remembers t (writeOf t s.table) := by
    refine ⟨runs_lt hrun, fun job₁ p₁ b₁ hrun₁ => ?_⟩
    obtain ⟨-, -, rfl⟩ := hrun.inj hrun₁
    rw [houtside]
    exact List.pairwise_pair.2 (.refl _)
  exact ((hstart.run es).2 _ _ _ hrun').top (List.mem_append_right _
    List.mem_cons_self)

/-- With its next act after `mid`, transaction `x` ends. -/
structure EndsAt (c : Constraints ρ) (script : ι → Txn ρ ε α)
    (table : List (Slot ρ)) (x : Ended ι ε α) (mid : List (Event ι))
    (r : Except ε α) (b : Backend ρ) : Prop where
  runs : (run c script (idle table) mid).Runs x.connection x.job (.done r) b
  ending : x.ending = ending r b
  finish : run c script (idle table) (mid ++ [.acts x.connection])
    = (run c script (idle table) mid).finish x.connection x.job r b

/-- Every transaction that ended has its moment. -/
theorem ended_at (hx : x ∈ (run c script (idle table) es).ended) :
    ∃ mid r b, mid ++ [.acts x.connection] <+: es
      ∧ EndsAt c script table x mid r b := by
  induction es using List.reverseRecOn with
  | nil => cases hx
  | append_singleton es e ih =>
      have hbefore (h : x ∈ (run c script (idle table) es).ended) :
          ∃ mid r b, mid ++ [.acts x.connection] <+: es ++ [e]
            ∧ EndsAt c script table x mid r b := by
        obtain ⟨mid, r, b, hmid, hends⟩ := ih h
        exact ⟨mid, r, b, hmid.trans (List.prefix_append _ _), hends⟩
      rw [run_snoc] at hx
      cases e with
      | start job => exact hbefore hx
      | cutOff t =>
          unfold step at hx
          dsimp only at hx
          split at hx
          · exact hbefore hx
          · exact hbefore hx
      | acts t =>
          unfold step at hx
          dsimp only at hx
          split at hx
          · rename_i job r b hrun
            rcases List.mem_append.1 hx with hx | hx
            · exact hbefore hx
            · rw [List.mem_singleton] at hx
              subst hx
              refine ⟨es, r, b, List.prefix_refl _, hrun, rfl, ?_⟩
              dsimp only
              rw [run_snoc]
              unfold step
              dsimp only
              rw [hrun]
          · split at hx
            · exact hbefore hx
            · exact hbefore hx
          · exact hbefore hx

/-- The moment a transaction is committed: all it has written is, and that
is all it had written outside its savepoints at any moment before, or
later versions of it. -/
structure CommitsAll (c : Constraints ρ) (script : ι → Txn ρ ε α)
    (table : List (Slot ρ)) (es : List (Event ι)) (t : Nat)
    (mid : List (Event ι)) : Prop where
  moment : mid ++ [.acts t] <+: es
  commits : ∀ i w, writeOf t (run c script (idle table) mid).table i = some w →
    rowAt (run c script (idle table) (mid ++ [.acts t])).table i = some w
  whole : ∀ pre job p b, pre <+: es →
    (run c script (idle table) pre).Runs t job p b → pre <+: mid
      ∧ (b.saves = [] → Covers (fun _ => ())
        (writeOf t (run c script (idle table) mid).table)
        (writeOf t (run c script (idle table) pre).table))

theorem commitsAll {a : α} (hx : x ∈ (run c script (idle table) es).ended)
    (hcommitted : x.ending = .committed a) :
    ∃ mid, CommitsAll c script table es x.connection mid := by
  obtain ⟨mid, r, b, hmid, ⟨hrun, hending, hfinish⟩⟩ := ended_at hx
  refine ⟨mid, hmid, fun i w hw => ?_, fun pre job p b' hpre hrun' => ?_⟩
  · rw [hfinish]
    unfold finish
    rw [← hending, hcommitted]
    dsimp only
    rw [rowAt_commit, hw]
    rfl
  · have hearlier : pre <+: mid := by
      rcases List.prefix_or_prefix_of_prefix hpre hmid with h | h
      · rcases List.prefix_concat_iff.1 h with rfl | h
        · -- at its last act it ended
          rw [hfinish] at hrun'
          exact absurd hrun' ((not_runs_finish (runs_lt hrun)).2 _ _ _)
        · exact h
      · obtain ⟨rest, rfl⟩ := h
        rw [run_append, hfinish] at hrun'
        obtain ⟨ht, hgone⟩ := not_runs_finish
          (runs_lt hrun)
        exact absurd hrun' (gone_run rest ht hgone _ _ _)
    refine ⟨hearlier, fun houtside => ?_⟩
    obtain ⟨rest, rfl⟩ := hearlier
    rw [run_append] at hrun ⊢
    exact kept_run hrun' houtside rest hrun

end Kept

end Cluster

end Basis
