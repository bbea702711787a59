/-
`_get_or_create` among concurrent transactions
(`database/repositories/base.py`), statement by statement.

`Model.Repositories` has the same method for a session nobody races. Here
every SELECT, INSERT and SAVEPOINT is a step of its own, and what the two
repositories pass to the method is the WHERE clause of the lookup and a
row it selects. The transaction around a call may do anything before and
after it that inserts no row the lookup selects, changes no column the
lookup reads and closes only savepoints of its own.
-/
import AlgoPlatform.Basis.Cluster
import AlgoPlatform.Model.Db

open Basis

namespace AlgoPlatform

namespace BaseRepository

variable {ρ α : Type}

/-- The exception of a statement the server refuses. -/
def exception : Refusal → Exc
  | .constraint => .integrity
  | .failed => .database

/-- Issue a statement. -/
def execute (stmt : Statement ρ) : Txn ρ Exc stmt.Reply :=
  .call stmt fun r => .done (r.mapError exception)

/-- `with session.begin_nested()`: RELEASE on success, ROLLBACK TO and
raise again on an exception. -/
def beginNested (body : Txn ρ Exc α) : Txn ρ Exc α := do
  execute .savepoint
  tryCatch (do let a ← body; execute .release; pure a)
    fun e => do execute .rollbackTo; throw e

/-- The lookup: `scalar_one_or_none` of the rows selected. -/
def lookup (wanted : ρ → Bool) : Txn ρ Exc (Option (Nat × Versioned ρ)) :=
  .call .select fun
    | .error e => throw (exception e)
    | .ok rows => match rows.filter fun x => wanted x.2.value with
      | [] => pure none
      | [row] => pure (some row)
      | _ => throw .multipleResults

/-- `session.add` and the flush. -/
def add (value : ρ) : Txn ρ Exc (Nat × Versioned ρ) :=
  .call (.insert value) fun
    | .error e => throw (exception e)
    | .ok id => pure (id, ⟨value, 1⟩)

/-- `_get_or_create`: the row, and whether it was created. -/
def getOrCreate (wanted : ρ → Bool) (value : ρ) :
    Txn ρ Exc ((Nat × Versioned ρ) × Bool) := do
  match ← lookup wanted with
  | some existing => pure (existing, false)
  | none =>
      tryCatch (do let obj ← beginNested (add value); pure (obj, true))
        fun e => match e with
        | .integrity => do
            match ← lookup wanted with
            | some existing => pure (existing, false)
            | none => throw .integrity
        | e => throw e

/-- What a transaction may do around its call, `n` savepoints of its own
being open. -/
def Elsewhere (wanted : ρ → Bool) (n : Nat) (stmt : Statement ρ) : Prop :=
  stmt.Steady wanted ∧ stmt.Avoids wanted true ∧ (stmt.Pops → n ≠ 0)

/-- A transaction around a call: what it does first, and with it the row
the call would make, and what it does with the row it got. -/
structure Caller (ρ : Type) (wanted : ρ → Bool) where
  before : Txn ρ Exc { value : ρ // wanted value = true }
  after : Nat × Versioned ρ → Bool → Txn ρ Exc Unit
  elsewhere_before : before.Within (Elsewhere wanted) 0
  elsewhere_after : ∀ row created,
    (after row created).Within (Elsewhere wanted) 0

/-- The body of the transaction; it reports what its call returned. -/
def Caller.body {wanted : ρ → Bool} (caller : Caller ρ wanted) :
    Txn ρ Exc ((Nat × Versioned ρ) × Bool) := do
  let value ← caller.before
  let got ← getOrCreate wanted value
  caller.after got.1 got.2
  pure got

/-- One value of the columns a unique constraint is on: the lookup that
selects its rows, no two of which the constraints allow. -/
structure UniqueKey (ρ : Type) where
  constraints : Constraints ρ
  wanted : ρ → Bool
  unique : ∀ r r', wanted r = true → wanted r' = true →
    constraints.Clash r r'

/-- A transaction around a call on the key. -/
abbrev UniqueKey.Caller (key : UniqueKey ρ) :=
  BaseRepository.Caller ρ key.wanted

/-- The callers of a key that are under way, from any number of processes
at once, and the table, after a run. -/
def callers (key : UniqueKey ρ) (table : List (Slot ρ))
    (es : List (Cluster.Event key.Caller)) :
    Cluster key.Caller ρ Exc ((Nat × Versioned ρ) × Bool) :=
  Cluster.run key.constraints Caller.body (.idle table) es

end BaseRepository

-- ======================================================== repositories

namespace PositionRepository

/-- The constraints of `positions`, where these instances exist. -/
def positions (instances : List Nat) : Constraints Position where
  Admits p := p.Check ∧ p.strategyInstanceId ∈ instances
  Clash p p' := p.strategyInstanceId = p'.strategyInstanceId
    ∧ p.tradeDate = p'.tradeDate
  decAdmits _ := inferInstance
  decClash _ _ := inferInstance

/-- The key of `get_or_create`: an instance's day. -/
def dayKey (instances : List Nat) (strategyInstanceId : Nat)
    (tradeDate : Date) : BaseRepository.UniqueKey Position where
  constraints := positions instances
  wanted p :=
    p.strategyInstanceId = strategyInstanceId ∧ p.tradeDate = tradeDate
  unique p p' h h' := by
    obtain ⟨rfl, rfl⟩ := of_decide_eq_true h
    obtain ⟨hid, hday⟩ := of_decide_eq_true h'
    exact ⟨hid.symm, hday.symm⟩

end PositionRepository

namespace OrderIntentRepository

/-- The constraints of `order_intents`, where these trades exist. -/
def orderIntents (trades : List Nat) : Constraints OrderIntent where
  Admits i := 0 < i.quantity ∧ i.tradeId ∈ trades
  Clash i i' := i.idempotencyKey = i'.idempotencyKey
    ∨ i.brokerTag = i'.brokerTag
  decAdmits _ := inferInstance
  decClash _ _ := inferInstance

/-- The key of `get_or_create`: an idempotency key. -/
def intentKey (trades : List Nat) (idempotencyKey : String) :
    BaseRepository.UniqueKey OrderIntent where
  constraints := orderIntents trades
  wanted i := i.idempotencyKey = idempotencyKey
  unique _ _ h h' :=
    .inl ((of_decide_eq_true h).trans (of_decide_eq_true h').symm)

end OrderIntentRepository

end AlgoPlatform
