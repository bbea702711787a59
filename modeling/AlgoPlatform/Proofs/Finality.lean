/-
A position that is CLOSED stays CLOSED.

No commit deletes a position, changes whose it is, or touches an audit
row that is there (`Accrues`). The trail of a position is a path of the
state graph (`Charted`), and no edge leaves CLOSED: so once a trail has
reached it, no longer trail begins with it.
-/
import AlgoPlatform.Proofs.Idempotence
import AlgoPlatform.Proofs.RowOrigins
import AlgoPlatform.Proofs.StateGraph

open Basis Basis.Session

namespace AlgoPlatform

/-- Positions are still there, each of its instance and day, and so are
the audit rows, in their order. -/
structure Accrues (r r' : Rows) : Prop where
  positions : ∀ (i : Nat) (p : Position), r.positions[i]? = some p →
    ∃ q : Position, r'.positions[i]? = some q ∧ q.origin = p.origin
  transitions : r.transitions <+: r'.transitions

variable {r r' : Rows}

theorem accrues_of_origins
    (hpositions : r'.positions.map Position.origin
      = r.positions.map Position.origin)
    (htransitions : r.transitions <+: r'.transitions) : Accrues r r' where
  positions := by
    intro i p hp
    have horigin := congrArg (fun origins => origins[i]?) hpositions
    simp only [List.getElem?_map, hp, Option.map_some] at horigin
    exact Option.map_eq_some_iff.1 horigin
  transitions := htransitions

instance : BlindToOrders Accrues where
  refl := fun _ => accrues_of_origins rfl (List.prefix_refl _)
  trans := by
    intro r s r' h h'
    refine ⟨fun i p hp => ?_, h.transitions.trans h'.transitions⟩
    obtain ⟨q, hq, hpq⟩ := h.positions i p hp
    obtain ⟨q', hq', hqq'⟩ := h'.positions i q hq
    exact ⟨q', hq', hqq'.trans hpq⟩
  orders := fun _ _ => accrues_of_origins rfl (List.prefix_refl _)
  breaks := fun _ _ => accrues_of_origins rfl (List.prefix_refl _)

-- ============================================================== the jobs

private theorem keeps_accrues_transitionState (id : Nat)
    (toState : PositionState) (actor : StateTransitionActor)
    (reason : Option String) :
    Keeps Accrues (PositionRepository.transitionState id toState actor reason) :=
  keeps_bind (keeps_fetch _) fun _ => keeps_bind (keeps_orRaise _ _) fun _ =>
    keeps_flush fun _ => accrues_of_origins (map_modify_of_eq fun _ _ => rfl)
      (List.prefix_append _ _)

theorem allowsTrading_accrues : AllowsTrading Accrues where
  intents := fun _ _ => accrues_of_origins rfl (List.prefix_refl _)
  intent := fun _ => ⟨fun _ _ => accrues_of_origins rfl (List.prefix_refl _),
    fun _ => accrues_of_origins rfl (List.prefix_refl _)⟩
  trades := fun _ _ _ => accrues_of_origins rfl (List.prefix_refl _)
  trade := fun _ _ _ _ => accrues_of_origins rfl (List.prefix_refl _)
  inst := fun _ _ _ => accrues_of_origins rfl (List.prefix_refl _)
  position := fun _ _ _ hf => accrues_of_origins
    (map_modify_of_eq fun p _ =>
      Prod.ext (hf p).strategyInstanceId (hf p).tradeDate)
    (List.prefix_refl _)
  transition := fun _ _ _ _ => keeps_bind (keeps_fetch _) fun _ =>
    keeps_bind (keeps_orRaise _ _) fun _ => keeps_ite (keeps_pure _)
      (keeps_ite (keeps_accrues_transitionState _ _ _ _) (keeps_throw _))

theorem allowsEntry_accrues (ctx : StrategyContext) : AllowsEntry Accrues ctx := by
  intro selection
  refine keeps_getOrCreate (keeps_getByInstanceAndDate _ _) ?_
  refine keeps_bind (keeps_fetch _) fun _ => keeps_bind (keeps_flush fun r => ?_)
    fun _ => keeps_pure _
  refine ⟨fun i p hp => ⟨p, ?_, rfl⟩, List.prefix_refl _⟩
  dsimp only
  rw [List.getElem?_append_left (List.getElem?_eq_some_iff.1 hp).1]
  exact hp

-- ====================================================== the reconciliation

/-- The positions are of the instances and days they were of, and there
are no others. -/
def SameOrigins (r r' : Rows) : Prop :=
  r'.positions.map Position.origin = r.positions.map Position.origin

instance : BlindToOrders SameOrigins where
  refl := fun _ => rfl
  trans := fun h h' => h'.trans h
  orders := fun _ _ => rfl
  breaks := fun _ _ => rfl

/-- Audit rows stay. -/
def TrailKept (r r' : Rows) : Prop := r.transitions <+: r'.transitions

instance : BlindToOrders TrailKept where
  refl := fun _ => List.prefix_refl _
  trans := List.IsPrefix.trans
  orders := fun _ _ => List.prefix_refl _
  breaks := fun _ _ => List.prefix_refl _

/-- The seam respects the audit log: it is append-only. -/
def PositionReconciler.Appends (s : PositionReconciler) : Prop :=
  ∀ id, Keeps TrailKept (s.finalizeEntry id) ∧ Keeps TrailKept (s.finalizeExit id)

/-- What the schema and the seam's docstring ask of it. -/
structure PositionReconciler.Disciplined (s : PositionReconciler) : Prop where
  documented : s.Documented
  finishes : s.Finishes
  appends : s.Appends

namespace ReconciliationEngine

variable {reconciler : Option PositionReconciler}

private theorem keeps_sameOrigins_errorOfIntent (intent : OrderIntent)
    (reason : String) :
    Keeps SameOrigins (errorPositionOfIntent intent reason) := by
  have htransition : ∀ id toState actor reason, Keeps SameOrigins
      (PositionRepository.transitionState id toState actor reason) :=
    fun _ _ _ _ => keeps_bind (keeps_fetch _) fun _ =>
      keeps_bind (keeps_orRaise _ _) fun _ => keeps_flush fun _ =>
        map_modify_of_eq fun _ _ => rfl
  refine keeps_bind (keeps_fetch _) fun trade => ?_
  cases trade with
  | none => exact keeps_pure _
  | some trade =>
      refine keeps_bind (keeps_fetch _) fun row => ?_
      cases row with
      | none => exact keeps_pure _
      | some position =>
          exact keeps_ite (keeps_pure _) (keeps_bind (keeps_flush fun _ =>
            map_modify_of_eq fun _ _ => rfl) fun _ =>
            keeps_bind (htransition _ _ _ _) fun _ =>
              keeps_freezing (fun _ _ _ => rfl) _)

/-- Settling an intent creates no position. -/
theorem keeps_sameOrigins_intentSession (intentId : Nat)
    (ordersByTag : List (String × List BrokerOrder)) :
    Keeps SameOrigins (intentSession intentId ordersByTag) :=
  keeps_intentSession ⟨fun _ _ => rfl, fun _ _ _ => rfl, fun _ _ _ _ => rfl⟩
    keeps_sameOrigins_errorOfIntent _ _

/-- Nor does deciding one. -/
theorem keeps_sameOrigins_positionSession
    (hseam : ∀ s ∈ reconciler, s.Finishes) (id : Nat)
    (live : Option (List String)) (scan : List Nat) :
    Keeps SameOrigins (positionSession reconciler id live scan) := by
  intro db
  refine (positionSession_turn hseam db id live scan).imp
    (fun _ db' hturn => ?_) fun _ _ => trivial
  generalize db'.rows = r' at hturn
  cases hturn with
  | rests _ => rfl
  | moves _ _ hmoved => exact hmoved.identity

private theorem allowsVerdict_trailKept (id : Nat) :
    AllowsVerdict TrailKept id where
  breaks := fun _ _ => List.prefix_refl _
  position := fun _ _ => List.prefix_refl _
  transition := fun _ _ => List.prefix_append _ _
  inst := fun _ _ _ => List.prefix_refl _

private theorem keeps_trailKept_intentSession (intentId : Nat)
    (ordersByTag : List (String × List BrokerOrder)) :
    Keeps TrailKept (intentSession intentId ordersByTag) := by
  refine keeps_intentSession ⟨fun _ _ => List.prefix_refl _,
    fun _ _ _ => List.prefix_refl _, fun _ _ _ _ => List.prefix_refl _⟩
    (fun intent reason => ?_) _ _
  refine keeps_bind (keeps_fetch _) fun trade => ?_
  cases trade with
  | none => exact keeps_pure _
  | some trade =>
      refine keeps_bind (keeps_fetch _) fun row => ?_
      cases row with
      | none => exact keeps_pure _
      | some position =>
          exact keeps_ite (keeps_pure _)
            (keeps_errorByRecovery (allowsVerdict_trailKept _) _ _)

/-- A pass leaves what is there. -/
theorem along_accrues_reconcile (hseam : ∀ s ∈ reconciler, s.Disciplined) :
    Prog.Along (Waits Accrues) (reconcile reconciler) := by
  have hboth : ∀ {α : Type} {body : Session α}, Keeps SameOrigins body →
      Keeps TrailKept body → Keeps Accrues body :=
    fun horigins htrail db => ((horigins db).and (htrail db)).imp
      (fun _ _ h => accrues_of_origins h.1 h.2) fun _ _ => trivial
  refine along_reconcile (fun intentId ordersByTag => ?_)
    (fun _ _ => accrues_of_origins rfl (List.prefix_refl _))
    fun id live scan => ?_
  · exact hboth (keeps_sameOrigins_intentSession _ _)
      (keeps_trailKept_intentSession _ _)
  · exact hboth (keeps_sameOrigins_positionSession
        (fun s hs => (hseam s hs).finishes) id live scan)
      (keeps_positionSession (allowsVerdict_trailKept id)
        (fun s hs => (hseam s hs).appends id) live scan)

end ReconciliationEngine

-- ================================================================== runs

/-- Every act of every writer leaves what is there. -/
theorem along_accrues {reconciler : Option PositionReconciler}
    (hseam : ∀ s ∈ reconciler, s.Disciplined) (writer : Writer) :
    Prog.Along (OnRows Accrues) (writer.program reconciler) := by
  cases writer with
  | strategy ctx job =>
      exact allowsTrading_accrues.cycles.bears.job ctx (allowsEntry_accrues ctx) job
  | reconcile =>
      exact Prog.along_discard (along_onRows
        (ReconciliationEngine.along_accrues_reconcile hseam))

/-- A path out of CLOSED leads nowhere. -/
theorem path_of_closed {ts : List PositionStateTransition} {s : PositionState}
    (h : Path .closed ts s) : ts = [] ∧ s = .closed := by
  cases ts with
  | nil => exact ⟨rfl, h.symm⟩
  | cons t ts =>
      obtain ⟨-, hedge, -⟩ := h
      revert hedge
      cases t.toState <;> cases t.actor <;> exact nofun

/-- A path that continues another. -/
theorem path_of_append {ts us : List PositionStateTransition}
    {s m e : PositionState} (h : Path s ts m) (h' : Path s (ts ++ us) e) :
    Path m us e := by
  induction ts generalizing s with
  | nil =>
      cases h
      exact h'
  | cons t ts ih => exact ih h.2.2 h'.2.2

/-- CLOSED is final. -/
theorem Accrues.closed (h : Accrues r r') (hr : Charted r) (hr' : Charted r')
    {id : Nat} {p : Position} (hp : r.positions[id]? = some p)
    (hclosed : p.state = .closed) :
    ∃ q : Position, r'.positions[id]? = some q ∧ q.origin = p.origin
      ∧ q.state = .closed := by
  obtain ⟨q, hq, horigin⟩ := h.positions id p hp
  refine ⟨q, hq, horigin, ?_⟩
  obtain ⟨rest, hrest⟩ := h.transitions
  have htrail : trail r' id
      = trail r id ++ rest.filter (·.positionId = id) := by
    unfold trail
    rw [← hrest, List.filter_append]
  have hpath := hr'.path id q hq
  rw [htrail] at hpath
  exact (path_of_closed (hclosed ▸ path_of_append (hr.path id p hp) hpath)).2

namespace SampleDay

theorem seam_appends : seam.Appends := by
  have hmove : ∀ id toState, Keeps TrailKept
      (PositionRepository.transitionState id toState .recovery none) :=
    fun id toState => keeps_bind (keeps_fetch _) fun _ =>
      keeps_bind (keeps_orRaise _ _) fun _ =>
        keeps_flush fun _ => List.prefix_append _ _
  exact fun id => ⟨hmove id .open, hmove id .closed⟩

theorem seam_disciplined : ∀ s ∈ some seam, s.Disciplined := by
  intro s hs
  cases hs
  exact ⟨seam_documented, seam_finishes, seam_appends⟩

end SampleDay

end AlgoPlatform
