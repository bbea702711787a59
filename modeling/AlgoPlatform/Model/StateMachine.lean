/-
The legal graph of position states, as data, and the gate every
automated transition of the strategy goes through.
-/
import AlgoPlatform.Model.Repositories

open Basis Basis.Session

namespace AlgoPlatform

/-- `_ALLOWED_TRANSITIONS`. -/
def allowedTransitions : PositionState → List PositionState
  | .idle => [.entryPending, .error]
  | .entryPending => [.open, .closed, .error]
  | .open => [.exitPending, .error]
  | .exitPending => [.closed, .error]
  | .error => [.closed]
  | .closed => []

/-- `_ACTOR_RESTRICTED_EDGES`: the actors an edge is restricted to. -/
def actorRestrictedEdges (fromState toState : PositionState) :
    Option (List StateTransitionActor) :=
  match fromState, toState with
  | .error, .closed => some [.manual, .recovery]
  | _, _ => none

def isTransitionAllowed (fromState toState : PositionState) : Bool :=
  toState ∈ allowedTransitions fromState

def isTransitionAllowedForActor (fromState toState : PositionState)
    (actor : StateTransitionActor) : Bool :=
  isTransitionAllowed fromState toState
    && match actorRestrictedEdges fromState toState with
      | none => true
      | some actors => actor ∈ actors

namespace PositionStateMachine

/-- Move a position if the edge is legal for the actor; a transition to
the state it is already in writes nothing. -/
def transition (id : Nat) (toState : PositionState)
    (actor : StateTransitionActor) (reason : String) : Session Unit := do
  let position ← orRaise id (← PositionRepository.getById id)
  if position.state = toState then
    pure ()
  else if isTransitionAllowedForActor position.state toState actor then
    PositionRepository.transitionState id toState actor (some reason)
  else
    throw (.illegalStateTransition position.state toState actor)

def markError (id : Nat) (actor : StateTransitionActor) (reason : String) :
    Session Unit :=
  transition id .error actor reason

end PositionStateMachine

end AlgoPlatform
