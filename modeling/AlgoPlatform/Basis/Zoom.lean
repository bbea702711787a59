/-
A program on part of a larger machine.

`Prog.zoom` runs a program on the part of the state that `get` reads and
`put` writes, under larger moves. What its acts do there they do within
the larger machine (`along_zoom`), so that what is proved of the program
on its own part need not be proved again.
-/
import AlgoPlatform.Basis.Prog

namespace Basis.Prog

variable {μ ν σ τ ε α : Type}

/-- The program, on its part of the larger state. -/
def zoom (move : ν → μ) (get : τ → σ) (put : τ → σ → τ) :
    Prog μ σ ε α → Prog ν τ ε α
  | .done r => .done r
  | .act f k => .act
      (fun m t => ((f (move m) (get t)).1, put t (f (move m) (get t)).2))
      fun b => (k b).zoom move get put

/-- A frame of the part is one of the whole. -/
theorem along_zoom {move : ν → μ} {get : τ → σ} {put : τ → σ → τ}
    {R : σ → σ → Prop} {T : τ → τ → Prop} {p : Prog μ σ ε α}
    (h : p.Along R) (hT : ∀ t s, R (get t) s → T t (put t s)) :
    (p.zoom move get put).Along T := by
  induction p with
  | done r => trivial
  | act f k ih =>
      intro m t _
      obtain ⟨hact, hrest⟩ := h (move m) (get t) trivial
      exact ⟨hT t _ hact, ih _ hrest⟩

/-- Two frames at once. -/
theorem Along.and {R S : σ → σ → Prop} {p : Prog μ σ ε α} (h : p.Along R)
    (h' : p.Along S) : p.Along fun s t => R s t ∧ S s t := by
  induction p with
  | done r => trivial
  | act f k ih =>
      intro m s _
      obtain ⟨hact, hrest⟩ := h m s trivial
      obtain ⟨hact', hrest'⟩ := h' m s trivial
      exact ⟨⟨hact, hact'⟩, ih _ hrest hrest'⟩

end Basis.Prog
