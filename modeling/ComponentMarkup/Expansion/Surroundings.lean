/-
  Where an element stands while a document is expanded.

  * `Surroundings`: the names of the elements around it and the class tokens of the components
    around it, both with the outermost first.
  * `enter`, `leave`: going into an element and out of it; `leave_enter` says that leaving undoes
    entering. `enterComponent`, `leaveComponent`: the same for class tokens.
-/

namespace ComponentMarkup

/-- The elements and the components that are being expanded, outermost first. -/
structure Surroundings where
  /-- The names of the open elements, the current one last. -/
  path : List String
  /-- The class tokens of the open components, the innermost last. -/
  tokens : List String
deriving DecidableEq, Repr

namespace Surroundings

/-- Outside of every element. -/
def none : Surroundings := ⟨[], []⟩

/-- Goes into an element. -/
def enter (s : Surroundings) (name : String) : Surroundings :=
  { s with path := s.path ++ [name] }

/-- Goes out of the innermost element. -/
def leave (s : Surroundings) : Surroundings :=
  { s with path := s.path.dropLast }

/-- Adds the class token of a component. -/
def enterComponent (s : Surroundings) (token : String) : Surroundings :=
  { s with tokens := s.tokens ++ [token] }

/-- Drops the innermost class token. -/
def leaveComponent (s : Surroundings) : Surroundings :=
  { s with tokens := s.tokens.dropLast }

/-- The names of the elements around the current one. -/
def parents (s : Surroundings) : List String := s.path.dropLast

@[simp] theorem leave_enter (s : Surroundings) (name : String) : (s.enter name).leave = s := by
  simp [enter, leave]

@[simp] theorem leaveComponent_enterComponent (s : Surroundings) (token : String) :
    (s.enterComponent token).leaveComponent = s := by
  simp [enterComponent, leaveComponent]

end Surroundings

end ComponentMarkup
