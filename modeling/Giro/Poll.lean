/-
  Giro.Poll — what one look at something that takes time gives.
-/

namespace Giro

/-- Not done yet, or done with a value. -/
inductive Poll (α : Type) where
  | pending
  | ready (value : α)
  deriving DecidableEq

/-- The value, once there is one, through `f`. -/
def Poll.map {α β : Type} (f : α → β) : Poll α → Poll β
  | pending => pending
  | ready a => ready (f a)

/-- Not done yet. -/
def Poll.isPending {α : Type} : Poll α → Bool
  | pending => true
  | ready _ => false

end Giro
