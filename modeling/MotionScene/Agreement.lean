/-!
# Agreement of compound values

Doubles agree when they are equal as numbers, so that zero agrees with minus
zero and NaN with nothing.  Lists and optional values agree when they have the
same shape and their parts agree.
-/

namespace MotionScene
namespace Agreement

/-- Agreement of lists, item by item. -/
def list {α : Type} (agree : α → α → Bool) : List α → List α → Bool
  | [], [] => true
  | a :: rest, b :: others => agree a b && list agree rest others
  | _, _ => false

/-- Agreement of optional values. -/
def option {α : Type} (agree : α → α → Bool) : Option α → Option α → Bool
  | none, none => true
  | some a, some b => agree a b
  | _, _ => false

/-- Agreement of lists of doubles. -/
def floats : List Float → List Float → Bool :=
  list (· == ·)

end Agreement
end MotionScene
