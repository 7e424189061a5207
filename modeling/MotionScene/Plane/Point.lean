import MotionScene.Number.Root

/-!
# Points of the plane

Points and offsets over any type of coordinates, with the arithmetic the curves
are built from.  Lengths are defined for coordinates that are doubles.
-/

namespace MotionScene

/-- A point of the plane, or an offset between two points. -/
structure Point (R : Type) where
  x : R
  y : R
deriving DecidableEq, Repr

namespace Point

variable {R : Type}

instance [Add R] : Add (Point R) where
  add p q := ⟨p.x + q.x, p.y + q.y⟩

instance [Sub R] : Sub (Point R) where
  sub p q := ⟨p.x - q.x, p.y - q.y⟩

instance [Neg R] : Neg (Point R) where
  neg p := ⟨-p.x, -p.y⟩

/-- A point with both coordinates multiplied by a factor. -/
def scale [Mul R] (p : Point R) (factor : R) : Point R :=
  ⟨p.x * factor, p.y * factor⟩

/-- The origin. -/
def zero [OfScientific R] : Point R :=
  ⟨0.0, 0.0⟩

/-- Whether the coordinates are equal as numbers: zero equals minus zero and NaN
equals nothing. -/
def agrees [BEq R] (p q : Point R) : Bool :=
  p.x == q.x && p.y == q.y

/-- Whether both coordinates equal zero. -/
def isZero [BEq R] [OfScientific R] (p : Point R) : Bool :=
  p.agrees zero

/-- A coordinate part of the way from one number to another. -/
def blend [Add R] [Sub R] [Mul R] (a b t : R) : R :=
  a + (b - a) * t

/-- The point part of the way from one point to another. -/
def lerp [Add R] [Sub R] [Mul R] (p q : Point R) (t : R) : Point R :=
  ⟨blend p.x q.x t, blend p.y q.y t⟩

/-- The point halfway between two points. -/
def midpoint [Add R] [Sub R] [Mul R] [OfScientific R] (p q : Point R) :
    Point R :=
  p.lerp q 0.5

@[simp] theorem add_x [Add R] (p q : Point R) : (p + q).x = p.x + q.x := rfl

@[simp] theorem add_y [Add R] (p q : Point R) : (p + q).y = p.y + q.y := rfl

@[simp] theorem sub_x [Sub R] (p q : Point R) : (p - q).x = p.x - q.x := rfl

@[simp] theorem sub_y [Sub R] (p q : Point R) : (p - q).y = p.y - q.y := rfl

@[simp] theorem neg_x [Neg R] (p : Point R) : (-p).x = -p.x := rfl

@[simp] theorem neg_y [Neg R] (p : Point R) : (-p).y = -p.y := rfl

@[simp] theorem scale_x [Mul R] (p : Point R) (factor : R) :
    (p.scale factor).x = p.x * factor := rfl

@[simp] theorem scale_y [Mul R] (p : Point R) (factor : R) :
    (p.scale factor).y = p.y * factor := rfl

/-! ## Lengths -/

/-- The length of an offset. -/
def length (p : Point Float) : Float :=
  Number.hypotenuse p.x p.y

/-- The distance between two points. -/
def distance (p q : Point Float) : Float :=
  (q - p).length

/-- The offset of length one in the same direction; an offset of length zero
gives zero. -/
def normalized (p : Point Float) : Point Float :=
  let size := p.length
  if size == 0.0 then zero else ⟨p.x / size, p.y / size⟩

end Point
end MotionScene
