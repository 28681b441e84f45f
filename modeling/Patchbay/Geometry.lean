/-!
# Plane geometry

Points, offsets and rectangles with single-precision coordinates, `y` growing downwards. Each step
is rounded to single precision, so the order of the operations in a definition is part of its
meaning.
-/

namespace Patchbay

/-- A difference of two points, or a size. -/
structure Offset where
  /-- To the right. -/
  x : Float32
  /-- Downwards. -/
  y : Float32
deriving DecidableEq, Inhabited

namespace Offset

/-- No offset. -/
def zero : Offset := ⟨0, 0⟩

/-- The sum of two offsets. -/
def add (a b : Offset) : Offset := ⟨a.x + b.x, a.y + b.y⟩

/-- The opposite offset. -/
def neg (a : Offset) : Offset := ⟨-a.x, -a.y⟩

/-- The offset stretched by a factor. -/
def scale (a : Offset) (k : Float32) : Offset := ⟨a.x * k, a.y * k⟩

instance : Add Offset := ⟨add⟩
instance : Neg Offset := ⟨neg⟩

/-- Whether an offset leads nowhere; either zero counts. -/
def isZero (a : Offset) : Bool := a.x == 0 && a.y == 0

/-- The distance travelled along both axes added to a distance travelled before. -/
def travel (a : Offset) (before : Float32) : Float32 :=
  before + a.x.abs + a.y.abs

end Offset

/-- A point of the plane. -/
structure Point where
  /-- Distance from the left. -/
  x : Float32
  /-- Distance from the top. -/
  y : Float32
deriving DecidableEq, Inhabited

namespace Point

/-- The point both of whose coordinates are zero. -/
def origin : Point := ⟨0, 0⟩

/-- The point reached by an offset. -/
def move (p : Point) (d : Offset) : Point := ⟨p.x + d.x, p.y + d.y⟩

/-- The point from which an offset leads here. -/
def moveBack (p : Point) (d : Offset) : Point := ⟨p.x - d.x, p.y - d.y⟩

/-- The offset that leads from another point to this one. -/
def offsetFrom (p q : Point) : Offset := ⟨p.x - q.x, p.y - q.y⟩

/-- The point on the way from `p` to `q`, `p` at zero and `q` at one. -/
def between (p q : Point) (t : Float32) : Point :=
  ⟨(1 - t) * p.x + t * q.x, (1 - t) * p.y + t * q.y⟩

instance : HAdd Point Offset Point := ⟨move⟩
instance : HSub Point Offset Point := ⟨moveBack⟩
instance : HSub Point Point Offset := ⟨offsetFrom⟩

end Point

/-- A rectangle between its upper left and its lower right corner. -/
structure Rect where
  min : Point
  max : Point
deriving DecidableEq, Inhabited

namespace Rect

/-- The rectangle of a size at a corner. -/
def ofCorner (corner : Point) (size : Offset) : Rect := ⟨corner, corner + size⟩

/-- The size of a rectangle. -/
def size (r : Rect) : Offset := r.max - r.min

/-- The rectangle of the same size at the corner moved by an offset. -/
def translate (r : Rect) (d : Offset) : Rect := .ofCorner (r.min + d) r.size

/-- The middle of a rectangle. -/
def center (r : Rect) : Point :=
  ⟨(r.min.x + r.max.x) / 2, (r.min.y + r.max.y) / 2⟩

/-- Whether a point lies inside; the border is outside. -/
def contains (r : Rect) (p : Point) : Bool :=
  r.min.x < p.x && p.x < r.max.x && r.min.y < p.y && p.y < r.max.y

end Rect

/--
The part of the plane in view. A point of the patch is shown at its position less the scroll.
-/
structure Viewport where
  /-- How far the view is scrolled. -/
  scroll : Offset := .zero
deriving DecidableEq, Inhabited

namespace Viewport

/-- Where a point of the patch is shown. -/
def toScreen (v : Viewport) (p : Point) : Point := p - v.scroll

/-- The point of the patch that is shown at a place. -/
def toWorld (v : Viewport) (p : Point) : Point := p + v.scroll

/-- Where a rectangle of the patch is shown. -/
def rectToScreen (v : Viewport) (r : Rect) : Rect := r.translate (-v.scroll)

end Viewport

end Patchbay
