import Mathlib.Algebra.Order.Field.Basic
import Mathlib.Algebra.Order.Ring.Rat
import Mathlib.Data.List.DropRight
import EyeMaps.Model.Location

/-!
# The segments of the focus square

The drawing of the focus entity in `AR/Foucs`: the eight segments of the classic style
(`FocusEntity+Segment.swift`, `setupClassic`), their open and close animations, and the two styles
of `FocusEntityComponent.swift`.  A segment is moved by adding and subtracting offsets, so whether
the square keeps its shape depends on the order in which `open` and `close` are called.

`Segment.closed_opened` and `Segment.outerEnd_opened` are what the later modules use: closing undoes
opening exactly, and neither moves the end of a segment that lies at the corner of the square.
-/

namespace EyeMaps

variable {K : Type}

/-- `Material.Color`, by its four components. -/
structure Color where
  red : ℚ
  green : ℚ
  blue : ℚ
  alpha : ℚ
  deriving DecidableEq

inductive MaterialColorParameter
  | color (color : Color)
  | texture (named : String)
  deriving DecidableEq

/-- `FocusEntityComponent.Style`; the mesh of a colored square is never looked at. -/
inductive Style
  | classic (color : Color)
  | colored (onColor offColor nonTrackingColor : MaterialColorParameter)
  deriving DecidableEq

namespace Style

/-- The style of `FocusEntityComponent.classic`. -/
def classicPreset : Style := .classic ⟨1, 4 / 5, 0, 1⟩

/-- The style of `FocusEntityComponent.plane`. -/
def planePreset : Style :=
  .colored (.color ⟨0, 1, 0, 1⟩) (.color ⟨1, 1 / 2, 0, 1⟩) (.color ⟨1, 0, 0, 1 / 5⟩)

end Style

namespace FocusEntity

inductive Corner
  | topLeft
  | topRight
  | bottomRight
  | bottomLeft
  deriving DecidableEq

inductive Alignment
  | horizontal
  | vertical
  deriving DecidableEq

inductive Direction
  | up
  | down
  | left
  | right
  deriving DecidableEq

def Direction.reversed : Direction → Direction
  | .up => .down
  | .down => .up
  | .left => .right
  | .right => .left

structure Segment (K : Type) where
  name : String
  corner : Corner
  alignment : Alignment
  color : Color
  scale : SIMD3 K
  position : SIMD3 K
  deriving DecidableEq

namespace Segment

variable [Field K]

def thickness : K := 0.018

def length : K := 0.5

def openLength : K := 0.2

/-- `Segment.init(name:corner:alignment:color:)`. -/
def create (name : String) (corner : Corner) (alignment : Alignment) (color : Color) :
    Segment K where
  name := name
  corner := corner
  alignment := alignment
  color := color
  scale :=
    match alignment with
    | .vertical => ![thickness, 1, length]
    | .horizontal => ![length, 1, thickness]
  position := 0

def openDirection (s : Segment K) : Direction :=
  match s.corner, s.alignment with
  | .topLeft, .horizontal => .left
  | .topLeft, .vertical => .up
  | .topRight, .horizontal => .right
  | .topRight, .vertical => .up
  | .bottomLeft, .horizontal => .left
  | .bottomLeft, .vertical => .down
  | .bottomRight, .horizontal => .right
  | .bottomRight, .vertical => .down

/-- The component of `scale` along the segment. -/
def extent (s : Segment K) : K :=
  match s.alignment with
  | .horizontal => s.scale.x
  | .vertical => s.scale.z

/-- The scale with another component along the segment. -/
def scaleWith (extent : K) (s : Segment K) : SIMD3 K :=
  match s.alignment with
  | .horizontal => ![extent, s.scale.y, s.scale.z]
  | .vertical => ![s.scale.x, s.scale.y, extent]

/-- `updatePosition(withOffset:for:)`, on the position itself. -/
def updatePosition (offset : K) (direction : Direction) (position : SIMD3 K) : SIMD3 K :=
  match direction with
  | .left => ![position.x - offset, position.y, position.z]
  | .right => ![position.x + offset, position.y, position.z]
  | .up => ![position.x, position.y, position.z - offset]
  | .down => ![position.x, position.y, position.z + offset]

/-- `Segment.open`. -/
def opened (s : Segment K) : Segment K :=
  { s with
    scale := s.scaleWith openLength
    position := updatePosition (length / 2 - openLength / 2) s.openDirection s.position }

/-- `Segment.close`. -/
def closed (s : Segment K) : Segment K :=
  let oldLength := s.extent
  { s with
    scale := s.scaleWith length
    position := updatePosition (length / 2 - oldLength / 2) s.openDirection.reversed s.position }

/-- The end of a segment that lies at its corner of the square. -/
def outerEnd (s : Segment K) : SIMD3 K := updatePosition (s.extent / 2) s.openDirection s.position

@[simp] theorem openDirection_opened (s : Segment K) : s.opened.openDirection = s.openDirection :=
  rfl

@[simp] theorem extent_opened (s : Segment K) : s.opened.extent = openLength := by
  obtain ⟨name, corner, alignment, color, scale, position⟩ := s
  cases alignment <;> rfl

theorem scaleWith_opened (s : Segment K) : s.opened.scaleWith s.extent = s.scale := by
  obtain ⟨name, corner, alignment, color, scale, position⟩ := s
  cases alignment <;> exact scale.eta

theorem updatePosition_updatePosition (a b : K) (d : Direction) (p : SIMD3 K) :
    updatePosition a d (updatePosition b d p) = updatePosition (b + a) d p := by
  cases d <;> simp [updatePosition] <;> ring

theorem updatePosition_reversed (a : K) (d : Direction) (p : SIMD3 K) :
    updatePosition a d.reversed (updatePosition a d p) = p := by
  cases d <;> simp [updatePosition, Direction.reversed]

/-- Closing an opened segment puts it back where it was, if it had its full length there. -/
theorem closed_opened {s : Segment K} (h : s.extent = length) : s.opened.closed = s := by
  have hscale : s.opened.scaleWith length = s.scale := by
    rw [← h, scaleWith_opened]
  have hposition : updatePosition (length / 2 - s.opened.extent / 2) s.openDirection.reversed
      s.opened.position = s.position := by
    rw [extent_opened]
    exact updatePosition_reversed _ _ _
  calc s.opened.closed
      = { s with
          scale := s.opened.scaleWith length
          position := updatePosition (length / 2 - s.opened.extent / 2) s.openDirection.reversed
            s.opened.position } := rfl
    _ = s := by
        rw [hscale, hposition]

/-- Opening a segment of full length shortens it towards its corner. -/
theorem outerEnd_opened {s : Segment K} (h : s.extent = length) :
    s.opened.outerEnd = s.outerEnd := by
  have hoffset : length / 2 - openLength / 2 + openLength / 2 = (length / 2 : K) := by ring
  calc s.opened.outerEnd
      = updatePosition (openLength / 2) s.openDirection
          (updatePosition (length / 2 - openLength / 2) s.openDirection s.position) := by
        rw [outerEnd, openDirection_opened, extent_opened]
        rfl
    _ = updatePosition (length / 2) s.openDirection s.position := by
        rw [updatePosition_updatePosition, hoffset]
    _ = s.outerEnd := by
        rw [outerEnd, h]

end Segment

/-! ## FocusEntity+Classic.swift -/

section Classic

variable [Field K]

/-- `FocusEntity.size`. -/
def size : K := 0.17

def scaleForClosedSquare : K := 0.97

def segCorners : List (Corner × Alignment) :=
  [(.topLeft, .horizontal), (.topRight, .horizontal),
    (.topLeft, .vertical), (.topRight, .vertical),
    (.bottomLeft, .vertical), (.bottomRight, .vertical),
    (.bottomLeft, .horizontal), (.bottomRight, .horizontal)]

/-- What `setupClassic` adds to the positions of the eight segments. -/
def segOffsets : List (SIMD3 K) :=
  let sl : K := Segment.length
  let c : K := Segment.thickness / 2
  [![-(sl / 2 - c), 0, -(sl - c)], ![sl / 2 - c, 0, -(sl - c)],
    ![-sl, 0, -sl / 2], ![sl, 0, -sl / 2],
    ![-sl, 0, sl / 2], ![sl, 0, sl / 2],
    ![-(sl / 2 - c), 0, sl - c], ![sl / 2 - c, 0, sl - c]]

/-- The eight segments as `setupClassic` has placed them before it opens them. -/
def closedSquare (color : Color) : List (Segment K) :=
  let segments := segCorners.mapIdx fun index cornerAlign =>
    Segment.create s!"s{index}" cornerAlign.1 cornerAlign.2 color
  List.zipWith (fun segment offset => { segment with position := segment.position + offset })
    segments segOffsets

theorem extent_of_mem_closedSquare {color : Color} {s : Segment K} (h : s ∈ closedSquare color) :
    s.extent = Segment.length := by
  simp only [closedSquare, segCorners, segOffsets, List.mapIdx_cons, List.mapIdx_nil,
    List.zipWith_cons_cons, List.zipWith_nil_left, List.mem_cons, List.not_mem_nil, or_false] at h
  rcases h with rfl | rfl | rfl | rfl | rfl | rfl | rfl | rfl <;> rfl

/-- Closing all segments of the open square gives the closed square. -/
theorem map_closed_map_opened (color : Color) :
    ((closedSquare color).map Segment.opened).map Segment.closed =
      (closedSquare color : List (Segment K)) := by
  rw [List.map_map]
  conv_rhs => rw [← List.map_id (closedSquare color)]
  exact List.map_congr_left fun s hs => Segment.closed_opened (extent_of_mem_closedSquare hs)

theorem map_outerEnd_map_opened (color : Color) :
    ((closedSquare color).map Segment.opened).map Segment.outerEnd =
      ((closedSquare color).map Segment.outerEnd : List (SIMD3 K)) := by
  rw [List.map_map]
  exact List.map_congr_left fun s hs => Segment.outerEnd_opened (extent_of_mem_closedSquare hs)

end Classic

end FocusEntity

end EyeMaps
