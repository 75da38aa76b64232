import Mathlib.Data.Fin.VecNotation
import Mathlib.Data.List.Basic
import Mathlib.Data.Rat.Defs
import EyeMaps.Framework.RigidMotion

/-!
# Locations, module-level variables and the `ContentView` closures

The data model of `Data/Location.swift`, the module-level variables that the views and the AR code
share, and what the closures of `ContentView` do to both.  A route lives twice: as four fields of a
`Location` (`directions` and three parallel coordinate arrays) and, while its map is open, as the
two module-level lists `directions` and `transformations`.  `ContentView.onAppear` unpacks the
stored form into the buffers, `ContentView.timer` packs the buffers back every 0.1 s.

Coordinates are elements of an arbitrary type `K` read as exact numbers (`Float` and `Double`
alike), so equality of locations is an equivalence: there is no NaN.

The specifications the later modules use are `unpack_eq_some` (the loop of `onAppear` appends the
waypoints of the location to whatever the buffer holds), the `timer_*` lemmas (what the loop of
the timer leaves in each field) and `waypoints_timer` (packing then unpacking is the identity).
-/

namespace EyeMaps

open Framework

variable {K : Type}

/-! ## Data/Location.swift -/

/-- `SIMD3<Float>`. -/
abbrev SIMD3 (K : Type) := Fin 3 → K

namespace SIMD3

def x (v : SIMD3 K) : K := v 0
def y (v : SIMD3 K) : K := v 1
def z (v : SIMD3 K) : K := v 2

@[simp] theorem x_mk (a b c : K) : SIMD3.x ![a, b, c] = a := rfl
@[simp] theorem y_mk (a b c : K) : SIMD3.y ![a, b, c] = b := rfl
@[simp] theorem z_mk (a b c : K) : SIMD3.z ![a, b, c] = c := rfl

@[simp] theorem eta (v : SIMD3 K) : (![v.x, v.y, v.z] : SIMD3 K) = v := by
  funext i
  fin_cases i <;> rfl

end SIMD3

/-- A rigid transform of the world, `float4x4` with an orthogonal rotation part. -/
abbrev Transform (K : Type) [CommRing K] := RigidMotion (Fin 3) K

abbrev UUID := BitVec 128

/-- `Data`, a sequence of bytes. -/
abbrev Data := List UInt8

structure GeoPoint (K : Type) where
  latitude : K
  longitude : K
  deriving DecidableEq

/-- `Location`.  Its equality is the synthesized `==` up to two points: Swift takes canonically
equivalent strings for equal, and `GeoPoint` compares its coordinates bit by bit, so that `0` and
`-0` differ there. -/
structure Location (K : Type) where
  id : UUID
  lat : K
  long : K
  title : String
  subtitle : String
  directions : List String
  worldData : Data
  transformationsX : List K
  transformationsY : List K
  transformationsZ : List K
  location : GeoPoint K
  deriving DecidableEq

/-- The four fields of a location that hold its route. -/
structure Route (K : Type) where
  directions : List String
  transformationsX : List K
  transformationsY : List K
  transformationsZ : List K
  deriving DecidableEq

namespace Location

def route (l : Location K) : Route K :=
  ⟨l.directions, l.transformationsX, l.transformationsY, l.transformationsZ⟩

/-- The three coordinate arrays have one entry for each waypoint. -/
def Balanced (l : Location K) : Prop :=
  l.transformationsX.length = l.transformationsY.length ∧
    l.transformationsX.length = l.transformationsZ.length

instance (l : Location K) : Decidable l.Balanced := inferInstanceAs (Decidable (_ ∧ _))

/-- The waypoints stored in a location. -/
def waypoints (l : Location K) : List (SIMD3 K) :=
  (l.transformationsX.zip (l.transformationsY.zip l.transformationsZ)).map
    fun p => ![p.1, p.2.1, p.2.2]

theorem length_waypoints {l : Location K} (h : l.Balanced) :
    l.waypoints.length = l.transformationsX.length := by
  simp [waypoints, ← h.1, ← h.2]

theorem map_x_waypoints {l : Location K} (h : l.Balanced) :
    l.waypoints.map SIMD3.x = l.transformationsX := by
  have hlen : l.transformationsX.length ≤ (l.transformationsY.zip l.transformationsZ).length := by
    simp [← h.1, ← h.2]
  simpa [waypoints, Function.comp_def] using List.map_fst_zip hlen

theorem map_y_waypoints {l : Location K} (h : l.Balanced) :
    l.waypoints.map SIMD3.y = l.transformationsY := by
  have hlen : (l.transformationsY.zip l.transformationsZ).length ≤ l.transformationsX.length := by
    simp [← h.1, ← h.2]
  have hyz : l.transformationsY.length ≤ l.transformationsZ.length := by
    simp [← h.1, ← h.2]
  calc l.waypoints.map SIMD3.y
      = ((l.transformationsX.zip (l.transformationsY.zip l.transformationsZ)).map
          Prod.snd).map Prod.fst := by
        simp [waypoints, Function.comp_def]
    _ = l.transformationsY := by
        rw [List.map_snd_zip hlen, List.map_fst_zip hyz]

theorem map_z_waypoints {l : Location K} (h : l.Balanced) :
    l.waypoints.map SIMD3.z = l.transformationsZ := by
  have hlen : (l.transformationsY.zip l.transformationsZ).length ≤ l.transformationsX.length := by
    simp [← h.1, ← h.2]
  have hzy : l.transformationsZ.length ≤ l.transformationsY.length := by
    simp [← h.1, ← h.2]
  calc l.waypoints.map SIMD3.z
      = ((l.transformationsX.zip (l.transformationsY.zip l.transformationsZ)).map
          Prod.snd).map Prod.snd := by
        simp [waypoints, Function.comp_def]
    _ = l.transformationsZ := by
        rw [List.map_snd_zip hlen, List.map_snd_zip hzy]

/-- Arrays read off a list of waypoints give the list back. -/
theorem waypoints_of_maps {l : Location K} {ws : List (SIMD3 K)}
    (hx : l.transformationsX = ws.map SIMD3.x) (hy : l.transformationsY = ws.map SIMD3.y)
    (hz : l.transformationsZ = ws.map SIMD3.z) : l.waypoints = ws := by
  rw [waypoints, hx, hy, hz, List.zip_map', List.zip_map', List.map_map]
  simp [Function.comp_def]

end Location

/-! ## Module-level variables

`ContentView.swift` declares `addAudio`, `directions` and `placed`, `Gestures.swift` declares
`placeIntitialAnchor` and `i`, and `CustomARView.swift` declares `transformations` and the entity
`camera`, of which only the position is ever written or read. -/

structure Globals (K : Type) where
  addAudio : Bool
  directions : List String
  placed : Bool
  placeIntitialAnchor : Bool
  i : ℕ
  transformations : List (SIMD3 K)
  camera : SIMD3 K
  deriving DecidableEq

/-- The module-level variables at launch. -/
def Globals.initial [Zero K] : Globals K where
  addAudio := false
  directions := []
  placed := false
  placeIntitialAnchor := false
  i := 0
  transformations := []
  camera := 0

/-- The items of the "Place Audio" menu; all six buttons run the same three statements on their
own string. -/
inductive MenuItem
  | turnLeft
  | turnRight
  | continueStraight
  | youveArrived
  | doorAhead
  | stepsAhead
  deriving DecidableEq

/-- The string a menu item appends. -/
def MenuItem.audio : MenuItem → String
  | .turnLeft => "left"
  | .turnRight => "right"
  | .continueStraight => "straight"
  | .youveArrived => "arrived"
  | .doorAhead => "door"
  | .stepsAhead => "steps"

namespace ContentView

/-! ## The closures of `ContentView` -/

/-- The loop of `onAppear`: one waypoint is appended to the module-level list for each index of
`transformationsX`; a missing `Y` or `Z` entry traps. -/
def unpack (l : Location K) (transformations : List (SIMD3 K)) : Option (List (SIMD3 K)) :=
  (List.range l.transformationsX.length).foldlM
    (fun acc i => do
      let x ← l.transformationsX[i]?
      let y ← l.transformationsY[i]?
      let z ← l.transformationsZ[i]?
      pure (acc ++ [![x, y, z]]))
    transformations

/-- `onAppear`: `directions` is replaced, `transformations` is appended to. -/
def onAppear (g : Globals K) (l : Location K) : Option (Globals K) := do
  let transformations ← unpack l g.transformations
  pure { g with directions := l.directions, transformations := transformations }

/-- The part of `onDisappear` that resets module-level variables. -/
def onDisappear (g : Globals K) : Globals K :=
  { g with directions := [], transformations := [], placeIntitialAnchor := false }

/-- What the 0.1 s timer writes through the binding, `worldMapData` being the `@State` variable
of the view. -/
def timer (g : Globals K) (worldMapData : Option Data) (l : Location K) : Location K :=
  g.transformations.foldl
    (fun l transform =>
      { l with
        transformationsX := l.transformationsX ++ [transform.x]
        transformationsY := l.transformationsY ++ [transform.y]
        transformationsZ := l.transformationsZ ++ [transform.z] })
    { l with
      directions := g.directions
      worldData := worldMapData.getD []
      transformationsX := []
      transformationsY := []
      transformationsZ := [] }

/-- A menu item, as far as it acts on module-level variables. -/
def press (item : MenuItem) (g : Globals K) : Globals K :=
  { g with directions := g.directions ++ [item.audio], addAudio := true }

/-- A menu item, as far as it acts through the binding. -/
def pressLocation (item : MenuItem) (l : Location K) : Location K :=
  { l with directions := l.directions ++ [item.audio] }

/-! ### Unpacking -/

/-- The loop of `onAppear` appends the waypoints of the location to the buffer. -/
theorem unpack_eq_some {l : Location K} (h : l.Balanced) (ws : List (SIMD3 K)) :
    unpack l ws = some (ws ++ l.waypoints) := by
  have hprefix : ∀ n ≤ l.transformationsX.length,
      (List.range n).foldlM
        (fun acc i => do
          let x ← l.transformationsX[i]?
          let y ← l.transformationsY[i]?
          let z ← l.transformationsZ[i]?
          pure (acc ++ [![x, y, z]])) ws = some (ws ++ l.waypoints.take n) := by
    intro n
    induction n with
    | zero => intro _; simp
    | succ n ih =>
      intro hn
      have hx : n < l.transformationsX.length := hn
      have hy : n < l.transformationsY.length := h.1 ▸ hx
      have hz : n < l.transformationsZ.length := h.2 ▸ hx
      have hw : l.waypoints[n]? = some ![l.transformationsX[n], l.transformationsY[n],
          l.transformationsZ[n]] := by
        rw [List.getElem?_eq_getElem (by rwa [Location.length_waypoints h])]
        simp [Location.waypoints]
      rw [List.range_succ, List.foldlM_append, ih (by omega), List.take_add_one, hw]
      simp [hx, hy, hz]
  rw [unpack, hprefix _ le_rfl, List.take_of_length_le (Location.length_waypoints h).le]

theorem onAppear_eq_some {l : Location K} (h : l.Balanced) (g : Globals K) :
    onAppear g l =
      some { g with
        directions := l.directions
        transformations := g.transformations ++ l.waypoints } := by
  simp [onAppear, unpack_eq_some h]

/-! ### Packing -/

/-- The loop of the timer, run from any arrays: it appends the coordinates to each of them and
leaves every other field alone. -/
theorem foldl_pack (ts : List (SIMD3 K)) (l : Location K) :
    ts.foldl
      (fun l transform =>
        { l with
          transformationsX := l.transformationsX ++ [transform.x]
          transformationsY := l.transformationsY ++ [transform.y]
          transformationsZ := l.transformationsZ ++ [transform.z] }) l =
      { l with
        transformationsX := l.transformationsX ++ ts.map SIMD3.x
        transformationsY := l.transformationsY ++ ts.map SIMD3.y
        transformationsZ := l.transformationsZ ++ ts.map SIMD3.z } := by
  induction ts generalizing l with
  | nil => simp
  | cons t ts ih => simp [ih]

theorem timer_eq (g : Globals K) (worldMapData : Option Data) (l : Location K) :
    timer g worldMapData l =
      { l with
        directions := g.directions
        worldData := worldMapData.getD []
        transformationsX := g.transformations.map SIMD3.x
        transformationsY := g.transformations.map SIMD3.y
        transformationsZ := g.transformations.map SIMD3.z } := by
  simp [timer, foldl_pack]

@[simp] theorem timer_id (g : Globals K) (worldMapData : Option Data) (l : Location K) :
    (timer g worldMapData l).id = l.id := by
  simp [timer_eq]

@[simp] theorem timer_worldData (g : Globals K) (worldMapData : Option Data) (l : Location K) :
    (timer g worldMapData l).worldData = worldMapData.getD [] := by
  simp [timer_eq]

@[simp] theorem timer_route (g : Globals K) (worldMapData : Option Data) (l : Location K) :
    (timer g worldMapData l).route =
      ⟨g.directions, g.transformations.map SIMD3.x, g.transformations.map SIMD3.y,
        g.transformations.map SIMD3.z⟩ := by
  simp [timer_eq, Location.route]

theorem balanced_timer (g : Globals K) (worldMapData : Option Data) (l : Location K) :
    (timer g worldMapData l).Balanced := by
  simp [timer_eq, Location.Balanced]

/-- Packing and then unpacking is the identity. -/
@[simp] theorem waypoints_timer (g : Globals K) (worldMapData : Option Data) (l : Location K) :
    (timer g worldMapData l).waypoints = g.transformations :=
  Location.waypoints_of_maps (by simp [timer_eq]) (by simp [timer_eq]) (by simp [timer_eq])

@[simp] theorem pressLocation_id (item : MenuItem) (l : Location K) :
    (pressLocation item l).id = l.id := rfl

end ContentView

/-! ## Two maps

The runs on fixed maps in the later modules use these two. -/

/-- A map with waypoints at 0 m and at 10 m. -/
def hallway : Location ℚ where
  id := 1
  lat := 0
  long := 0
  title := "Library"
  subtitle := "Hallway"
  directions := ["straight", "arrived"]
  worldData := []
  transformationsX := [0, 10]
  transformationsY := [0, 0]
  transformationsZ := [0, 0]
  location := ⟨0, 0⟩

/-- A map on which nothing has been recorded. -/
def entrance : Location ℚ where
  id := 2
  lat := 0
  long := 0
  title := "Library"
  subtitle := "Entrance"
  directions := []
  worldData := []
  transformationsX := []
  transformationsY := []
  transformationsZ := []
  location := ⟨0, 0⟩

end EyeMaps
