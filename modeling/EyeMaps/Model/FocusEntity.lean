import EyeMaps.Model.FocusSquare
import EyeMaps.Framework.Machine

/-!
# The focus entity

The state machine of `AR/Foucs/FocusEntity.swift` with `FocusEntity+Alignment.swift` and the
animations of the two styles.  Every frame `updateFocusEntity` makes one raycast and writes
`state`; the observer of `state` then moves the entity, votes on its alignment, opens or closes
the square and calls the delegate.

ARKit and RealityKit enter as data: a `Frame` is what one update reads of the session, and objects
that the code compares by identity (raycast results, cameras, plane anchors) carry an identity.
The quaternion functions of simd and the rounding to `Float` are the parameter `Simd`.  A live
subscription to the update events of a scene is an entry of `subscriptions`; cancelling it removes
the entry, and nothing else does.

The properties fall into groups: what the appearance functions write (`Appearance`), what the
position and alignment functions write (`Geometry`), what no update writes (`Lifecycle`), and the
rest.  `stateChangedSetup_eq` and `updateTransform_eq` say that each kind of function stays in its
group; `updateFocusEntity_cases` lists what one update can do.
-/

namespace EyeMaps

open Framework

/-! ## Data -/

/-- `ARPlaneAnchor.Alignment`. -/
inductive PlaneAlignment
  | horizontal
  | vertical
  deriving DecidableEq

/-- An `ARPlaneAnchor`; two are equal when they are the same anchor. -/
structure ARPlaneAnchor where
  identifier : ℕ
  alignment : PlaneAlignment
  deriving DecidableEq

/-- `ARRaycastQuery.TargetAlignment`. -/
inductive TargetAlignment
  | horizontal
  | vertical
  | any
  deriving DecidableEq

/-- `ARRaycastQuery.Target`. -/
inductive RaycastTarget
  | existingPlaneGeometry
  | existingPlaneInfinite
  | estimatedPlane
  deriving DecidableEq

/-- `anchor` is the anchor of the result if that is a plane anchor. -/
structure ARRaycastResult (K : Type) [CommRing K] where
  object : ℕ
  target : RaycastTarget
  targetAlignment : TargetAlignment
  worldTransform : Transform K
  anchor : Option ARPlaneAnchor

inductive TrackingState
  | notAvailable
  | limited
  | normal
  deriving DecidableEq

structure ARCamera where
  object : ℕ
  trackingState : TrackingState
  deriving DecidableEq

/-- What one update reads of the AR session. -/
structure Frame (K Q : Type) [CommRing K] where
  camera : Option ARCamera
  results : List (ARRaycastResult K)
  cameraAnchor : Transform K
  rotation : Q

/-- The functions of simd on quaternions that the focus entity calls; the two constants are its
two uses of `simd_quatf(angle:axis:)`, a quarter turn about `x` and a half turn about `y`, and
`testVector` is `simd_float3(repeating: 1 / sqrtf(3))`.  `float` rounds the exact result of an
operation on `SIMD3<Float>` in each coordinate. -/
structure Simd (K Q : Type) [CommRing K] where
  quatf : Q
  quaternion : Transform K → Q
  mul : Q → Q → Q
  slerp : Q → Q → K → Q
  act : Q → SIMD3 K → SIMD3 K
  quarterTurn : Q
  halfTurn : Q
  testVector : SIMD3 K
  float : K → K

/-- `+` of `SIMD3<Float>`. -/
def Simd.add {K Q : Type} [CommRing K] (simd : Simd K Q) (v w : SIMD3 K) : SIMD3 K :=
  fun i => simd.float (v i + w i)

/-- `/` of `SIMD3<Float>` by a `Float`. -/
def Simd.div {K Q : Type} [Field K] (simd : Simd K Q) (v : SIMD3 K) (a : K) : SIMD3 K :=
  fun i => simd.float (v i / a)

/-- Rotations as matrices over `ℚ`.  The functions agree with those of simd, the vector up to the
rounding of `sqrtf`, except that only equal rotations are interpolated and that sums and quotients
are not rounded. -/
def rotationMatrices : Simd ℚ (Matrix (Fin 3) (Fin 3) ℚ) where
  quatf := 1
  quaternion t := t.linear
  mul p q := p * q
  slerp p _ _ := p
  act q v := q.mulVec v
  quarterTurn := !![1, 0, 0; 0, 0, -1; 0, 1, 0]
  halfTurn := !![-1, 0, 0; 0, 1, 0; 0, 0, -1]
  testVector := fun _ => 0.57735026
  float := id

/-- A frame without a camera. -/
def lostFrame : Frame ℚ (Matrix (Fin 3) (Fin 3) ℚ) := ⟨none, [], 1, 1⟩

/-- A quarter turn about `x`, a metre in front of the origin: where a wall in front of the camera
is. -/
def wall : Transform ℚ where
  linear := !![1, 0, 0; 0, 0, -1; 0, 1, 0]
  translation := ![0, 0, -1]
  orthogonal := by decide +kernel

/-- A frame that finds the plane of the wall. -/
def wallFrame : Frame ℚ (Matrix (Fin 3) (Fin 3) ℚ) :=
  ⟨some ⟨0, .normal⟩,
    [⟨0, .existingPlaneGeometry, .vertical, wall, some ⟨0, .vertical⟩⟩], 1, 1⟩

/-- A frame that finds a plane by estimate only. -/
def estimateFrame (alignment : TargetAlignment) (object : ℕ) :
    Frame ℚ (Matrix (Fin 3) (Fin 3) ℚ) :=
  ⟨some ⟨0, .normal⟩, [⟨object, .estimatedPlane, alignment, wall, none⟩], 1, 1⟩

inductive DelegateCall
  | toTrackingState
  | toInitializingState
  deriving DecidableEq

/-- A live subscription to the update events of a scene. -/
structure Subscription where
  token : ℕ
  scene : ℕ
  deriving DecidableEq

namespace FocusEntity

/-- `FocusEntity.State`. -/
inductive State (K : Type) [CommRing K]
  | initializing
  | tracking (raycastResult : ARRaycastResult K) (camera : Option ARCamera)

section State

variable {K : Type} [CommRing K]

/-- Equality of states; objects are compared by identity. -/
instance : BEq (State K) where
  beq
    | .initializing, .initializing => true
    | .tracking r camera, .tracking r' camera' =>
      r.object == r'.object && camera.map ARCamera.object == camera'.map ARCamera.object
    | _, _ => false

def State.isInitializing : State K → Bool
  | .initializing => true
  | .tracking _ _ => false

theorem State.isInitializing_of_beq {r : ARRaycastResult K} {camera : Option ARCamera}
    {state : State K} (h : (State.tracking r camera == state) = true) :
    state.isInitializing = false := by
  cases state with
  | initializing => exact absurd h Bool.false_ne_true
  | tracking _ _ => rfl

end State

end FocusEntity

open FocusEntity

/-- `FocusEntity` with its component; a view and its scene are one number.  `nextToken` numbers the
subscriptions, and `calls` are the calls made to the delegate since it was set.  The one child an
entity ever has is `positioningEntity`, under which everything is drawn. -/
structure FocusEntity (K Q : Type) [CommRing K] where
  style : Style
  isOpen : Bool
  segments : List (Segment K)
  arView : Option ℕ
  scene : Option ℕ
  /-- whether `positioningEntity` is among the `children` -/
  isPositioned : Bool
  nextToken : ℕ
  subscriptions : List Subscription
  updateCancellable : Option ℕ
  isAutoUpdating : Bool
  delegate : Option ℕ
  calls : List DelegateCall
  state : State K
  onPlane : Bool
  isAnimating : Bool
  isChangingAlignment : Bool
  currentAlignment : Option PlaneAlignment
  currentPlaneAnchor : Option ARPlaneAnchor
  recentFocusEntityPositions : List (SIMD3 K)
  recentFocusEntityAlignments : List PlaneAlignment
  anchorsOfVisitedPlanes : List ARPlaneAnchor
  position : SIMD3 K
  orientation : Q
  /-- the scale of `positioningEntity`, the same along all axes -/
  positioningScale : K
  /-- the base color of the first material of `fillPlane`, once there is a fill plane -/
  fillPlane : Option MaterialColorParameter

namespace FocusEntity

variable {K Q : Type} [Field K]

/-- The properties that opening, closing and recoloring write. -/
structure Appearance (K : Type) where
  isOpen : Bool
  segments : List (Segment K)
  positioningScale : K
  fillPlane : Option MaterialColorParameter

def appearance (e : FocusEntity K Q) : Appearance K :=
  ⟨e.isOpen, e.segments, e.positioningScale, e.fillPlane⟩

def withAppearance (a : Appearance K) (e : FocusEntity K Q) : FocusEntity K Q :=
  { e with
    isOpen := a.isOpen
    segments := a.segments
    positioningScale := a.positioningScale
    fillPlane := a.fillPlane }

/-- The properties that moving and aligning write. -/
structure Geometry (K Q : Type) where
  isChangingAlignment : Bool
  currentAlignment : Option PlaneAlignment
  recentFocusEntityPositions : List (SIMD3 K)
  recentFocusEntityAlignments : List PlaneAlignment
  position : SIMD3 K
  orientation : Q

def geometry (e : FocusEntity K Q) : Geometry K Q :=
  ⟨e.isChangingAlignment, e.currentAlignment, e.recentFocusEntityPositions,
    e.recentFocusEntityAlignments, e.position, e.orientation⟩

def withGeometry (g : Geometry K Q) (e : FocusEntity K Q) : FocusEntity K Q :=
  { e with
    isChangingAlignment := g.isChangingAlignment
    currentAlignment := g.currentAlignment
    recentFocusEntityPositions := g.recentFocusEntityPositions
    recentFocusEntityAlignments := g.recentFocusEntityAlignments
    position := g.position
    orientation := g.orientation }

/-- The properties that no update writes. -/
structure Lifecycle where
  style : Style
  arView : Option ℕ
  scene : Option ℕ
  isPositioned : Bool
  nextToken : ℕ
  subscriptions : List Subscription
  updateCancellable : Option ℕ
  isAutoUpdating : Bool
  delegate : Option ℕ

def lifecycle (e : FocusEntity K Q) : Lifecycle :=
  ⟨e.style, e.arView, e.scene, e.isPositioned, e.nextToken, e.subscriptions,
    e.updateCancellable, e.isAutoUpdating, e.delegate⟩

/-! ## Appearance -/

/-- `coloredStateChanged`; without a fill plane there is no material to write. -/
def coloredStateChanged (e : FocusEntity K Q) : FocusEntity K Q :=
  match e.style with
  | .classic _ => e
  | .colored onColor offColor nonTrackingColor =>
    let endColor :=
      if e.state.isInitializing then nonTrackingColor else if e.onPlane then onColor else offColor
    { e with fillPlane := e.fillPlane.map fun _ => endColor }

/-- `offPlaneAniation`. -/
def offPlaneAniation (e : FocusEntity K Q) : FocusEntity K Q :=
  if e.isOpen then e
  else
    { e with
      isOpen := true
      segments := e.segments.map Segment.opened
      positioningScale := size }

/-- `onPlaneAnimation`; the animation for a new plane is not implemented. -/
def onPlaneAnimation (_newPlane : Bool) (e : FocusEntity K Q) : FocusEntity K Q :=
  if e.isOpen then
    { e with
      isOpen := false
      segments := e.segments.map Segment.closed }
  else e

/-- `stateChanged(newPlane:)`. -/
def stateChanged (newPlane : Bool) (e : FocusEntity K Q) : FocusEntity K Q :=
  match e.style with
  | .colored _ _ _ => e.coloredStateChanged
  | .classic _ => if e.onPlane then e.onPlaneAnimation newPlane else e.offPlaneAniation

/-- `stateChangedSetup(newPlane:)`. -/
def stateChangedSetup (newPlane : Bool) (e : FocusEntity K Q) : FocusEntity K Q :=
  if e.isAnimating then e else e.stateChanged newPlane

theorem coloredStateChanged_eq (e : FocusEntity K Q) :
    e.coloredStateChanged = e.withAppearance e.coloredStateChanged.appearance := by
  unfold coloredStateChanged
  split <;> rfl

theorem offPlaneAniation_eq (e : FocusEntity K Q) :
    e.offPlaneAniation = e.withAppearance e.offPlaneAniation.appearance := by
  unfold offPlaneAniation
  split <;> rfl

theorem onPlaneAnimation_eq (newPlane : Bool) (e : FocusEntity K Q) :
    e.onPlaneAnimation newPlane = e.withAppearance (e.onPlaneAnimation newPlane).appearance := by
  unfold onPlaneAnimation
  split <;> rfl

/-- A change of appearance writes nothing else. -/
theorem stateChangedSetup_eq (newPlane : Bool) (e : FocusEntity K Q) :
    e.stateChangedSetup newPlane =
      e.withAppearance (e.stateChangedSetup newPlane).appearance := by
  unfold stateChangedSetup stateChanged
  split
  · rfl
  · split
    · exact e.coloredStateChanged_eq
    · split
      · exact e.onPlaneAnimation_eq newPlane
      · exact e.offPlaneAniation_eq

/-- `displayAsBillboard`. -/
def displayAsBillboard (e : FocusEntity K Q) : FocusEntity K Q :=
  { e with onPlane := false, currentAlignment := none }.stateChangedSetup false

/-! ## Position and alignment -/

section Geometry

variable [LinearOrder K] (simd : Simd K Q)

/-- The `average` of `updatePosition`. -/
def average (positions : List (SIMD3 K)) : SIMD3 K :=
  simd.div (positions.foldl simd.add 0) positions.length

/-- `updatePosition`: the mean of the last ten positions. -/
def updatePosition (e : FocusEntity K Q) : FocusEntity K Q :=
  let recent := e.recentFocusEntityPositions.rtake 10
  { e with
    recentFocusEntityPositions := recent
    position := average simd recent }

/-- `shouldContinueAlignAnim(to:)`. -/
def shouldContinueAlignAnim (newOrientation : Q) (e : FocusEntity K Q) : Bool :=
  let point1 := simd.act e.orientation simd.testVector
  let point2 := simd.act newOrientation simd.testVector
  decide (point1 ⬝ᵥ point2 < 0.999)

/-- `performAlignmentAnimation(to:)`. -/
def performAlignmentAnimation (newOrientation : Q) (e : FocusEntity K Q) : FocusEntity K Q :=
  let e := { e with orientation := simd.slerp e.orientation newOrientation 0.15 }
  { e with isChangingAlignment := e.shouldContinueAlignAnim simd newOrientation }

/-- `putInFrontOfCamera`. -/
def putInFrontOfCamera (frame : Frame K Q) (e : FocusEntity K Q) : FocusEntity K Q :=
  let newPosition := frame.cameraAnchor • (![0, 0, -1] : SIMD3 K)
  let newRotation := simd.mul
    (match e.arView with
      | some _ => frame.rotation
      | none => simd.quatf) simd.quarterTurn
  let e := { e with
    recentFocusEntityPositions := e.recentFocusEntityPositions ++ [newPosition] }
  (e.updatePosition simd).performAlignmentAnimation simd newRotation

/-- The alignment that a raycast result votes for. -/
def alignmentOf (r : ARRaycastResult K) : Option PlaneAlignment :=
  match r.anchor with
  | some planeAnchor => some planeAnchor.alignment
  | none =>
    match r.targetAlignment with
    | .horizontal => some .horizontal
    | .vertical => some .vertical
    | .any => none

/-- The orientation that a raycast result asks for, turned round on a plane seen from below. -/
def targetAlignment (r : ARRaycastResult K) : Q :=
  let target := simd.quaternion r.worldTransform
  match r.anchor with
  | some _ =>
    if (simd.act target ![0, 1, 0]).y < -0.9 then simd.mul target simd.halfTurn else target
  | none => target

/-- The recent alignments after a vote. -/
def vote (alignment : Option PlaneAlignment) (recent : List PlaneAlignment) :
    List PlaneAlignment :=
  (recent ++ alignment.toList).rtake 20

/-- Whether a result that votes for `alignment` is followed, given the recent alignments. -/
def isMajority (alignment : Option PlaneAlignment) (recent : List PlaneAlignment) : Prop :=
  alignment = some .horizontal ∧ recent.length * 3 / 4 < recent.count .horizontal ∨
    alignment = some .vertical ∧ recent.length / 2 < recent.count .vertical

instance (alignment : Option PlaneAlignment) (recent : List PlaneAlignment) :
    Decidable (isMajority alignment recent) := inferInstanceAs (Decidable (_ ∨ _))

/-- The first part of a followed result: the current alignment becomes that of the result. -/
def changeAlignment (alignment : Option PlaneAlignment) (target : Q) (e : FocusEntity K Q) :
    FocusEntity K Q :=
  if alignment ≠ e.currentAlignment ∨
      alignment = some .vertical ∧ e.shouldContinueAlignAnim simd target then
    { e with isChangingAlignment := true, currentAlignment := alignment }
  else e

/-- The second part: the entity turns towards the target, or all the way. -/
def turn (target : Q) (e : FocusEntity K Q) : FocusEntity K Q :=
  if e.isChangingAlignment then e.performAlignmentAnimation simd target
  else { e with orientation := target }

/-- `updateAlignment(for:)`. -/
def updateAlignment (r : ARRaycastResult K) (e : FocusEntity K Q) : FocusEntity K Q :=
  let target := targetAlignment simd r
  let alignment := alignmentOf r
  let recent := vote alignment e.recentFocusEntityAlignments
  let e := { e with recentFocusEntityAlignments := recent }
  if isMajority alignment recent ∨ r.anchor.isSome then
    (e.changeAlignment simd alignment target).turn simd target
  else e

/-- `updateTransform(raycastResult:)`. -/
def updateTransform (r : ARRaycastResult K) (e : FocusEntity K Q) : FocusEntity K Q :=
  let e := e.updatePosition simd
  if e.state.isInitializing then e else e.updateAlignment simd r

omit [LinearOrder K] in
@[simp] theorem withGeometry_withGeometry (g g' : Geometry K Q) (e : FocusEntity K Q) :
    (e.withGeometry g).withGeometry g' = e.withGeometry g' := rfl

theorem changeAlignment_eq (alignment : Option PlaneAlignment) (target : Q)
    (e : FocusEntity K Q) :
    e.changeAlignment simd alignment target =
      e.withGeometry (e.changeAlignment simd alignment target).geometry := by
  unfold changeAlignment
  split <;> rfl

theorem turn_eq (target : Q) (e : FocusEntity K Q) :
    e.turn simd target = e.withGeometry (e.turn simd target).geometry := by
  unfold turn
  split <;> rfl

theorem updateAlignment_eq (r : ARRaycastResult K) (e : FocusEntity K Q) :
    e.updateAlignment simd r = e.withGeometry (e.updateAlignment simd r).geometry := by
  simp only [updateAlignment]
  split
  · rw [turn_eq, changeAlignment_eq]
    rfl
  · rfl

/-- Moving and aligning writes nothing else. -/
theorem updateTransform_eq (r : ARRaycastResult K) (e : FocusEntity K Q) :
    e.updateTransform simd r = e.withGeometry (e.updateTransform simd r).geometry := by
  simp only [updateTransform]
  split
  · rfl
  · exact updateAlignment_eq simd r (e.updatePosition simd)

/-! ## The observer of `state` -/

/-- The move of `displayOffPlane`: to the place of the result once an alignment is known. -/
def moveOffPlane (frame : Frame K Q) (r : ARRaycastResult K) (e : FocusEntity K Q) :
    FocusEntity K Q :=
  if e.currentAlignment.isSome then
    { e with
      recentFocusEntityPositions :=
        e.recentFocusEntityPositions ++ [r.worldTransform.translation]
      }.performAlignmentAnimation simd (simd.quaternion r.worldTransform)
  else e.putInFrontOfCamera simd frame

/-- `displayOffPlane(for:)`. -/
def displayOffPlane (frame : Frame K Q) (r : ARRaycastResult K) (e : FocusEntity K Q) :
    FocusEntity K Q :=
  ((e.stateChangedSetup false).moveOffPlane simd frame r).updateTransform simd r

/-- `entityOffPlane`. -/
def entityOffPlane (frame : Frame K Q) (r : ARRaycastResult K) (e : FocusEntity K Q) :
    FocusEntity K Q :=
  { e with onPlane := false }.displayOffPlane simd frame r

/-- The move of `entityOnPlane`, which does not turn the entity. -/
def moveOnPlane (frame : Frame K Q) (r : ARRaycastResult K) (e : FocusEntity K Q) :
    FocusEntity K Q :=
  if e.currentAlignment.isSome then
    { e with
      recentFocusEntityPositions :=
        e.recentFocusEntityPositions ++ [r.worldTransform.translation] }
  else e.putInFrontOfCamera simd frame

/-- `entityOnPlane(for:planeAnchor:)`. -/
def entityOnPlane (frame : Frame K Q) (r : ARRaycastResult K) (planeAnchor : ARPlaneAnchor)
    (e : FocusEntity K Q) : FocusEntity K Q :=
  let e := { e with onPlane := true }
  let e := e.stateChangedSetup (planeAnchor ∉ e.anchorsOfVisitedPlanes)
  let e := { e with anchorsOfVisitedPlanes := e.anchorsOfVisitedPlanes.insert planeAnchor }
  (e.moveOnPlane simd frame r).updateTransform simd r

/-- The two cases of the observer for a new raycast result. -/
def track (frame : Frame K Q) (r : ARRaycastResult K) (e : FocusEntity K Q) : FocusEntity K Q :=
  match r.anchor with
  | some planeAnchor =>
    { e.entityOnPlane simd frame r planeAnchor with currentPlaneAnchor := some planeAnchor }
  | none => { e.entityOffPlane simd frame r with currentPlaneAnchor := none }

/-- A call to the delegate, if there is one. -/
def notify (call : DelegateCall) (e : FocusEntity K Q) : FocusEntity K Q :=
  match e.delegate with
  | some _ => { e with calls := e.calls ++ [call] }
  | none => e

/-- An assignment to `state` with its observer. -/
def setState (frame : Frame K Q) (newValue : State K) (e : FocusEntity K Q) : FocusEntity K Q :=
  let oldValue := e.state
  let e := { e with state := newValue }
  if newValue == oldValue then e
  else
    match newValue with
    | .initializing =>
      if oldValue.isInitializing then e else e.displayAsBillboard.notify .toInitializingState
    | .tracking r _ =>
      let e := e.track simd frame r
      if oldValue.isInitializing then e.notify .toTrackingState else e

theorem moveOffPlane_eq (frame : Frame K Q) (r : ARRaycastResult K) (e : FocusEntity K Q) :
    e.moveOffPlane simd frame r =
      e.withGeometry (e.moveOffPlane simd frame r).geometry := by
  unfold moveOffPlane
  split <;> rfl

theorem moveOnPlane_eq (frame : Frame K Q) (r : ARRaycastResult K) (e : FocusEntity K Q) :
    e.moveOnPlane simd frame r =
      e.withGeometry (e.moveOnPlane simd frame r).geometry := by
  unfold moveOnPlane
  split <;> rfl

theorem displayOffPlane_eq (frame : Frame K Q) (r : ARRaycastResult K) (e : FocusEntity K Q) :
    e.displayOffPlane simd frame r =
      (e.stateChangedSetup false).withGeometry (e.displayOffPlane simd frame r).geometry := by
  rw [displayOffPlane, updateTransform_eq, moveOffPlane_eq]
  rfl

theorem entityOnPlane_eq (frame : Frame K Q) (r : ARRaycastResult K)
    (planeAnchor : ARPlaneAnchor) (e : FocusEntity K Q) :
    e.entityOnPlane simd frame r planeAnchor =
      { ({ e with onPlane := true }.stateChangedSetup
          (planeAnchor ∉ e.anchorsOfVisitedPlanes)).withGeometry
            (e.entityOnPlane simd frame r planeAnchor).geometry with
        anchorsOfVisitedPlanes := (e.entityOnPlane simd frame r planeAnchor).anchorsOfVisitedPlanes
        } := by
  simp only [entityOnPlane]
  rw [updateTransform_eq, moveOnPlane_eq]
  rfl

/-- What tracking writes besides the geometry: the square is drawn for whether the result lies on a
plane, and that plane is remembered. -/
theorem track_eq (frame : Frame K Q) (r : ARRaycastResult K) (e : FocusEntity K Q) :
    ∃ newPlane g visited, e.track simd frame r =
      { ({ e with onPlane := r.anchor.isSome }.stateChangedSetup newPlane).withGeometry g with
        anchorsOfVisitedPlanes := visited
        currentPlaneAnchor := r.anchor } := by
  unfold track
  split
  next planeAnchor hanchor =>
    rw [hanchor, entityOnPlane_eq]
    exact ⟨_, _, _, rfl⟩
  next hanchor =>
    rw [hanchor, entityOffPlane, displayOffPlane_eq]
    exact ⟨_, _, _, rfl⟩

/-! ## Updates -/

/-- `smartRaycast`: a result on the geometry of a known plane, or else one on an estimated plane. -/
def smartRaycast (frame : Frame K Q) (e : FocusEntity K Q) : Option (ARRaycastResult K) :=
  match e.arView with
  | none => none
  | some _ =>
    (frame.results.find? fun r => r.target = .existingPlaneGeometry).or
      (frame.results.find? fun r => r.target = .estimatedPlane)

/-- The camera of the current frame, if its tracking is normal. -/
def trackingCamera (frame : Frame K Q) (e : FocusEntity K Q) : Option ARCamera :=
  match e.arView with
  | none => none
  | some _ => frame.camera.filter fun camera => camera.trackingState = .normal

/-- `updateFocusEntity`. -/
def updateFocusEntity (frame : Frame K Q) (e : FocusEntity K Q) : FocusEntity K Q :=
  match e.trackingCamera frame, e.smartRaycast frame with
  | some camera, some result => e.setState simd frame (.tracking result (some camera))
  | _, _ => (e.putInFrontOfCamera simd frame).setState simd frame .initializing

theorem setState_initializing (frame : Frame K Q) (e : FocusEntity K Q) :
    e.setState simd frame .initializing =
      if e.state.isInitializing then e
      else { e with state := .initializing }.displayAsBillboard.notify .toInitializingState := by
  cases hstate : e.state with
  | initializing =>
    have hbeq : (State.initializing == e.state) = true := by
      rw [hstate]
      rfl
    simp only [setState, hbeq, State.isInitializing, if_true]
    rw [← hstate]
  | tracking r camera =>
    have hbeq : (State.initializing == e.state) = false := by
      rw [hstate]
      rfl
    simp [setState, hstate, State.isInitializing]

/-- The state that an update assigns. -/
def observation (frame : Frame K Q) (e : FocusEntity K Q) : State K :=
  match e.trackingCamera frame, e.smartRaycast frame with
  | some camera, some result => .tracking result (some camera)
  | _, _ => .initializing

/-- The four things an update can do: with nothing to track it moves the entity in front of the
camera, and gives up the old result if there is one; the result it tracks already it leaves alone;
a new one it tracks. -/
theorem updateFocusEntity_cases (frame : Frame K Q) (e : FocusEntity K Q) :
    (e.observation frame = .initializing ∧ e.state.isInitializing = true ∧
      e.updateFocusEntity simd frame = e.putInFrontOfCamera simd frame) ∨
    (e.observation frame = .initializing ∧ e.state.isInitializing = false ∧
      e.updateFocusEntity simd frame =
        { e.putInFrontOfCamera simd frame with
          state := .initializing }.displayAsBillboard.notify .toInitializingState) ∨
    (∃ r camera, e.observation frame = .tracking r camera ∧
      (State.tracking r camera == e.state) = true ∧
      e.updateFocusEntity simd frame = { e with state := .tracking r camera }) ∨
    (∃ r camera, e.observation frame = .tracking r camera ∧
      (State.tracking r camera == e.state) = false ∧
      e.updateFocusEntity simd frame =
        let e' := { e with state := .tracking r camera }.track simd frame r
        if e.state.isInitializing then e'.notify .toTrackingState else e') := by
  unfold updateFocusEntity observation
  split
  next camera r _ _ =>
    by_cases hbeq : (State.tracking r (some camera) == e.state) = true
    · exact .inr (.inr (.inl ⟨r, _, rfl, hbeq, by simp [setState, hbeq]⟩))
    · have hbeq : (State.tracking r (some camera) == e.state) = false := by simpa using hbeq
      exact .inr (.inr (.inr ⟨r, _, rfl, hbeq, by simp [setState, hbeq]⟩))
  next =>
    have hstate : (e.putInFrontOfCamera simd frame).state = e.state := rfl
    rw [setState_initializing, hstate]
    cases e.state.isInitializing with
    | true => exact .inl ⟨rfl, rfl, rfl⟩
    | false => exact .inr (.inl ⟨rfl, rfl, rfl⟩)

omit [LinearOrder K] in
@[simp] theorem lifecycle_stateChangedSetup (newPlane : Bool) (e : FocusEntity K Q) :
    (e.stateChangedSetup newPlane).lifecycle = e.lifecycle := by
  rw [stateChangedSetup_eq]
  rfl

omit [LinearOrder K] in
@[simp] theorem lifecycle_notify (call : DelegateCall) (e : FocusEntity K Q) :
    (e.notify call).lifecycle = e.lifecycle := by
  unfold notify
  split <;> rfl

theorem lifecycle_track (frame : Frame K Q) (r : ARRaycastResult K) (e : FocusEntity K Q) :
    (e.track simd frame r).lifecycle = e.lifecycle := by
  obtain ⟨newPlane, g, visited, heq⟩ := track_eq simd frame r e
  rw [heq]
  exact lifecycle_stateChangedSetup newPlane { e with onPlane := r.anchor.isSome }

/-- An update never touches the subscription, the view or the delegate. -/
theorem lifecycle_updateFocusEntity (frame : Frame K Q) (e : FocusEntity K Q) :
    (e.updateFocusEntity simd frame).lifecycle = e.lifecycle := by
  rcases updateFocusEntity_cases simd frame e with
    ⟨-, -, heq⟩ | ⟨-, -, heq⟩ | ⟨r, camera, -, -, heq⟩ | ⟨r, camera, -, -, heq⟩
  · rw [heq]
    rfl
  · rw [heq, lifecycle_notify, displayAsBillboard, lifecycle_stateChangedSetup]
    rfl
  · rw [heq]
    rfl
  · rw [heq]
    dsimp only
    split
    · rw [lifecycle_notify, lifecycle_track]
      rfl
    · rw [lifecycle_track]
      rfl

end Geometry

/-! ## Lifecycle -/

/-- `setAutoUpdate(to:)`. -/
def setAutoUpdate (autoUpdate : Bool) (e : FocusEntity K Q) : FocusEntity K Q :=
  if autoUpdate = e.isAutoUpdating then e
  else
    match e.arView with
    | none => e
    | some scene =>
      if autoUpdate then
        { e with
          nextToken := e.nextToken + 1
          subscriptions := e.subscriptions ++ [⟨e.nextToken, scene⟩]
          updateCancellable := some e.nextToken
          isAutoUpdating := true }
      else
        { e with
          subscriptions := e.subscriptions.filter fun s => some s.token ≠ e.updateCancellable
          isAutoUpdating := false }

/-- The lifecycle of `l` but for the style, which nothing writes. -/
def withLifecycle (l : Lifecycle) (e : FocusEntity K Q) : FocusEntity K Q :=
  { e with
    arView := l.arView
    scene := l.scene
    isPositioned := l.isPositioned
    nextToken := l.nextToken
    subscriptions := l.subscriptions
    updateCancellable := l.updateCancellable
    isAutoUpdating := l.isAutoUpdating
    delegate := l.delegate }

theorem setAutoUpdate_eq (autoUpdate : Bool) (e : FocusEntity K Q) :
    e.setAutoUpdate autoUpdate = e.withLifecycle (e.setAutoUpdate autoUpdate).lifecycle := by
  unfold setAutoUpdate
  split
  · rfl
  · split
    · rfl
    · split <;> rfl

@[simp] theorem delegate_setAutoUpdate (autoUpdate : Bool) (e : FocusEntity K Q) :
    (e.setAutoUpdate autoUpdate).delegate = e.delegate := by
  unfold setAutoUpdate
  split
  · rfl
  · split
    · rfl
    · split <;> rfl

/-- `moveTo(view:)`. -/
def moveTo (view : ℕ) (e : FocusEntity K Q) : FocusEntity K Q :=
  let wasUpdating := e.isAutoUpdating
  let e := e.setAutoUpdate false
  let e := { e with arView := some view, scene := some view }
  if wasUpdating then e.setAutoUpdate true else e

theorem moveTo_eq (view : ℕ) (e : FocusEntity K Q) :
    e.moveTo view = e.withLifecycle (e.moveTo view).lifecycle := by
  simp only [moveTo]
  split
  · rw [setAutoUpdate_eq true, setAutoUpdate_eq false]
    rfl
  · rw [setAutoUpdate_eq false]
    rfl

theorem delegate_moveTo (view : ℕ) (e : FocusEntity K Q) :
    (e.moveTo view).delegate = e.delegate := by
  simp only [moveTo]
  split <;> simp

/-- `destroy`; the loop over the children removes `positioningEntity`. -/
def destroy (e : FocusEntity K Q) : FocusEntity K Q :=
  { e.setAutoUpdate false with
    delegate := none
    calls := []
    arView := none
    isPositioned := false
    scene := none }

theorem destroy_eq (e : FocusEntity K Q) :
    e.destroy = { e.withLifecycle e.destroy.lifecycle with calls := [] } := by
  rw [destroy, setAutoUpdate_eq]
  rfl

/-- The delegate is a weak property that anyone may set. -/
def setDelegate (delegate : Option ℕ) (e : FocusEntity K Q) : FocusEntity K Q :=
  { e with delegate := delegate, calls := [] }

/-- `setupClassic`. -/
def setupClassic (color : Color) (e : FocusEntity K Q) : FocusEntity K Q :=
  { e with
    segments := (closedSquare color).map Segment.opened
    positioningScale := size * scaleForClosedSquare }

/-- The switch over the style that ends `init(on:focus:)`. -/
def setupStyle (e : FocusEntity K Q) : FocusEntity K Q :=
  match e.style with
  | .colored _ _ nonTrackingColor =>
    { e with fillPlane := some nonTrackingColor }.coloredStateChanged
  | .classic color => e.setupClassic color

/-- `init(on:focus:)` for a focus component of the given style. -/
def create (simd : Simd K Q) (view : ℕ) (style : Style) : FocusEntity K Q :=
  let e : FocusEntity K Q :=
    { style := style
      isOpen := true
      segments := []
      arView := some view
      scene := none
      isPositioned := true
      nextToken := 0
      subscriptions := []
      updateCancellable := none
      isAutoUpdating := false
      delegate := none
      calls := []
      state := .initializing
      onPlane := false
      isAnimating := false
      isChangingAlignment := false
      currentAlignment := none
      currentPlaneAnchor := none
      recentFocusEntityPositions := []
      recentFocusEntityAlignments := []
      anchorsOfVisitedPlanes := []
      position := 0
      orientation := simd.quarterTurn
      positioningScale := 1
      fillPlane := none }
  let e := e.displayAsBillboard.notify .toInitializingState
  let e := { e with scene := some view }
  (e.setAutoUpdate true).setupStyle

/-! ## The machine -/

/-- What happens to a focus entity: the update event of a scene, which runs the handler of every
live subscription to it, a direct call of `updateFocusEntity`, and the calls of its owner. -/
inductive Event (K Q : Type) [CommRing K]
  | sceneUpdate (scene : ℕ) (frame : Frame K Q)
  | update (frame : Frame K Q)
  | setAutoUpdate (autoUpdate : Bool)
  | moveTo (view : ℕ)
  | destroy
  | setDelegate (delegate : Option ℕ)

variable [LinearOrder K]

/-- The update event of a scene. -/
def sceneUpdate (simd : Simd K Q) (scene : ℕ) (frame : Frame K Q) (e : FocusEntity K Q) :
    FocusEntity K Q :=
  (e.subscriptions.filter fun s => s.scene = scene).foldl
    (fun e _ => e.updateFocusEntity simd frame) e

/-- The focus entity as a machine. -/
def machine (simd : Simd K Q) : Machine (FocusEntity K Q) (Event K Q) where
  step e
    | .sceneUpdate scene frame => some (e.sceneUpdate simd scene frame)
    | .update frame => some (e.updateFocusEntity simd frame)
    | .setAutoUpdate autoUpdate => some (e.setAutoUpdate autoUpdate)
    | .moveTo view => some (e.moveTo view)
    | .destroy => some e.destroy
    | .setDelegate delegate => some (e.setDelegate delegate)

end FocusEntity

end EyeMaps
