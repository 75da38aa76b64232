import EyeMaps.Model.Scene

/-!
# The AR view

`CustomARView` with its extensions: the gesture timer and the tap handler of `Gestures.swift`, the
camera timer of `setup`, the delegate call `session(_:didAdd:)` with `addAnchorEntityToScene`, and
`saveExperience` and `loadExperience` of `SaveLoadMap.swift`.

ARKit and RealityKit enter as data.  A raycast is one of its three outcomes (`Raycast`), a tap
carries the transform of its hit, `AudioFileResource.load` succeeds or throws for each box, and an
unarchived world map is the list of its anchors.  A session is the list of its anchors.

The two facts about the gesture timer that every later module uses are
`gestureTimer_transformations` (the waypoint list grows by `accepted`, the raycast hits that
`rayCastingMethod` takes) and `gestureTimer_of_no_request` (with no request pending the timer does
nothing).  `sessionDidAdd_scene` says which boxes a delivery creates.
-/

namespace EyeMaps

open Framework

/-- An anchor of a session; `imageData` is there exactly for a `SnapshotAnchor`. -/
structure ARAnchor (K : Type) [CommRing K] where
  name : Option String
  transform : Transform K
  imageData : Option Data := none

def ARAnchor.isSnapshot {K : Type} [CommRing K] (anchor : ARAnchor K) : Bool :=
  anchor.imageData.isSome

/-- One raycast from the centre of the screen: `makeRaycastQuery` gives no query, the session has
no result, or the first result has the given `worldTransform`. -/
inductive Raycast (K : Type) [CommRing K]
  | noQuery
  | noResult
  | hit (worldTransform : Transform K)

/-- The position of an entity in the tree: its parent's transform and its own translation. -/
structure Placement (K : Type) [CommRing K] where
  parent : Transform K
  translation : SIMD3 K

/-- The world position of a placed entity. -/
def Placement.position {K : Type} [CommRing K] (p : Placement K) : SIMD3 K :=
  p.parent • p.translation

/-- The stored properties of `CustomARView` that the code below reads or writes. -/
structure CustomARView (K : Type) [CommRing K] where
  location : Location K
  distances : List (SIMD3 K)
  anchorz : List (ARAnchor K)
  virtualObjectAnchor : Option (ARAnchor K)
  virtualObject : Placement K
  isRelocalizingMap : Bool
  /-- anchors of `self.session` -/
  session : List (ARAnchor K)

namespace CustomARView

variable {K : Type} [CommRing K]

def virtualObjectAnchorName : String := "virtualObject"

/-- `CustomARView.init`: the view copies the location it is given. -/
def create (l : Location K) : CustomARView K where
  location := l
  distances := []
  anchorz := []
  virtualObjectAnchor := none
  virtualObject := ⟨1, 0⟩
  isRelocalizingMap := false
  session := []

/-! ## Gestures.swift -/

/-- `rayCastingMethod`. -/
def rayCastingMethod (r : Raycast K) (g : Globals K) (view : CustomARView K) :
    Globals K × CustomARView K :=
  match r with
  | .noQuery => ({ g with placed := false }, view)
  | .noResult => ({ g with placed := false }, view)
  | .hit worldTransform =>
    match view.virtualObjectAnchor with
    | some anchor =>
      ({ g with
          transformations := g.transformations ++ [worldTransform.translation]
          placed := true
          i := g.i + 1 },
        { view with
          distances := view.distances ++ [(anchor.transform⁻¹ * worldTransform).translation] })
    | none => ({ g with i := g.i + 1 }, view)

/-- Make a new virtual-object anchor at `worldTransform`, remember it and add it to the session;
the previous anchor stays in the session. -/
def addVirtualObjectAnchor (worldTransform : Transform K) (view : CustomARView K) :
    CustomARView K :=
  let anchor : ARAnchor K := { name := some virtualObjectAnchorName, transform := worldTransform }
  { view with
    virtualObjectAnchor := some anchor
    anchorz := view.anchorz ++ [anchor]
    session := view.session ++ [anchor] }

/-- The first half of the 1 s timer of `setupGestures`: a pending `addAudio` request is served by
one raycast and cleared whatever came of it. -/
def serveAudio (r : Raycast K) (g : Globals K) (view : CustomARView K) :
    Globals K × CustomARView K :=
  if g.addAudio then
    let p := rayCastingMethod r g view
    ({ p.1 with addAudio := false }, p.2)
  else (g, view)

/-- The second half: a pending placement request is cleared only by a successful raycast. -/
def servePlacement (r : Raycast K) (g : Globals K) (view : CustomARView K) :
    Globals K × CustomARView K :=
  if g.placeIntitialAnchor then
    match r with
    | .noQuery => ({ g with placed := false }, view)
    | .noResult => ({ g with placed := false }, view)
    | .hit worldTransform =>
      ({ g with placeIntitialAnchor := false, placed := true },
        view.addVirtualObjectAnchor worldTransform)
  else (g, view)

/-- The 1 s timer of `setupGestures`; `r₁` and `r₂` are the raycasts it makes if it makes them. -/
def gestureTimer (r₁ r₂ : Raycast K) (g : Globals K) (view : CustomARView K) :
    Globals K × CustomARView K :=
  let p := serveAudio r₁ g view
  servePlacement r₂ p.1 p.2

/-- `handleTap`; without a point or a hit it returns. -/
def handleTap (hit : Option (Transform K)) (view : CustomARView K) : CustomARView K :=
  match hit with
  | none => view
  | some worldTransform => view.addVirtualObjectAnchor worldTransform

@[simp] theorem handleTap_location (hit : Option (Transform K)) (view : CustomARView K) :
    (handleTap hit view).location = view.location := by
  cases hit <;> rfl

/-- The waypoints a fire of the gesture timer appends: the raycast hit of a pending audio request,
if the view has a virtual-object anchor. -/
def accepted (r₁ : Raycast K) (g : Globals K) (view : CustomARView K) : List (SIMD3 K) :=
  match r₁, view.virtualObjectAnchor with
  | .hit worldTransform, some _ => if g.addAudio then [worldTransform.translation] else []
  | _, _ => []

section Gestures

variable (r r₁ r₂ : Raycast K) (g : Globals K) (view : CustomARView K)

theorem serveAudio_transformations :
    (serveAudio r g view).1.transformations = g.transformations ++ accepted r g view := by
  unfold serveAudio accepted rayCastingMethod
  cases r <;> cases view.virtualObjectAnchor <;> cases g.addAudio <;> simp

theorem servePlacement_transformations :
    (servePlacement r g view).1.transformations = g.transformations := by
  unfold servePlacement
  cases r <;> cases g.placeIntitialAnchor <;> rfl

/-- The waypoint list grows by the accepted hits and by nothing else. -/
theorem gestureTimer_transformations :
    (gestureTimer r₁ r₂ g view).1.transformations = g.transformations ++ accepted r₁ g view := by
  rw [gestureTimer, servePlacement_transformations, serveAudio_transformations]

/-- What serving an audio request leaves alone. -/
theorem serveAudio_frame :
    (serveAudio r g view).1.directions = g.directions ∧
      (serveAudio r g view).1.placeIntitialAnchor = g.placeIntitialAnchor ∧
      (serveAudio r g view).1.camera = g.camera ∧
      (serveAudio r g view).1.addAudio = false ∧
      (serveAudio r g view).2.location = view.location ∧
      (serveAudio r g view).2.virtualObjectAnchor = view.virtualObjectAnchor := by
  unfold serveAudio rayCastingMethod
  cases r <;> cases hanchor : view.virtualObjectAnchor <;> cases haudio : g.addAudio <;>
    simp [haudio, hanchor]

/-- What serving a placement request leaves alone. -/
theorem servePlacement_frame :
    (servePlacement r g view).1.directions = g.directions ∧
      (servePlacement r g view).1.addAudio = g.addAudio ∧
      (servePlacement r g view).1.camera = g.camera ∧
      (servePlacement r g view).2.location = view.location := by
  unfold servePlacement addVirtualObjectAnchor
  cases r <;> cases hplace : g.placeIntitialAnchor <;> simp

@[simp] theorem gestureTimer_directions :
    (gestureTimer r₁ r₂ g view).1.directions = g.directions :=
  (servePlacement_frame _ _ _).1.trans (serveAudio_frame _ _ _).1

/-- After a fire no audio request is pending. -/
@[simp] theorem gestureTimer_addAudio : (gestureTimer r₁ r₂ g view).1.addAudio = false :=
  (servePlacement_frame _ _ _).2.1.trans (serveAudio_frame _ _ _).2.2.2.1

@[simp] theorem gestureTimer_camera : (gestureTimer r₁ r₂ g view).1.camera = g.camera :=
  (servePlacement_frame _ _ _).2.2.1.trans (serveAudio_frame _ _ _).2.2.1

@[simp] theorem gestureTimer_location : (gestureTimer r₁ r₂ g view).2.location = view.location :=
  (servePlacement_frame _ _ _).2.2.2.trans (serveAudio_frame _ _ _).2.2.2.2.1

variable {g} in
/-- With no request pending the timer does nothing. -/
theorem gestureTimer_of_no_request (haudio : g.addAudio = false)
    (hplace : g.placeIntitialAnchor = false) : gestureTimer r₁ r₂ g view = (g, view) := by
  simp [gestureTimer, serveAudio, servePlacement, haudio, hplace]

end Gestures

/-! ## ARViewExtension.swift -/

/-- `addAnchorEntityToScene`; `transformations` is the module-level list and `loads i2` says
whether the audio resource of box `i2` can be loaded. -/
def addAnchorEntityToScene (transformations : List (SIMD3 K)) (loads : ℕ → Bool)
    (p : CustomARView K × Scene K) (anchor : ARAnchor K) : CustomARView K × Scene K :=
  if anchor.name = some virtualObjectAnchorName then
    let virtualObjectAnchor := p.1.virtualObjectAnchor.getD anchor
    ({ p.1 with
        virtualObjectAnchor := some virtualObjectAnchor
        virtualObject := ⟨anchor.transform, anchor.transform.translation⟩
        anchorz := p.1.anchorz ++ [virtualObjectAnchor] },
      p.2.addBoxes anchor.transform transformations loads)
  else p

/-- `session(_:didAdd:)`; each anchor comes with the load outcomes of its boxes. -/
def sessionDidAdd (transformations : List (SIMD3 K)) (anchors : List (ARAnchor K × (ℕ → Bool)))
    (p : CustomARView K × Scene K) : CustomARView K × Scene K :=
  anchors.foldl (fun p a => addAnchorEntityToScene transformations a.2 p a.1) p

/-- The boxes a delivery creates: one run of the loop for each virtual-object anchor. -/
def deliveredBoxes (transformations : List (SIMD3 K)) (anchors : List (ARAnchor K × (ℕ → Bool))) :
    List (CustomBox K) :=
  anchors.flatMap fun a =>
    if a.1.name = some virtualObjectAnchorName then
      Scene.newBoxes a.1.transform transformations a.2
    else []

/-- A delivery appends the boxes it creates and a reference to each of them. -/
theorem sessionDidAdd_scene (transformations : List (SIMD3 K))
    (anchors : List (ARAnchor K × (ℕ → Bool))) (p : CustomARView K × Scene K) :
    (sessionDidAdd transformations anchors p).2 =
      { p.2 with
        boxes := p.2.boxes ++ deliveredBoxes transformations anchors
        entities := p.2.entities ++
          List.range' p.2.boxes.length (deliveredBoxes transformations anchors).length } := by
  induction anchors generalizing p with
  | nil => simp [sessionDidAdd, deliveredBoxes]
  | cons a anchors ih =>
    have hcons : sessionDidAdd transformations (a :: anchors) p =
        sessionDidAdd transformations anchors
          (addAnchorEntityToScene transformations a.2 p a.1) := rfl
    rw [hcons, ih]
    by_cases hname : a.1.name = some virtualObjectAnchorName
    · simp [addAnchorEntityToScene, deliveredBoxes, hname, Scene.addBoxes_eq, List.range'_append_1,
        Nat.add_comm]
    · simp [addAnchorEntityToScene, deliveredBoxes, hname]

/-- A delivery leaves the location and the session of the view alone. -/
theorem sessionDidAdd_frame (transformations : List (SIMD3 K))
    (anchors : List (ARAnchor K × (ℕ → Bool))) (p : CustomARView K × Scene K) :
    (sessionDidAdd transformations anchors p).1.location = p.1.location ∧
      (sessionDidAdd transformations anchors p).1.session = p.1.session := by
  induction anchors generalizing p with
  | nil => exact ⟨rfl, rfl⟩
  | cons a anchors ih =>
    obtain ⟨hlocation, hsession⟩ := ih (addAnchorEntityToScene transformations a.2 p a.1)
    have hone : (addAnchorEntityToScene transformations a.2 p a.1).1.location = p.1.location ∧
        (addAnchorEntityToScene transformations a.2 p a.1).1.session = p.1.session := by
      unfold addAnchorEntityToScene
      split <;> exact ⟨rfl, rfl⟩
    exact ⟨hlocation.trans hone.1, hsession.trans hone.2⟩

/-! ## SaveLoadMap.swift and CustomARView.swift -/

/-- The completion of `saveExperience`, as far as it writes the view. -/
def saveExperience (data : Data) (view : CustomARView K) : CustomARView K :=
  { view with location := { view.location with worldData := data } }

/-- `loadExperience` with the anchors of the unarchived map. -/
def loadExperience (worldMap : List (ARAnchor K)) (view : CustomARView K) : CustomARView K :=
  { view with
    session := worldMap.filter fun anchor => !anchor.isSnapshot
    isRelocalizingMap := true
    virtualObjectAnchor := none }

/-- `resetTracking`. -/
def resetTracking (view : CustomARView K) : CustomARView K :=
  { view with
    session := []
    isRelocalizingMap := false
    virtualObjectAnchor := none }

end CustomARView

end EyeMaps
