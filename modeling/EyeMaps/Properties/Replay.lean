import EyeMaps.Model.App

/-!
# Where recorded places are replayed

A waypoint is recorded by `rayCastingMethod` as the world position of a raycast hit and replayed by
`addAnchorEntityToScene` as a translation relative to the virtual-object anchor.  Between the two
it stays in the buffer, or goes through the stored coordinate arrays (`KeptAs`).

With `A` the transform of the anchor while recording and `A'` its transform when the boxes are
placed, a hit at `p` belongs at `A' * A⁻¹ • p` and is replayed at `A' • p`; the virtual object
belongs at the origin of `A'` and is placed at `A'` applied to it.  `replayed_where_placed_iff`
computes when these agree: the recording anchor fixes every hit, and the replay anchor does not
translate.  `rayCastingMethod` also computes the anchor-relative vectors that would be right for
every pair of anchors (`distances_replayed_where_placed`), but nothing reads them.
-/

namespace EyeMaps

open Framework

variable {K : Type} [CommRing K]

/-! ## Recording -/

/-- A recording session: the hits are accepted one after the other. -/
def recordHits (hits : List (Transform K)) (g : Globals K) (view : CustomARView K) :
    Globals K × CustomARView K :=
  hits.foldl (fun p worldTransform =>
    CustomARView.rayCastingMethod (.hit worldTransform) p.1 p.2) (g, view)

/-- With a virtual-object anchor, every hit leaves its world position in `transformations` and its
position relative to the anchor in `distances`. -/
theorem recordHits_eq {hits : List (Transform K)} {g : Globals K} {view : CustomARView K}
    {anchor : ARAnchor K} (hanchor : view.virtualObjectAnchor = some anchor) :
    (recordHits hits g view).1.transformations =
        g.transformations ++ hits.map RigidMotion.translation ∧
      (recordHits hits g view).2.distances =
        view.distances ++ hits.map fun t => anchor.transform⁻¹ • t.translation := by
  induction hits generalizing g view with
  | nil => simp [recordHits]
  | cons t hits ih =>
    have hcons : recordHits (t :: hits) g view =
        recordHits hits (CustomARView.rayCastingMethod (.hit t) g view).1
          (CustomARView.rayCastingMethod (.hit t) g view).2 := rfl
    have hkeep : (CustomARView.rayCastingMethod (.hit t) g view).2.virtualObjectAnchor =
        some anchor := by
      simp [CustomARView.rayCastingMethod, hanchor]
    rw [hcons, (ih hkeep).1, (ih hkeep).2]
    simp only [CustomARView.rayCastingMethod, hanchor]
    simp [RigidMotion.smul_def]

/-! ## Keeping the waypoints -/

/-- The module-level variables when the anchor is delivered: those the recording left, or those of
a later opening of the location that the 0.1 s timer stored them in. -/
inductive KeptAs (g : Globals K) : Globals K → Prop
  | sameSession : KeptAs g g
  | stored {worldMapData : Option Data} {l : Location K} {g₀ g' : Globals K}
      (hempty : g₀.transformations = [])
      (happear : ContentView.onAppear g₀ (ContentView.timer g worldMapData l) = some g') :
      KeptAs g g'

omit [CommRing K] in
theorem KeptAs.transformations {g g' : Globals K} (h : KeptAs g g') :
    g'.transformations = g.transformations := by
  cases h with
  | sameSession => rfl
  | stored hempty happear =>
    rw [ContentView.onAppear_eq_some (ContentView.balanced_timer _ _ _)] at happear
    cases happear
    simp [hempty]

/-! ## Placing the boxes -/

/-- The world positions of the boxes that a delivery adds to the scene. -/
def placedPositions (sc : Scene K) (p : CustomARView K × Scene K) : List (SIMD3 K) :=
  (p.2.boxes.drop sc.boxes.length).map CustomBox.position

variable {anchor : ARAnchor K} {loads : ℕ → Bool} {ts : List (SIMD3 K)}

theorem map_position_newBoxes (A : Transform K) :
    (Scene.newBoxes A ts loads).map CustomBox.position = ts.map (A • ·) := by
  have h : (Scene.newBoxes A ts loads).map CustomBox.position =
      ((Scene.newBoxes A ts loads).map CustomBox.translation).map (A • ·) := by
    rw [List.map_map]
    refine List.map_congr_left fun box hbox => ?_
    obtain ⟨p, -, rfl⟩ := List.mem_map.1 hbox
    rfl
  rw [h, Scene.map_translation_newBoxes]

/-- The boxes are placed at the waypoints seen from the anchor. -/
theorem placedPositions_addAnchorEntityToScene
    (hname : anchor.name = some CustomARView.virtualObjectAnchorName)
    (view : CustomARView K) (sc : Scene K) :
    placedPositions sc (CustomARView.addAnchorEntityToScene ts loads (view, sc) anchor) =
      ts.map (anchor.transform • ·) := by
  simp [placedPositions, CustomARView.addAnchorEntityToScene, hname, Scene.addBoxes_eq,
    map_position_newBoxes]

/-- The virtual object is placed at the anchor's own translation seen from the anchor. -/
theorem virtualObject_addAnchorEntityToScene
    (hname : anchor.name = some CustomARView.virtualObjectAnchorName)
    (view : CustomARView K) (sc : Scene K) :
    (CustomARView.addAnchorEntityToScene ts loads (view, sc) anchor).1.virtualObject.position =
      anchor.transform • anchor.transform.translation := by
  simp [CustomARView.addAnchorEntityToScene, hname, Placement.position]

variable {hits : List (Transform K)} {g g' : Globals K} {view : CustomARView K}
  {recordingAnchor : ARAnchor K}

/-- The anchor-relative vectors of the recording are right for every pair of anchors. -/
theorem distances_replayed_where_placed
    (hanchor : view.virtualObjectAnchor = some recordingAnchor) (hdistances : view.distances = [])
    (A' : Transform K) :
    (recordHits hits g view).2.distances.map (A' • ·) =
      hits.map fun t => (A' * recordingAnchor.transform⁻¹) • t.translation := by
  simp [(recordHits_eq hanchor).2, hdistances, mul_smul, Function.comp_def]

/-- Every box and the virtual object are where they belong exactly when the recording anchor fixes
every hit and the replay anchor does not translate. -/
theorem replayed_where_placed_iff
    (hanchor : view.virtualObjectAnchor = some recordingAnchor) (hempty : g.transformations = [])
    (hkept : KeptAs (recordHits hits g view).1 g')
    (hname : anchor.name = some CustomARView.virtualObjectAnchorName)
    (laterView : CustomARView K) (sc : Scene K) (loads : ℕ → Bool) :
    (placedPositions sc (CustomARView.addAnchorEntityToScene g'.transformations loads
          (laterView, sc) anchor) =
        (hits.map fun t => (anchor.transform * recordingAnchor.transform⁻¹) • t.translation) ∧
      (CustomARView.addAnchorEntityToScene g'.transformations loads
          (laterView, sc) anchor).1.virtualObject.position = anchor.transform.translation) ↔
    ((∀ t ∈ hits, recordingAnchor.transform • t.translation = t.translation) ∧
      anchor.transform.translation = 0) := by
  have hts : g'.transformations = hits.map RigidMotion.translation := by
    rw [hkept.transformations, (recordHits_eq hanchor).1, hempty, List.nil_append]
  rw [placedPositions_addAnchorEntityToScene hname, virtualObject_addAnchorEntityToScene hname,
    RigidMotion.smul_translation_eq_translation_iff, hts, List.map_map]
  refine and_congr_left fun _ => ?_
  rw [List.map_inj_left]
  exact forall₂_congr fun t _ => RigidMotion.smul_eq_mul_inv_smul_iff _ _ _

/-! ### An anchor one metre away

The anchor is placed at 1 m and a waypoint at the world origin; the boxes are placed in the same
session for the same anchor. -/

def metreAnchor : ARAnchor ℚ where
  name := some CustomARView.virtualObjectAnchorName
  transform := RigidMotion.translate ![1, 0, 0]

def originAnchor : ARAnchor ℚ where
  name := some CustomARView.virtualObjectAnchorName
  transform := 1

def anchoredView (anchor : ARAnchor ℚ) : CustomARView ℚ :=
  { CustomARView.create entrance with virtualObjectAnchor := some anchor }

theorem waypoint_replayed_elsewhere :
    ¬ (placedPositions Scene.initial (CustomARView.addAnchorEntityToScene
          (recordHits [1] Globals.initial (anchoredView metreAnchor)).1.transformations
          (fun _ => true) (anchoredView metreAnchor, Scene.initial) metreAnchor) =
        ([1].map fun t : Transform ℚ =>
          (metreAnchor.transform * metreAnchor.transform⁻¹) • t.translation) ∧
      (CustomARView.addAnchorEntityToScene
          (recordHits [1] Globals.initial (anchoredView metreAnchor)).1.transformations
          (fun _ => true) (anchoredView metreAnchor, Scene.initial)
          metreAnchor).1.virtualObject.position = metreAnchor.transform.translation) := by
  decide +kernel

theorem waypoint_replayed_at_origin :
    placedPositions Scene.initial (CustomARView.addAnchorEntityToScene
        (recordHits [RigidMotion.translate ![2, 0, 3]] Globals.initial
          (anchoredView originAnchor)).1.transformations
        (fun _ => true) (anchoredView originAnchor, Scene.initial) originAnchor) =
      [![2, 0, 3]] := by
  have hanchor : (anchoredView originAnchor).virtualObjectAnchor = some originAnchor := rfl
  have hempty : (Globals.initial : Globals ℚ).transformations = [] := rfl
  have hname : originAnchor.name = some CustomARView.virtualObjectAnchorName := rfl
  have hkept := KeptAs.sameSession (g := (recordHits [RigidMotion.translate ![2, 0, 3]]
    Globals.initial (anchoredView originAnchor)).1)
  have h := (replayed_where_placed_iff hanchor hempty hkept hname (anchoredView originAnchor)
    Scene.initial fun _ => true).2 ⟨by decide +kernel, rfl⟩
  rw [h.1]
  decide +kernel

end EyeMaps
