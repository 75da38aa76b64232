import EyeMaps.Model.App

/-!
# The order in which the waypoints are passed

Every box has its own proximity timer, and each of them advances the one shared counter `step`
when the camera is near *its own* box: unlike the play timer, the proximity timer does not ask
whether its box is `entities[step]`.  So the waypoints are passed in order exactly in the runs in
which no such timer gets ahead of the route: whenever one fires near its box outside a cool-down,
the camera is near `entities[step]` too (`NearCurrentBox`).

`waypoints_passed_in_order` is the result.  It rests on `Scene.Indexed` (the references in
`entities` are the boxes in order of creation, since every box is appended when it is created and
none is ever removed) and on `VisitedInOrder`, the invariant of a run next to an observer of the
camera.
-/

namespace EyeMaps

open Framework

/-! ## References -/

namespace Scene

variable {K : Type}

section CommRing

variable [CommRing K] {sc : Scene K}

/-- The references in `entities` are the boxes in order of creation. -/
def Indexed (sc : Scene K) : Prop := sc.entities = List.range sc.boxes.length

theorem Indexed.initial : (Scene.initial : Scene K).Indexed := rfl

theorem Indexed.length (h : sc.Indexed) : sc.entities.length = sc.boxes.length := by
  rw [Indexed] at h
  simp [h]

theorem Indexed.eq_of_entities {k b : ℕ} (h : sc.Indexed) (hk : sc.entities[k]? = some b) :
    b = k := by
  rw [Indexed] at h
  rw [h] at hk
  obtain ⟨hlt, hget⟩ := List.getElem?_eq_some_iff.1 hk
  simpa using hget.symm

theorem Indexed.entities_eq {k : ℕ} (h : sc.Indexed) (hk : k < sc.entities.length) :
    sc.entities[k]? = some k := by
  rw [List.getElem?_eq_getElem hk]
  exact congrArg some (h.eq_of_entities (List.getElem?_eq_getElem hk))

theorem Indexed.entity_eq {k : ℕ} (h : sc.Indexed) : sc.entity k = sc.boxes[k]? := by
  by_cases hk : k < sc.entities.length
  · simp [entity, h.entities_eq hk]
  · have hboxes : sc.boxes.length ≤ k := by rw [← h.length]; omega
    simp [entity, List.getElem?_eq_none (Nat.le_of_not_lt hk), hboxes]

theorem Indexed.append (h : sc.Indexed) (bs : List (CustomBox K)) :
    ({ sc with
        boxes := sc.boxes ++ bs
        entities := sc.entities ++ List.range' sc.boxes.length bs.length } : Scene K).Indexed := by
  rw [Indexed] at h ⊢
  simp [h, List.range_add, List.range'_eq_map_range]

/-- A box keeps its place when no frame changes. -/
theorem exists_box_of_frames {sc sc' : Scene K} {b : ℕ} {box : CustomBox K}
    (hframes : sc'.boxes.map CustomBox.frame = sc.boxes.map CustomBox.frame)
    (hbox : sc.boxes[b]? = some box) :
    ∃ box', sc'.boxes[b]? = some box' ∧ box'.frame = box.frame := by
  have h : (sc'.boxes.map CustomBox.frame)[b]? = some box.frame := by simp [hframes, hbox]
  simpa using h

end CommRing

variable [Field K] [LinearOrder K]

theorem Indexed.next {sc sc' : Scene K} {camera : SIMD3 K} {e : SceneEvent} (h : sc.Indexed)
    (hnext : sc.next camera e = some sc') : sc'.Indexed := by
  have hlen := congrArg List.length (next_frames hnext)
  simp only [List.length_map] at hlen
  rw [Indexed, next_entities hnext, hlen]
  exact h

end Scene

theorem CustomBox.near_congr {K : Type} [Field K] [LinearOrder K] {box box' : CustomBox K}
    (h : box'.frame = box.frame) (camera : SIMD3 K) : box'.Near camera ↔ box.Near camera := by
  obtain ⟨hanchor, htranslation⟩ := Prod.mk.inj h
  simp only [CustomBox.Near, CustomBox.world, hanchor, htranslation]

namespace AppState

variable {K : Type} [Field K] [LinearOrder K] {s s' : AppState K} {e : AppEvent K}

theorem indexed_step (h : s.scene.Indexed) (hstep : (app K).step s e = some s') :
    s'.scene.Indexed := by
  rcases step_scene hstep with hsame | ⟨v, view, anchors, -, -, hadd⟩ | ⟨e', -, hnext⟩
  · rwa [hsame]
  · rw [hadd, CustomARView.sessionDidAdd_scene]
    exact h.append _
  · exact h.next hnext

/-! ## The law and the condition -/

/-- `step` changes only by one, in a proximity fire, with the camera near `entities[step]`. -/
def AdvancesAtCurrentBox (s : AppState K) (e : AppEvent K) (s' : AppState K) : Prop :=
  s'.scene.step ≠ s.scene.step →
    s'.scene.step = s.scene.step + 1 ∧ (∃ b, e = .scene (.proximityTimer b)) ∧
      ∃ box, s.scene.entity s.scene.step = some box ∧ box.Near s.globals.camera

/-- No proximity timer gets ahead of the route: one that fires near its own box outside a
cool-down finds the camera near `entities[step]` as well. -/
def NearCurrentBox (s : AppState K) : AppEvent K → Prop
  | .scene (.proximityTimer b) =>
    ∀ box ∈ s.scene.boxes[b]?, box.Near s.globals.camera → s.scene.coolDown = false →
      ∃ current ∈ s.scene.entity s.scene.step, current.Near s.globals.camera
  | _ => True

instance (s : AppState K) : ∀ e, Decidable (NearCurrentBox s e) := by
  rintro ⟨⟩
  case scene e' => obtain ⟨⟩ := e' <;> dsimp only [NearCurrentBox] <;> infer_instance
  all_goals
    dsimp only [NearCurrentBox]
    infer_instance

/-- One step of the scene counter. -/
theorem step_advance (hstep : (app K).step s e = some s') :
    s'.scene.step = s.scene.step ∨
      (s'.scene.step = s.scene.step + 1 ∧ s.scene.coolDown = false ∧
        ∃ b box, e = .scene (.proximityTimer b) ∧ s.scene.boxes[b]? = some box ∧
          box.Near s.globals.camera) := by
  rcases step_scene hstep with hsame | ⟨v, view, anchors, -, -, hadd⟩ | ⟨e', rfl, hnext⟩
  · exact .inl (by rw [hsame])
  · exact .inl (by rw [hadd, CustomARView.sessionDidAdd_scene])
  · rcases Scene.next_step hnext with hsame | ⟨hadv, hcool, b, box, rfl, hbox, hnear⟩
    · exact .inl hsame
    · exact .inr ⟨hadv, hcool, b, box, rfl, hbox, hnear⟩

/-- Step by step, the law and the condition are the same. -/
theorem advancesAtCurrentBox_iff (hstep : (app K).step s e = some s') :
    AdvancesAtCurrentBox s e s' ↔ NearCurrentBox s e := by
  constructor
  · intro hlaw
    cases e with
    | scene e' =>
      cases e' with
      | proximityTimer b =>
        intro box hbox hnear hcool
        obtain ⟨scene, hnext, rfl⟩ := step_nextScene hstep
        obtain ⟨box', hbox', -, ⟨hfar, -⟩ | ⟨-, hcool', -⟩ | ⟨-, -, rfl⟩⟩ :=
          Scene.next_proximityTimer hnext
        · cases hbox.symm.trans hbox'
          exact absurd hnear hfar
        · simp [hcool] at hcool'
        · exact (hlaw (by simp)).2.2
      | _ => trivial
    | _ => trivial
  · intro hcond hne
    rcases step_advance hstep with hsame | ⟨hadv, hcool, b, box, rfl, hbox, hnear⟩
    · exact absurd hsame hne
    · exact ⟨hadv, ⟨b, rfl⟩, hcond box hbox hnear hcool⟩

/-- A run obeys the law exactly when its fires meet the condition. -/
theorem along_advancesAtCurrentBox_iff {es : List (AppEvent K)} :
    (app K).Along AdvancesAtCurrentBox s es ↔ (app K).Meets NearCurrentBox s es :=
  Machine.along_iff_meets (P := fun _ => True) (C := NearCurrentBox) (D := AdvancesAtCurrentBox)
    (fun _ _ _ _ hstep => ⟨advancesAtCurrentBox_iff hstep, fun _ => trivial⟩) trivial

/-! ## The waypoints visited so far -/

/-- The observer of the camera: the module-level camera position at each event so far. -/
def sawCamera (seen : List (SIMD3 K)) (s : AppState K) (_ : AppEvent K) (_ : AppState K) :
    List (SIMD3 K) :=
  seen ++ [s.globals.camera]

/-- Among the camera positions seen, one after the other, each of `entities[0..<step]` has been
near the camera. -/
structure VisitedInOrder (seen : List (SIMD3 K)) (sc : Scene K) : Prop where
  step_le : sc.step ≤ sc.entities.length
  visited : ∃ cameras, cameras.Sublist seen ∧
    List.Forall₂ (fun camera b => ∃ box, sc.boxes[b]? = some box ∧ box.Near camera) cameras
      (sc.entities.take sc.step)

theorem VisitedInOrder.mono {seen seen' : List (SIMD3 K)} {sc : Scene K}
    (h : VisitedInOrder seen sc) (hseen : seen.Sublist seen') : VisitedInOrder seen' sc := by
  obtain ⟨cameras, hsub, hnear⟩ := h.visited
  exact ⟨h.step_le, cameras, hsub.trans hseen, hnear⟩

/-- Visits are kept by a change of the scene that only appends to `entities`, moves no box and
leaves `step` alone. -/
theorem VisitedInOrder.congr {seen : List (SIMD3 K)} {sc sc' : Scene K}
    (h : VisitedInOrder seen sc) (hstep : sc'.step = sc.step)
    (hentities : sc.entities <+: sc'.entities)
    (hboxes : ∀ (b : ℕ) (box : CustomBox K), sc.boxes[b]? = some box →
      ∃ box', sc'.boxes[b]? = some box' ∧ box'.frame = box.frame) :
    VisitedInOrder seen sc' := by
  obtain ⟨cameras, hsub, hnear⟩ := h.visited
  refine ⟨by rw [hstep]; exact h.step_le.trans hentities.length_le, cameras, hsub, ?_⟩
  obtain ⟨more, hmore⟩ := hentities
  rw [hstep, ← hmore, List.take_append_of_le_length h.step_le]
  refine hnear.imp fun camera b => ?_
  rintro ⟨box, hbox, hb⟩
  obtain ⟨box', hbox', hframe⟩ := hboxes b box hbox
  exact ⟨box', hbox', (CustomBox.near_congr hframe camera).2 hb⟩

/-- The visit of `entities[step]` is added when `step` advances. -/
theorem VisitedInOrder.advance {seen : List (SIMD3 K)} {sc : Scene K} {camera : SIMD3 K}
    {box : CustomBox K} (h : VisitedInOrder seen sc) (hbox : sc.entity sc.step = some box)
    (hnear : box.Near camera) :
    VisitedInOrder (seen ++ [camera]) { sc with step := sc.step + 1 } := by
  obtain ⟨b, hb, hbox⟩ := Option.bind_eq_some_iff.1 hbox
  obtain ⟨hlt, hget⟩ := List.getElem?_eq_some_iff.1 hb
  obtain ⟨cameras, hsub, hvisited⟩ := h.visited
  refine ⟨hlt, cameras ++ [camera], hsub.append_right [camera], ?_⟩
  rw [List.take_add_one, hb]
  exact List.rel_append hvisited (.cons ⟨box, hbox, hnear⟩ .nil)

theorem visitedInOrder_step {seen : List (SIMD3 K)} (h : VisitedInOrder seen s.scene)
    (hcond : NearCurrentBox s e) (hstep : (app K).step s e = some s') :
    VisitedInOrder (seen ++ [s.globals.camera]) s'.scene := by
  have hmono := h.mono (List.sublist_append_left seen [s.globals.camera])
  have hboxes {sc' : Scene K} {e' : SceneEvent}
      (hnext : s.scene.next s.globals.camera e' = some sc') (b : ℕ) (box : CustomBox K) :
      s.scene.boxes[b]? = some box → ∃ box', sc'.boxes[b]? = some box' ∧ box'.frame = box.frame :=
    Scene.exists_box_of_frames (Scene.next_frames hnext)
  rcases step_scene hstep with hsame | ⟨v, view, anchors, -, -, hadd⟩ | ⟨e', rfl, hnext⟩
  · rwa [hsame]
  · rw [hadd, CustomARView.sessionDidAdd_scene]
    refine hmono.congr rfl (List.prefix_append _ _) fun b box hbox => ⟨box, ?_, rfl⟩
    obtain ⟨hlt, -⟩ := List.getElem?_eq_some_iff.1 hbox
    rwa [List.getElem?_append_left hlt]
  · rcases Scene.next_step hnext with hkeep | ⟨hadv, -, -⟩
    · exact hmono.congr hkeep (by rw [Scene.next_entities hnext]) (hboxes hnext)
    · have hlaw := (advancesAtCurrentBox_iff hstep).2 hcond (by omega)
      obtain ⟨-, -, box, hbox, hnear⟩ := hlaw
      exact (h.advance hbox hnear).congr hadv (by rw [Scene.next_entities hnext]) (hboxes hnext)

variable {locations : List (Location K)} {storedData : UUID → Option Data}

/-- The waypoints are passed in order in exactly the runs whose proximity fires meet
`NearCurrentBox`; in those, `step` stays within `entities` and each box before it has been
visited, in order. -/
theorem waypoints_passed_in_order {es : List (AppEvent K)} {seen : List (SIMD3 K)}
    (hrun : ((app K).observe sawCamera).run ([], initial locations storedData) es =
      some (seen, s)) :
    ((app K).Along AdvancesAtCurrentBox (initial locations storedData) es ↔
        (app K).Meets NearCurrentBox (initial locations storedData) es) ∧
      ((app K).Meets NearCurrentBox (initial locations storedData) es →
        VisitedInOrder seen s.scene) := by
  refine ⟨along_advancesAtCurrentBox_iff, fun hmeets => ?_⟩
  have hinit : VisitedInOrder ([] : List (SIMD3 K)) (Scene.initial : Scene K) :=
    ⟨le_rfl, [], .slnil, .nil⟩
  exact Machine.invariant_of_observed (P := fun seen s => VisitedInOrder seen s.scene)
    (fun _ _ _ _ => visitedInOrder_step) hinit (Machine.along_observe_iff.2 hmeets) hrun

/-! ### Two walks

The second waypoint of the hallway lies 10 m behind the first.  Walking straight to the second one
passes the first waypoint unvisited; a walk that stays at the first waypoint passes that one. -/

/-- The map is opened and its virtual-object anchor delivered at the origin. -/
def hallwayDelivered : List (AppEvent ℚ) :=
  [.appear 0,
    .didAdd 0 [({ name := some CustomARView.virtualObjectAnchorName, transform := 1 },
      fun _ => true)]]

/-- The camera stands 10 m down the hallway when the second box is tested. -/
def walkToSecond : List (AppEvent ℚ) :=
  hallwayDelivered ++
    [.cameraTimer 0 (RigidMotion.translate ![10, 0, 0]), .scene (.proximityTimer 1)]

/-- The camera stands at the first waypoint when the first box is tested. -/
def walkToFirst : List (AppEvent ℚ) :=
  hallwayDelivered ++ [.cameraTimer 0 1, .scene (.proximityTimer 0)]

theorem first_waypoint_skipped :
    ¬ (app ℚ).Along AdvancesAtCurrentBox (initial [hallway] fun _ => none) walkToSecond := by
  rw [along_advancesAtCurrentBox_iff]
  decide +kernel

theorem first_waypoint_passed :
    ∃ seen s, ((app ℚ).observe sawCamera).run ([], initial [hallway] fun _ => none) walkToFirst =
      some (seen, s) ∧ VisitedInOrder seen s.scene ∧ s.scene.step = 1 := by
  have hsome : (((app ℚ).observe sawCamera).run ([], initial [hallway] fun _ => none)
      walkToFirst).map (fun p => p.2.scene.step) = some 1 := by
    decide +kernel
  obtain ⟨⟨seen, s⟩, hrun, hone⟩ := Option.map_eq_some_iff.1 hsome
  exact ⟨seen, s, hrun, (waypoints_passed_in_order hrun).2 (by decide +kernel), hone⟩

end AppState

end EyeMaps
