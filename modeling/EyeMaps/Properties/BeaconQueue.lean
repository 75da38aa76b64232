import EyeMaps.Properties.BeaconOrder

/-!
# The beacon queue and the open route

`entities` and `step` are never reset: closing a map clears `transformations` only, and every
delivery of a virtual-object anchor appends a full set of boxes.  So the boxes from `step` on are
those of the open route only if all earlier boxes were passed when the route was first delivered,
and if the route is delivered once.

`Delivery` observes the first delivery of the open route (the value of `step`, the waypoints, and
the first box that sounds after it) and `Queued` says that `entities` from there on is exactly the
route.  `queue_is_open_route` proves it for the runs whose steps are `DeliversOnce`.
-/

namespace EyeMaps

open Framework

/-- The first delivery of the open route. -/
structure Delivery (K : Type) where
  /-- `step` at the delivery -/
  start : ℕ
  /-- the waypoints of the route at the delivery -/
  waypoints : List (SIMD3 K)
  /-- the first box whose sound was started since -/
  sounded : Option ℕ

/-- The virtual-object anchors among delivered anchors. -/
def virtualAnchors {K : Type} [CommRing K] (anchors : List (ARAnchor K × (ℕ → Bool))) :
    List (ARAnchor K × (ℕ → Bool)) :=
  anchors.filter fun a => a.1.name = some CustomARView.virtualObjectAnchorName

/-- Each virtual-object anchor brings one box for each waypoint. -/
theorem map_translation_deliveredBoxes {K : Type} [CommRing K] (ts : List (SIMD3 K))
    (anchors : List (ARAnchor K × (ℕ → Bool))) :
    (CustomARView.deliveredBoxes ts anchors).map CustomBox.translation =
      (List.replicate (virtualAnchors anchors).length ts).flatten := by
  induction anchors with
  | nil => rfl
  | cons a anchors ih =>
    by_cases hname : a.1.name = some CustomARView.virtualObjectAnchorName
    · simpa [CustomARView.deliveredBoxes, virtualAnchors, hname, List.replicate_succ,
        Scene.map_translation_newBoxes] using ih
    · simpa [CustomARView.deliveredBoxes, virtualAnchors, hname] using ih

namespace AppState

variable {K : Type} [Field K] [LinearOrder K] {s s' : AppState K} {e : AppEvent K}
  {c : Option (Delivery K)}

/-- A fire of the play timer of box `b` starts its sound: it turns `playing` on (see
`starts_iff_plays`). -/
def Starts (s : AppState K) (b : ℕ) : Prop :=
  s.scene.entities[s.scene.step]? = some b ∧ ∃ box ∈ s.scene.boxes[b]?, box.playTimer = true

instance (s : AppState K) (b : ℕ) : Decidable (Starts s b) :=
  inferInstanceAs (Decidable (_ ∧ ∃ box ∈ _, _))

/-- The observer of the first delivery of the open route. -/
def delivery (c : Option (Delivery K)) (s : AppState K) (e : AppEvent K) (_ : AppState K) :
    Option (Delivery K) :=
  match e with
  | .appear _ => none
  | .disappear => none
  | .didAdd v anchors =>
    if c.isNone ∧ s.opened = some v ∧ virtualAnchors anchors ≠ [] then
      some ⟨s.scene.step, s.globals.transformations, none⟩
    else c
  | .scene (.playTimer b) =>
    c.map fun d => if Starts s b ∧ d.sounded = none then { d with sounded := some b } else d
  | _ => c

/-- From the value of `step` at the first delivery on, `entities` is one box for each waypoint of
the route in order; the first box to sound since is the first of them. -/
def Queued (d : Delivery K) (sc : Scene K) : Prop :=
  (sc.entities.drop d.start).map (fun b => sc.boxes[b]?.map CustomBox.translation) =
      d.waypoints.map some ∧
    ∀ b ∈ d.sounded, sc.entities[d.start]? = some b

instance (d : Delivery K) (sc : Scene K) : Decidable (Queued d sc) :=
  inferInstanceAs (Decidable (_ ∧ ∀ b ∈ _, _))

/-- At the first delivery of a route every earlier box has been passed and one anchor comes; later
deliveries find no waypoint or bring no anchor; and `step` waits for the first sound. -/
def DeliversOnce (c : Option (Delivery K)) (s : AppState K) : AppEvent K → Prop
  | .didAdd v anchors =>
    match c with
    | none => s.opened = some v → virtualAnchors anchors ≠ [] →
        s.scene.step = s.scene.entities.length ∧
          ((virtualAnchors anchors).length = 1 ∨ s.globals.transformations = [])
    | some _ => virtualAnchors anchors = [] ∨ s.globals.transformations = []
  | .scene (.proximityTimer b) =>
    ∀ d ∈ c, d.sounded = none →
      ∀ box ∈ s.scene.boxes[b]?, box.Near s.globals.camera → s.scene.coolDown = true
  | _ => True

instance (c : Option (Delivery K)) (s : AppState K) : ∀ e, Decidable (DeliversOnce c s e) := by
  rintro ⟨⟩
  case didAdd v anchors => obtain ⟨⟩ | ⟨⟩ := c <;> dsimp only [DeliversOnce] <;> infer_instance
  case scene e' => obtain ⟨⟩ := e' <;> dsimp only [DeliversOnce] <;> infer_instance
  all_goals
    dsimp only [DeliversOnce]
    infer_instance

/-! ## The invariant -/

/-- The queue is right, and `step` is where it was at the delivery until the first sound. -/
structure QueueKept (c : Option (Delivery K)) (sc : Scene K) : Prop where
  indexed : sc.Indexed
  queued : ∀ d ∈ c, Queued d sc
  start_le : ∀ d ∈ c, d.start ≤ sc.entities.length
  waits : ∀ d ∈ c, d.sounded = none → sc.step = d.start

omit [LinearOrder K] in
theorem QueueKept.forget {sc : Scene K} (h : QueueKept c sc) : QueueKept none sc where
  indexed := h.indexed
  queued := by simp
  start_le := by simp
  waits := by simp

/-- The queue is kept by a scene step that does not advance `step` before the first sound. -/
theorem QueueKept.next {sc' : Scene K} {e' : SceneEvent} (h : QueueKept c s.scene)
    (hcond : DeliversOnce c s (.scene e'))
    (hnext : s.scene.next s.globals.camera e' = some sc') : QueueKept c sc' := by
  have hentities := Scene.next_entities hnext
  have htranslation (b : ℕ) :
      sc'.boxes[b]?.map CustomBox.translation = s.scene.boxes[b]?.map CustomBox.translation := by
    have hframes := congrArg (fun l => (l[b]?).map Prod.snd) (Scene.next_frames hnext)
    simpa [Function.comp_def, CustomBox.frame] using hframes
  refine ⟨h.indexed.next hnext, fun d hd => ?_, fun d hd => ?_, fun d hd hquiet => ?_⟩
  · simpa [Queued, hentities, htranslation] using h.queued d hd
  · simpa [hentities] using h.start_le d hd
  · rw [← h.waits d hd hquiet]
    rcases Scene.next_step hnext with hkeep | ⟨-, hcool, b, box, rfl, hbox, hnear⟩
    · exact hkeep
    · have := hcond d hd hquiet box hbox hnear
      simp [hcool] at this

omit [LinearOrder K] in
/-- The box whose sound starts first is the one at the head of the queue. -/
theorem QueueKept.sound {b : ℕ} {sc' : Scene K} (h : QueueKept c s.scene)
    (h' : QueueKept c sc') (hentities : sc'.entities = s.scene.entities) :
    QueueKept (c.map fun d => if Starts s b ∧ d.sounded = none then { d with sounded := some b }
      else d) sc' := by
  refine ⟨h'.indexed, ?_, ?_, ?_⟩ <;> simp only [Option.mem_def, Option.map_eq_some_iff] <;>
    rintro _ ⟨d, hd, rfl⟩ <;> split
  case refine_1.isTrue hstarts =>
    refine ⟨(h'.queued d hd).1, fun b' hb' => ?_⟩
    obtain rfl : b = b' := Option.some.inj hb'
    have hturn := hstarts.1.1
    rwa [h.waits d hd hstarts.2, ← hentities] at hturn
  case refine_1.isFalse => exact h'.queued d hd
  case refine_2.isTrue => exact h'.start_le d hd
  case refine_2.isFalse => exact h'.start_le d hd
  case refine_3.isTrue => simp
  case refine_3.isFalse => exact h'.waits d hd

omit [LinearOrder K] in
/-- A delivery without a virtual-object anchor or without waypoints brings no box. -/
theorem deliveredBoxes_eq_nil {ts : List (SIMD3 K)} {anchors : List (ARAnchor K × (ℕ → Bool))}
    (hnone : virtualAnchors anchors = [] ∨ ts = []) :
    CustomARView.deliveredBoxes ts anchors = [] := by
  rw [← List.map_eq_nil_iff (f := CustomBox.translation), map_translation_deliveredBoxes]
  obtain h | h := hnone <;> simp [h]

omit [LinearOrder K] in
/-- A delivery that finds every earlier box passed starts a queue of its own boxes. -/
theorem queued_of_delivered {sc : Scene K} {ts : List (SIMD3 K)} {bs : List (CustomBox K)}
    (hstep : sc.step = sc.entities.length) (hbs : bs.map CustomBox.translation = ts) :
    Queued ⟨sc.step, ts, none⟩
      { sc with
        boxes := sc.boxes ++ bs
        entities := sc.entities ++ List.range' sc.boxes.length bs.length } := by
  refine ⟨?_, by simp⟩
  subst hbs
  simp only [hstep, List.drop_left]
  refine List.ext_getElem? fun i => ?_
  by_cases hi : i < bs.length
  · simp [hi]
  · simp [hi]

theorem queueKept_step (h : QueueKept c s.scene) (hcond : DeliversOnce c s e)
    (hstep : (app K).step s e = some s') : QueueKept (delivery c s e s') s'.scene := by
  cases e with
  | appear k =>
    obtain ⟨_, _, _, _, -, -, -, -, rfl⟩ := step_appear hstep
    exact h.forget
  | disappear =>
    obtain ⟨_, _, _, -, -, rfl⟩ := step_disappear hstep
    exact h.forget
  | didAdd v anchors =>
    obtain ⟨view, _, hview, rfl, rfl⟩ := step_didAdd hstep
    simp only [delivery, CustomARView.sessionDidAdd_scene]
    have hind :=
      h.indexed.append (CustomARView.deliveredBoxes s.globals.transformations anchors)
    cases c with
    | some d =>
      simp only [Option.isNone_some, Bool.false_eq_true, false_and, if_false,
        deliveredBoxes_eq_nil hcond, List.append_nil, List.length_nil, List.range'_zero]
      exact h
    | none =>
      split
      case isFalse => exact ⟨hind, by simp, by simp, by simp⟩
      case isTrue hfirst =>
        obtain ⟨hpassed, hone⟩ := hcond hfirst.2.1 hfirst.2.2
        have htranslations : (CustomARView.deliveredBoxes s.globals.transformations anchors).map
            CustomBox.translation = s.globals.transformations := by
          rw [map_translation_deliveredBoxes]
          rcases hone with hone | hempty
          · simp [hone]
          · simp [hempty]
        refine ⟨hind, ?_, ?_, ?_⟩ <;> simp only [Option.mem_def, Option.some.injEq] <;>
          rintro _ rfl
        · exact queued_of_delivered hpassed htranslations
        · simp [hpassed]
        · simp
  | scene e' =>
    obtain ⟨sc', hnext, rfl⟩ := step_nextScene hstep
    have hkept := h.next hcond hnext
    cases e' with
    | playTimer b => exact h.sound hkept (Scene.next_entities hnext)
    | _ => exact hkept
  | _ =>
    rcases step_scene hstep with hsame | ⟨_, _, _, he, -⟩ | ⟨_, he, -⟩
    · rw [hsame]
      exact h
    · cases he
    · cases he

/-! ## The result -/

variable {locations : List (Location K)} {storedData : UUID → Option Data}

/-- In every run whose steps deliver each route once, to a scene whose earlier boxes are all
passed, the queue since the first delivery is exactly the open route. -/
theorem queue_is_open_route {es : List (AppEvent K)} {d : Delivery K}
    (hmeets : ((app K).observe delivery).Meets (fun p e => DeliversOnce p.1 p.2 e)
      (none, initial locations storedData) es)
    (hrun : ((app K).observe delivery).run (none, initial locations storedData) es =
      some (some d, s)) :
    Queued d s.scene := by
  have hinit : QueueKept none (Scene.initial : Scene K) :=
    ⟨Scene.Indexed.initial, by simp, by simp, by simp⟩
  have hfinal : QueueKept (some d) s.scene :=
    Machine.invariant_of_observed (P := fun c s => QueueKept c s.scene)
      (fun _ _ _ _ => queueKept_step) hinit hmeets hrun
  exact hfinal.queued d rfl

/-! ### Delivering twice

The hallway is delivered again by a second tap; its queue then holds every waypoint twice. -/

def deliveredTwice : List (AppEvent ℚ) :=
  hallwayDelivered ++
    [.didAdd 0 [({ name := some CustomARView.virtualObjectAnchorName, transform := 1 },
      fun _ => true)]]

theorem waypoints_queued_twice :
    ¬ ∀ p ∈ ((app ℚ).observe delivery).run (none, initial [hallway] fun _ => none) deliveredTwice,
      ∀ d ∈ p.1, Queued d p.2.scene := by
  decide +kernel

theorem hallway_queued :
    ∃ d s, ((app ℚ).observe delivery).run (none, initial [hallway] fun _ => none)
        (hallwayDelivered ++ [.scene (.playTimer 0)]) = some (some d, s) ∧
      Queued d s.scene ∧ d.waypoints = [![0, 0, 0], ![10, 0, 0]] ∧ d.sounded = some 0 := by
  have hsome : (((app ℚ).observe delivery).run (none, initial [hallway] fun _ => none)
      (hallwayDelivered ++ [.scene (.playTimer 0)])).map
        (fun p => p.1.map fun d => (d.waypoints, d.sounded)) =
          some (some ([![0, 0, 0], ![10, 0, 0]], some 0)) := by
    decide +kernel
  obtain ⟨⟨c, s⟩, hrun, hend⟩ := Option.map_eq_some_iff.1 hsome
  obtain ⟨d, rfl, hd⟩ := Option.map_eq_some_iff.1 hend
  obtain ⟨hwaypoints, hsounded⟩ := Prod.mk.inj hd
  exact ⟨d, s, hrun, queue_is_open_route (by decide +kernel) hrun, hwaypoints, hsounded⟩

end AppState

end EyeMaps
