import Mathlib.Algebra.Order.Field.Basic
import Mathlib.Data.List.Basic
import Mathlib.Tactic.Ring
import EyeMaps.Framework.Lists
import EyeMaps.Model.Location

/-!
# The beacon scene

The playback half of `AR/ARViewExtension.swift`: the module-level variables `entities`, `step` and
`coolDown`, the boxes that `addAnchorEntityToScene` creates, and the timers started with each box.

`Scene.boxes` is the heap of `CustomBox` objects in order of creation and an entity is a
reference into it, so `Access.entities[step] == box` compares references.  A box carries the
transform of the `AnchorEntity` it is a child of and its own translation, together with the state
of its audio controller (`playing`) and of its two repeating timers.  The play timer invalidates
itself when it fires for the box whose turn it is; the proximity timer is never invalidated.

`Scene.next` is the step function of the timers, of the delayed `coolDown` reset and of
`playSound`.  What one step can do is said once: `next_playTimer`, `next_proximityTimer`,
`next_coolDownExpires` and `next_playSound` invert it event by event, and the lemmas after them
(`next_entities`, `next_frames`, `next_step`) record what no event changes.
-/

namespace EyeMaps

open Framework

/-- A `CustomBox` placed by `addAnchorEntityToScene`, with its audio controller and timers. -/
structure CustomBox (K : Type) [CommRing K] where
  /-- transform of the parent `AnchorEntity` -/
  anchorEntity : Transform K
  /-- `box.transform.translation`, relative to the parent -/
  translation : SIMD3 K
  playing : Bool
  /-- the play timer is scheduled and not yet invalidated -/
  playTimer : Bool
  proximityTimer : Bool

namespace CustomBox

variable {K : Type}

section CommRing

variable [CommRing K]

/-- The transform of the box in world coordinates; a box is neither rotated nor scaled itself. -/
def world (box : CustomBox K) : Transform K :=
  box.anchorEntity * RigidMotion.translate box.translation

/-- The world position of the box. -/
def position (box : CustomBox K) : SIMD3 K := box.world.translation

/-- Where the box hangs; no timer ever changes it. -/
def frame (box : CustomBox K) : Transform K × SIMD3 K := (box.anchorEntity, box.translation)

end CommRing

variable [Field K] [LinearOrder K]

/-- `length(camera.position(relativeTo: box)) < 1.1`, compared through squares. -/
def Near (camera : SIMD3 K) (box : CustomBox K) : Prop :=
  RigidMotion.normSq (box.world⁻¹ • camera) < (11 / 10) ^ 2

instance (camera : SIMD3 K) (box : CustomBox K) : Decidable (box.Near camera) :=
  inferInstanceAs (Decidable (_ < _))

/-- The test compares the distance between the camera and the world position of the box. -/
theorem near_iff (camera : SIMD3 K) (box : CustomBox K) :
    box.Near camera ↔ RigidMotion.normSq (camera - box.position) < (11 / 10) ^ 2 := by
  rw [Near, RigidMotion.normSq_inv_smul, position]

end CustomBox

/-- The module-level variables of `ARViewExtension.swift` and the objects they refer to. -/
structure Scene (K : Type) [CommRing K] where
  boxes : List (CustomBox K)
  /-- `entities`, references into `boxes` -/
  entities : List ℕ
  step : ℕ
  coolDown : Bool
  /-- delayed `coolDown = false` blocks that have not run yet -/
  resets : ℕ

def Scene.initial {K : Type} [CommRing K] : Scene K where
  boxes := []
  entities := []
  step := 0
  coolDown := false
  resets := 0

/-- The ways `playSound` can go. -/
inductive PlaySoundOutcome
  /-- the first `guard`: no such file in the bundle -/
  | noURL
  /-- the audio session or the player throws, which is caught -/
  | throws
  /-- the second `guard`: no player -/
  | noPlayer
  | plays
  deriving DecidableEq

inductive SceneEvent
  | playTimer (box : ℕ)
  | proximityTimer (box : ℕ)
  | coolDownExpires
  | playSound (outcome : PlaySoundOutcome)
  deriving DecidableEq

namespace Scene

variable {K : Type}

section CommRing

variable [CommRing K]

/-- The box `entities[k]` refers to. -/
def entity (sc : Scene K) (k : ℕ) : Option (CustomBox K) :=
  sc.entities[k]?.bind fun b => sc.boxes[b]?

/-! ## Creating boxes -/

/-- A box as `addAnchorEntityToScene` leaves it; without an audio resource it gets no timers. -/
def newBox (anchor : Transform K) (translation : SIMD3 K) (loaded : Bool) : CustomBox K where
  anchorEntity := anchor
  translation := translation
  playing := false
  playTimer := loaded
  proximityTimer := loaded

/-- One round of the loop over `transformations.indices`. -/
def addBox (anchor : Transform K) (translation : SIMD3 K) (loaded : Bool) (sc : Scene K) :
    Scene K :=
  { sc with
    boxes := sc.boxes ++ [newBox anchor translation loaded]
    entities := sc.entities ++ [sc.boxes.length] }

/-- The loop over `transformations.indices`; `loads i2` says whether `AudioFileResource.load`
succeeds in round `i2`. -/
def addBoxes (anchor : Transform K) (transformations : List (SIMD3 K)) (loads : ℕ → Bool)
    (sc : Scene K) : Scene K :=
  transformations.zipIdx.foldl (fun sc p => addBox anchor p.1 (loads p.2) sc) sc

/-- The boxes created by one run of the loop. -/
def newBoxes (anchor : Transform K) (transformations : List (SIMD3 K)) (loads : ℕ → Bool) :
    List (CustomBox K) :=
  transformations.zipIdx.map fun p => newBox anchor p.1 (loads p.2)

@[simp] theorem length_newBoxes (anchor : Transform K) (transformations : List (SIMD3 K))
    (loads : ℕ → Bool) :
    (newBoxes anchor transformations loads).length = transformations.length := by
  simp [newBoxes]

theorem map_translation_newBoxes (anchor : Transform K) (transformations : List (SIMD3 K))
    (loads : ℕ → Bool) :
    (newBoxes anchor transformations loads).map CustomBox.translation = transformations := by
  have h : (fun p : SIMD3 K × ℕ => (newBox anchor p.1 (loads p.2)).translation) = Prod.fst := rfl
  simp [newBoxes, Function.comp_def, h]

theorem foldl_addBox (anchor : Transform K) (loads : ℕ → Bool) (ps : List (SIMD3 K × ℕ))
    (sc : Scene K) :
    ps.foldl (fun sc p => addBox anchor p.1 (loads p.2) sc) sc =
      { sc with
        boxes := sc.boxes ++ ps.map fun p => newBox anchor p.1 (loads p.2)
        entities := sc.entities ++ List.range' sc.boxes.length ps.length } := by
  induction ps generalizing sc with
  | nil => simp
  | cons p ps ih =>
    rw [List.foldl_cons, ih]
    simp [addBox, List.range'_succ]

/-- The loop appends one box and one reference for each waypoint, in order. -/
theorem addBoxes_eq (anchor : Transform K) (transformations : List (SIMD3 K)) (loads : ℕ → Bool)
    (sc : Scene K) :
    addBoxes anchor transformations loads sc =
      { sc with
        boxes := sc.boxes ++ newBoxes anchor transformations loads
        entities := sc.entities ++ List.range' sc.boxes.length transformations.length } := by
  simp [addBoxes, foldl_addBox, newBoxes]

/-! ## Timers -/

/-- The play timer of a box. -/
def playTimer (b : ℕ) (sc : Scene K) : Option (Scene K) := do
  let box ← sc.boxes[b]?
  if box.playTimer then
    if sc.entities[sc.step]? = some b then
      some { sc with boxes := sc.boxes.set b { box with playing := true, playTimer := false } }
    else some sc
  else none

/-- The block scheduled 5 s after the cool-down started. -/
def coolDownExpires (sc : Scene K) : Option (Scene K) :=
  if 0 < sc.resets then some { sc with coolDown := false, resets := sc.resets - 1 } else none

/-- Start a cool-down and schedule its end. -/
def startCoolDown (sc : Scene K) : Scene K :=
  { sc with coolDown := true, resets := sc.resets + 1 }

/-- `playSound`, as far as it acts on the cool-down. -/
def playSound (outcome : PlaySoundOutcome) (sc : Scene K) : Scene K :=
  match outcome with
  | .noURL => sc
  | .noPlayer => sc
  | .throws | .plays => if sc.coolDown then sc else startCoolDown sc

end CommRing

variable [Field K] [LinearOrder K]

/-- The proximity timer of a box, `camera` being the module-level camera position.  The sound is
stopped whenever the camera is near; `step` advances only outside a cool-down. -/
def proximityTimer (camera : SIMD3 K) (b : ℕ) (sc : Scene K) : Option (Scene K) := do
  let box ← sc.boxes[b]?
  if box.proximityTimer then
    if box.Near camera then
      let stopped := { sc with boxes := sc.boxes.set b { box with playing := false } }
      if sc.coolDown then some stopped
      else some (startCoolDown { stopped with step := sc.step + 1 })
    else some sc
  else none

/-- One step of the scene, `camera` being the module-level camera position. -/
def next (camera : SIMD3 K) (sc : Scene K) : SceneEvent → Option (Scene K)
  | .playTimer b => sc.playTimer b
  | .proximityTimer b => sc.proximityTimer camera b
  | .coolDownExpires => sc.coolDownExpires
  | .playSound outcome => some (sc.playSound outcome)

/-! ## What one step can do -/

section Inversion

variable {camera : SIMD3 K} {sc sc' : Scene K}

theorem next_playTimer {b : ℕ} (h : sc.next camera (.playTimer b) = some sc') :
    ∃ box, sc.boxes[b]? = some box ∧ box.playTimer = true ∧
      ((sc.entities[sc.step]? = some b ∧
          sc' = { sc with
            boxes := sc.boxes.set b { box with playing := true, playTimer := false } }) ∨
        (sc.entities[sc.step]? ≠ some b ∧ sc' = sc)) := by
  obtain ⟨box, hbox, h⟩ := Option.bind_eq_some_iff.1 h
  split at h
  case isFalse => cases h
  case isTrue harmed =>
    refine ⟨box, hbox, harmed, ?_⟩
    split at h
    case isTrue hturn => exact .inl ⟨hturn, by simpa using h.symm⟩
    case isFalse hturn => exact .inr ⟨hturn, by simpa using h.symm⟩

theorem next_proximityTimer {b : ℕ} (h : sc.next camera (.proximityTimer b) = some sc') :
    ∃ box, sc.boxes[b]? = some box ∧ box.proximityTimer = true ∧
      ((¬ box.Near camera ∧ sc' = sc) ∨
        (box.Near camera ∧ sc.coolDown = true ∧
          sc' = { sc with boxes := sc.boxes.set b { box with playing := false } }) ∨
        (box.Near camera ∧ sc.coolDown = false ∧
          sc' = { sc with
            boxes := sc.boxes.set b { box with playing := false }
            step := sc.step + 1
            coolDown := true
            resets := sc.resets + 1 })) := by
  obtain ⟨box, hbox, h⟩ := Option.bind_eq_some_iff.1 h
  split at h
  case isFalse => cases h
  case isTrue htimer =>
    refine ⟨box, hbox, htimer, ?_⟩
    split at h
    case isFalse hfar => exact .inl ⟨hfar, by simpa using h.symm⟩
    case isTrue hnear =>
      split at h
      case isTrue hcool => exact .inr (.inl ⟨hnear, hcool, by simpa using h.symm⟩)
      case isFalse hcool =>
        exact .inr (.inr ⟨hnear, by simpa using hcool, by simpa [startCoolDown] using h.symm⟩)

theorem next_coolDownExpires (h : sc.next camera .coolDownExpires = some sc') :
    0 < sc.resets ∧ sc' = { sc with coolDown := false, resets := sc.resets - 1 } := by
  simp only [next, coolDownExpires] at h
  split at h
  case isTrue hpos => exact ⟨hpos, by simpa using h.symm⟩
  case isFalse => cases h

theorem next_playSound {outcome : PlaySoundOutcome}
    (h : sc.next camera (.playSound outcome) = some sc') :
    sc' = sc ∨ (sc.coolDown = false ∧
      sc' = { sc with coolDown := true, resets := sc.resets + 1 }) := by
  cases h
  cases outcome <;> cases hcool : sc.coolDown <;> simp [playSound, startCoolDown, hcool]

/-! ### What no step changes -/

theorem next_entities {e : SceneEvent} (h : sc.next camera e = some sc') :
    sc'.entities = sc.entities := by
  cases e with
  | playTimer b =>
    obtain ⟨box, -, -, ⟨-, rfl⟩ | ⟨-, rfl⟩⟩ := next_playTimer h <;> rfl
  | proximityTimer b =>
    obtain ⟨box, -, -, ⟨-, rfl⟩ | ⟨-, -, rfl⟩ | ⟨-, -, rfl⟩⟩ := next_proximityTimer h <;> rfl
  | coolDownExpires =>
    obtain ⟨-, rfl⟩ := next_coolDownExpires h
    rfl
  | playSound outcome =>
    obtain rfl | ⟨-, rfl⟩ := next_playSound h <;> rfl

/-- No timer moves a box, creates one or removes one. -/
theorem next_frames {e : SceneEvent} (h : sc.next camera e = some sc') :
    sc'.boxes.map CustomBox.frame = sc.boxes.map CustomBox.frame := by
  cases e with
  | playTimer b =>
    obtain ⟨box, hbox, -, ⟨-, rfl⟩ | ⟨-, rfl⟩⟩ := next_playTimer h
    · exact map_set_eq_map hbox rfl
    · rfl
  | proximityTimer b =>
    obtain ⟨box, hbox, -, ⟨-, rfl⟩ | ⟨-, -, rfl⟩ | ⟨-, -, rfl⟩⟩ := next_proximityTimer h
    · rfl
    · exact map_set_eq_map hbox rfl
    · exact map_set_eq_map hbox rfl
  | coolDownExpires =>
    obtain ⟨-, rfl⟩ := next_coolDownExpires h
    rfl
  | playSound outcome =>
    obtain rfl | ⟨-, rfl⟩ := next_playSound h <;> rfl

/-- `step` moves by one, and only in a proximity fire of a box near the camera outside a
cool-down. -/
theorem next_step {e : SceneEvent} (h : sc.next camera e = some sc') :
    sc'.step = sc.step ∨ (sc'.step = sc.step + 1 ∧ sc.coolDown = false ∧
      ∃ b box, e = .proximityTimer b ∧ sc.boxes[b]? = some box ∧ box.Near camera) := by
  cases e with
  | playTimer b =>
    obtain ⟨box, -, -, ⟨-, rfl⟩ | ⟨-, rfl⟩⟩ := next_playTimer h <;> exact .inl rfl
  | proximityTimer b =>
    obtain ⟨box, hbox, -, ⟨-, rfl⟩ | ⟨-, -, rfl⟩ | ⟨hnear, hcool, rfl⟩⟩ := next_proximityTimer h
    · exact .inl rfl
    · exact .inl rfl
    · exact .inr ⟨rfl, hcool, b, box, rfl, hbox, hnear⟩
  | coolDownExpires =>
    obtain ⟨-, rfl⟩ := next_coolDownExpires h
    exact .inl rfl
  | playSound outcome =>
    obtain rfl | ⟨-, rfl⟩ := next_playSound h <;> exact .inl rfl

end Inversion

end Scene

end EyeMaps
