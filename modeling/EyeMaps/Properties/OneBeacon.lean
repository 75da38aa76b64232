import EyeMaps.Properties.BeaconOrder

/-!
# One beacon at a time

The play timer starts the sound of `entities[step]`.  The proximity timer of a box stops the sound
of that box and may move `step` on; when the box is not `entities[step]`, a sound that is playing
goes on behind the new `step`, and the next play timer adds a second one.

`oneBeacon_iff_meets` determines the runs in which at most `entities[step]` sounds: those in which
a proximity timer that moves `step` fires for `entities[step]` itself, or finds it silent.
-/

namespace EyeMaps

open Framework

namespace Scene

variable {K : Type}

section CommRing

variable [CommRing K] {sc : Scene K}

/-- The boxes whose audio is playing. -/
def sounding (sc : Scene K) : List ℕ :=
  (List.range sc.boxes.length).filter fun b => sc.boxes[b]?.any CustomBox.playing

/-- At most one box sounds, and if one does it is `entities[step]`. -/
def OneBeacon (sc : Scene K) : Prop :=
  sc.sounding.length ≤ 1 ∧ ∀ b ∈ sc.sounding, sc.entities[sc.step]? = some b

instance : Decidable sc.OneBeacon := inferInstanceAs (Decidable (_ ∧ ∀ b ∈ _, _))

theorem mem_sounding {b : ℕ} :
    b ∈ sc.sounding ↔ ∃ box, sc.boxes[b]? = some box ∧ box.playing = true := by
  rw [sounding, List.mem_filter, List.mem_range, Option.any_eq_true]
  constructor
  · rintro ⟨-, box, hbox, hplaying⟩
    exact ⟨box, hbox, hplaying⟩
  · rintro ⟨box, hbox, hplaying⟩
    obtain ⟨hlt, -⟩ := List.getElem?_eq_some_iff.1 hbox
    exact ⟨hlt, box, hbox, hplaying⟩

theorem nodup_sounding : sc.sounding.Nodup := List.nodup_range.filter _

/-- It is enough that nothing but `entities[step]` sounds. -/
theorem oneBeacon_iff : sc.OneBeacon ↔ ∀ b box, sc.boxes[b]? = some box → box.playing = true →
    sc.entities[sc.step]? = some b := by
  constructor
  · rintro ⟨-, hcurrent⟩ b box hbox hplaying
    exact hcurrent b (mem_sounding.2 ⟨box, hbox, hplaying⟩)
  · intro h
    have hcurrent : ∀ b ∈ sc.sounding, sc.entities[sc.step]? = some b := by
      intro b hb
      obtain ⟨box, hbox, hplaying⟩ := mem_sounding.1 hb
      exact h b box hbox hplaying
    have hsub : sc.sounding ⊆ sc.entities[sc.step]?.toList := by
      intro b hb
      simp [hcurrent b hb]
    have hle : sc.sounding.length ≤ sc.entities[sc.step]?.toList.length :=
      (nodup_sounding.subperm hsub).length_le
    refine ⟨hle.trans ?_, hcurrent⟩
    cases sc.entities[sc.step]? <;> simp

end CommRing

variable [Field K] [LinearOrder K] {sc sc' : Scene K} {camera : SIMD3 K}

/-- A proximity timer that moves `step` fires for `entities[step]`, or finds it silent. -/
def LeavesNoSound (camera : SIMD3 K) (sc : Scene K) : SceneEvent → Prop
  | .proximityTimer b =>
    ∀ box ∈ sc.boxes[b]?, box.Near camera → sc.coolDown = false →
      sc.entities[sc.step]? = some b ∨ ∀ current ∈ sc.entity sc.step, current.playing = false
  | _ => True

instance (camera : SIMD3 K) (sc : Scene K) : ∀ e, Decidable (sc.LeavesNoSound camera e) := by
  rintro ⟨⟩ <;> dsimp only [LeavesNoSound] <;> infer_instance

omit [LinearOrder K] in
/-- Stopping a box leaves the sounds of the others. -/
theorem playing_of_stopped {b b' : ℕ} {box box' : CustomBox K}
    (hget : (sc.boxes.set b { box with playing := false })[b']? = some box')
    (hplaying : box'.playing = true) : b' ≠ b ∧ sc.boxes[b']? = some box' := by
  rcases getElem?_set_cases hget with ⟨-, rfl⟩ | hother
  · cases hplaying
  · exact hother

omit [LinearOrder K] in
/-- A fire that moves `step`. -/
theorem oneBeacon_advance_iff {b : ℕ} {box : CustomBox K} (hind : sc.Indexed)
    (h : sc.OneBeacon) :
    ({ sc with
        boxes := sc.boxes.set b { box with playing := false }
        step := sc.step + 1
        coolDown := true
        resets := sc.resets + 1 } : Scene K).OneBeacon ↔
      sc.entities[sc.step]? = some b ∨
        ∀ current ∈ sc.entity sc.step, current.playing = false := by
  rw [oneBeacon_iff] at h ⊢
  constructor
  · intro h'
    by_cases hturn : sc.entities[sc.step]? = some b
    · exact .inl hturn
    · refine .inr fun current hcurrent => ?_
      obtain ⟨k, hk, hget⟩ := Option.bind_eq_some_iff.1 hcurrent
      have hne : b ≠ k := by
        rintro rfl
        exact hturn hk
      by_contra hplaying
      -- the current box still sounds, and it is not at the next index
      have hnext : sc.entities[sc.step + 1]? = some k :=
        h' k current (by rw [List.getElem?_set_ne hne]; exact hget) (by simpa using hplaying)
      have hone := hind.eq_of_entities hk
      have htwo := hind.eq_of_entities hnext
      omega
  · rintro hcond b' box' hbox' hplaying
    obtain ⟨hne, hold⟩ := playing_of_stopped hbox' hplaying
    have hturn := h b' box' hold hplaying
    rcases hcond with hb | hsilent
    · exact absurd (Option.some.inj (hturn.symm.trans hb)) hne
    · have hcurrent : sc.entity sc.step = some box' :=
        Option.bind_eq_some_iff.2 ⟨b', hturn, hold⟩
      simp [hsilent box' hcurrent] at hplaying

/-- Step by step, the law and the condition are the same. -/
theorem oneBeacon_next_iff {e : SceneEvent} (hind : sc.Indexed) (h : sc.OneBeacon)
    (hnext : sc.next camera e = some sc') : sc'.OneBeacon ↔ sc.LeavesNoSound camera e := by
  cases e with
  | playTimer b =>
    refine iff_of_true ?_ trivial
    obtain ⟨box, hbox, -, ⟨hturn, rfl⟩ | ⟨-, rfl⟩⟩ := next_playTimer hnext
    · rw [oneBeacon_iff] at h ⊢
      intro b' box' hbox' hplaying
      rcases getElem?_set_cases hbox' with ⟨rfl, -⟩ | ⟨-, hold⟩
      · exact hturn
      · exact h b' box' hold hplaying
    · exact h
  | proximityTimer b =>
    obtain ⟨box, hbox, -, ⟨hfar, rfl⟩ | ⟨-, hcool, rfl⟩ | ⟨hnear, hcool, rfl⟩⟩ :=
      next_proximityTimer hnext
    · refine iff_of_true h fun box' hbox' hnear => ?_
      cases hbox.symm.trans hbox'
      exact absurd hnear hfar
    · refine iff_of_true ?_ fun _ _ _ hoff => by simp [hcool] at hoff
      rw [oneBeacon_iff] at h ⊢
      intro b' box' hbox' hplaying
      exact h b' box' (playing_of_stopped hbox' hplaying).2 hplaying
    · rw [oneBeacon_advance_iff hind h]
      simp [LeavesNoSound, hbox, hnear, hcool]
  | coolDownExpires =>
    obtain ⟨-, rfl⟩ := next_coolDownExpires hnext
    exact iff_of_true h trivial
  | playSound outcome =>
    obtain rfl | ⟨-, rfl⟩ := next_playSound hnext <;> exact iff_of_true h trivial

end Scene

namespace AppState

variable {K : Type} [Field K] [LinearOrder K] {s s' : AppState K} {e : AppEvent K}

/-- The condition, for the events of the app. -/
def LeavesNoSound (s : AppState K) : AppEvent K → Prop
  | .scene e => s.scene.LeavesNoSound s.globals.camera e
  | _ => True

instance (s : AppState K) : ∀ e, Decidable (s.LeavesNoSound e) := by
  rintro ⟨⟩ <;> dsimp only [LeavesNoSound] <;> infer_instance

omit [LinearOrder K] in
/-- Boxes are delivered silent. -/
theorem playing_deliveredBoxes {ts : List (SIMD3 K)} {anchors : List (ARAnchor K × (ℕ → Bool))}
    {box : CustomBox K} (hbox : box ∈ CustomARView.deliveredBoxes ts anchors) :
    box.playing = false := by
  obtain ⟨a, -, hbox⟩ := List.mem_flatMap.1 hbox
  split at hbox
  · obtain ⟨p, -, rfl⟩ := List.mem_map.1 hbox
    rfl
  · cases hbox

theorem oneBeacon_step_iff (hind : s.scene.Indexed) (h : s.scene.OneBeacon)
    (hstep : (app K).step s e = some s') : s'.scene.OneBeacon ↔ s.LeavesNoSound e := by
  cases e with
  | scene e' =>
    obtain ⟨sc', hnext, rfl⟩ := step_nextScene hstep
    exact Scene.oneBeacon_next_iff hind h hnext
  | _ =>
    refine iff_of_true ?_ trivial
    rcases step_scene hstep with hsame | ⟨v, view, anchors, -, -, hadd⟩ | ⟨_, he, -⟩
    · rwa [hsame]
    · rw [hadd, CustomARView.sessionDidAdd_scene]
      rw [Scene.oneBeacon_iff] at h ⊢
      intro b box hbox hplaying
      rcases getElem?_append_cases hbox with hold | ⟨-, hnew⟩
      · obtain ⟨hlt, hget⟩ := List.getElem?_eq_some_iff.1 (h b box hold hplaying)
        exact List.getElem?_eq_some_iff.2 ⟨by simp; omega, by simp [hlt, hget]⟩
      · simp [playing_deliveredBoxes hnew] at hplaying
    · cases he

/-! ## The result -/

/-- From launch, at most `entities[step]` sounds, in exactly the runs in which every proximity
timer that moves `step` fires for that box or finds it silent. -/
theorem oneBeacon_iff_meets (locations : List (Location K)) (storedData : UUID → Option Data)
    (es : List (AppEvent K)) :
    (app K).Along (fun _ _ s' => s'.scene.OneBeacon) (initial locations storedData) es ↔
      (app K).Meets LeavesNoSound (initial locations storedData) es := by
  have hinit : (Scene.initial : Scene K).OneBeacon := by
    rw [Scene.oneBeacon_iff]
    intro b box hbox
    simp [Scene.initial] at hbox
  refine Machine.along_iff_meets (P := fun s => s.scene.Indexed ∧ s.scene.OneBeacon)
    (C := LeavesNoSound) (D := fun _ _ s' => s'.scene.OneBeacon) ?_
    ⟨Scene.Indexed.initial, hinit⟩
  rintro s e s' ⟨hind, h⟩ hstep
  have hiff := oneBeacon_step_iff hind h hstep
  exact ⟨hiff, fun hcond => ⟨indexed_step hind hstep, hiff.2 hcond⟩⟩

/-- The camera is at the second waypoint while the first beacon sounds. -/
def soundLeftBehind : List (AppEvent ℚ) :=
  hallwayDelivered ++
    [.scene (.playTimer 0), .cameraTimer 0 (RigidMotion.translate ![10, 0, 0]),
      .scene (.proximityTimer 1)]

/-- The first beacon goes on behind `step`, and the second one joins it. -/
theorem two_beacons_sound :
    ¬ (app ℚ).Along (fun _ _ s' => s'.scene.OneBeacon) (initial [hallway] fun _ => none)
        soundLeftBehind ∧
      ((app ℚ).run (initial [hallway] fun _ => none)
        (soundLeftBehind ++ [.scene (.playTimer 1)])).map (fun s => s.scene.sounding) =
          some [0, 1] := by
  decide +kernel

end AppState

end EyeMaps
