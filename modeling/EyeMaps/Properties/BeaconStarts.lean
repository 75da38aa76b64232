import EyeMaps.Properties.BeaconQueue
import EyeMaps.Properties.OneBeacon

/-!
# Beacons start once and in order

The play timer of a box starts its sound when the box is `entities[step]`, and then invalidates
itself.  Boxes are only ever appended to `entities`, no box occurs there twice, no timer comes
back and `step` never decreases, so the indices of the boxes started form a strictly increasing
sequence (`beacons_start_in_order`), and what is started later lies at or behind the present
`step`.  `StartedInOrder` is the invariant of a run next to the observer `started` of the indices.
That what the observer takes for a start is one, a sound that was off and comes on, is
`starts_iff_plays`.
-/

namespace EyeMaps

open Framework

namespace Scene

variable {K : Type} [Field K] [LinearOrder K] {sc sc' : Scene K} {camera : SIMD3 K}

/-- A play timer that is gone does not come back. -/
theorem next_playTimer_gone {e : SceneEvent} (hnext : sc.next camera e = some sc') {b : ℕ}
    (hgone : ∀ box ∈ sc.boxes[b]?, box.playTimer = false) :
    ∀ box ∈ sc'.boxes[b]?, box.playTimer = false := by
  intro box' hbox'
  cases e with
  | playTimer b' =>
    obtain ⟨box, hbox, -, ⟨-, rfl⟩ | ⟨-, rfl⟩⟩ := next_playTimer hnext
    · rcases getElem?_set_cases hbox' with ⟨rfl, rfl⟩ | ⟨-, hold⟩
      · rfl
      · exact hgone box' hold
    · exact hgone box' hbox'
  | proximityTimer b' =>
    have hstopped {box : CustomBox K} (hbox : sc.boxes[b']? = some box)
        (hget : (sc.boxes.set b' { box with playing := false })[b]? = some box') :
        box'.playTimer = false := by
      rcases getElem?_set_cases hget with ⟨rfl, rfl⟩ | ⟨-, hold⟩
      · exact hgone box hbox
      · exact hgone box' hold
    obtain ⟨box, hbox, -, ⟨-, rfl⟩ | ⟨-, -, rfl⟩ | ⟨-, -, rfl⟩⟩ := next_proximityTimer hnext
    · exact hgone box' hbox'
    · exact hstopped hbox hbox'
    · exact hstopped hbox hbox'
  | coolDownExpires =>
    obtain ⟨-, rfl⟩ := next_coolDownExpires hnext
    exact hgone box' hbox'
  | playSound outcome =>
    obtain rfl | ⟨-, rfl⟩ := next_playSound hnext <;> exact hgone box' hbox'

/-- A box whose play timer runs is silent. -/
def ArmedSilent (sc : Scene K) : Prop :=
  ∀ (b : ℕ) (box : CustomBox K), sc.boxes[b]? = some box → box.playTimer = true →
    box.playing = false

/-- A box that comes to sound has lost its play timer. -/
theorem ArmedSilent.next {e : SceneEvent} (h : sc.ArmedSilent)
    (hnext : sc.next camera e = some sc') : sc'.ArmedSilent := by
  intro b box' hbox' harmed
  cases e with
  | playTimer b' =>
    obtain ⟨box, hbox, -, ⟨-, rfl⟩ | ⟨-, rfl⟩⟩ := next_playTimer hnext
    · rcases getElem?_set_cases hbox' with ⟨rfl, rfl⟩ | ⟨-, hold⟩
      · cases harmed
      · exact h b box' hold harmed
    · exact h b box' hbox' harmed
  | proximityTimer b' =>
    have hstopped {box : CustomBox K}
        (hget : (sc.boxes.set b' { box with playing := false })[b]? = some box') :
        box'.playing = false := by
      rcases getElem?_set_cases hget with ⟨rfl, rfl⟩ | ⟨-, hold⟩
      · rfl
      · exact h b box' hold harmed
    obtain ⟨box, -, -, ⟨-, rfl⟩ | ⟨-, -, rfl⟩ | ⟨-, -, rfl⟩⟩ := next_proximityTimer hnext
    · exact h b box' hbox' harmed
    · exact hstopped hbox'
    · exact hstopped hbox'
  | coolDownExpires =>
    obtain ⟨-, rfl⟩ := next_coolDownExpires hnext
    exact h b box' hbox' harmed
  | playSound outcome =>
    obtain rfl | ⟨-, rfl⟩ := next_playSound hnext <;> exact h b box' hbox' harmed

end Scene

namespace AppState

variable {K : Type} [Field K] [LinearOrder K] {s s' : AppState K} {e : AppEvent K}

/-- The observer of the indices in `entities` of the boxes whose sound has been started. -/
def started (c : List ℕ) (s : AppState K) (e : AppEvent K) (_ : AppState K) : List ℕ :=
  match e with
  | .scene (.playTimer b) => if Starts s b then c ++ [s.scene.entities.idxOf b] else c
  | _ => c

/-- The indices started so far increase up to `step`, and the play timers of the boxes there are
gone. -/
structure StartedInOrder (c : List ℕ) (sc : Scene K) : Prop where
  indexed : sc.Indexed
  increasing : c.Pairwise (· < ·)
  le_step : ∀ i ∈ c, i ≤ sc.step
  within : ∀ i ∈ c, i < sc.boxes.length
  gone : ∀ i ∈ c, ∀ box ∈ sc.boxes[i]?, box.playTimer = false

/-- No event moves `step` back. -/
theorem step_le (hstep : (app K).step s e = some s') : s.scene.step ≤ s'.scene.step := by
  rcases step_advance hstep with hsame | ⟨hadv, -⟩
  · exact hsame.ge
  · omega

/-- The indices started before an event stay in order. -/
theorem StartedInOrder.step {c : List ℕ} (h : StartedInOrder c s.scene)
    (hstep : (app K).step s e = some s') : StartedInOrder c s'.scene := by
  have hlen : s.scene.boxes.length ≤ s'.scene.boxes.length ∧
      ∀ i ∈ c, ∀ box ∈ s'.scene.boxes[i]?, box.playTimer = false := by
    rcases step_scene hstep with hsame | ⟨v, view, anchors, -, -, hadd⟩ | ⟨e', -, hnext⟩
    · rw [hsame]
      exact ⟨le_rfl, h.gone⟩
    · rw [hadd, CustomARView.sessionDidAdd_scene]
      refine ⟨by simp, fun i hi box hbox => ?_⟩
      rcases getElem?_append_cases hbox with hold | ⟨hle, -⟩
      · exact h.gone i hi box hold
      · exact absurd hle (Nat.not_le.2 (h.within i hi))
    · have hframes := congrArg List.length (Scene.next_frames hnext)
      simp only [List.length_map] at hframes
      exact ⟨hframes.ge, fun i hi => Scene.next_playTimer_gone hnext (h.gone i hi)⟩
  exact ⟨indexed_step h.indexed hstep, h.increasing,
    fun i hi => (h.le_step i hi).trans (step_le hstep),
    fun i hi => (h.within i hi).trans_le hlen.1, hlen.2⟩

omit [LinearOrder K] in
/-- The box that starts is the one at index `step`. -/
theorem Starts.idxOf_eq {b : ℕ} (h : Starts s b) (hind : s.scene.Indexed) :
    s.scene.entities.idxOf b = s.scene.step ∧ b = s.scene.step := by
  obtain ⟨hlt, hget⟩ := List.getElem?_eq_some_iff.1 h.1
  have hnodup : s.scene.entities.Nodup := by
    rw [hind]
    exact List.nodup_range
  have hidx : s.scene.entities.idxOf b = s.scene.step := by
    rw [← hget]
    exact hnodup.idxOf_getElem s.scene.step hlt
  exact ⟨hidx, hind.eq_of_entities h.1⟩

/-- A box that starts has not been started before; its timer is then gone. -/
theorem StartedInOrder.start {c : List ℕ} {b : ℕ} (h : StartedInOrder c s.scene)
    (hstarts : Starts s b) (hstep : (app K).step s (.scene (.playTimer b)) = some s') :
    StartedInOrder (c ++ [s.scene.entities.idxOf b]) s'.scene := by
  have hkept := h.step hstep
  obtain ⟨hidx, hb⟩ := hstarts.idxOf_eq h.indexed
  obtain ⟨hturn, box, hbox, harmed⟩ := hstarts
  have hlt : ∀ i ∈ c, i < b := by
    intro i hi
    have hle := h.le_step i hi
    have hne : i ≠ b := by
      rintro rfl
      have hgone := h.gone i hi box hbox
      simp [harmed] at hgone
    omega
  obtain ⟨sc', hnext, rfl⟩ := step_nextScene hstep
  obtain ⟨box', hbox', -, ⟨-, rfl⟩ | ⟨hother, -⟩⟩ := Scene.next_playTimer hnext
  · rw [hidx.trans hb.symm]
    obtain ⟨hbound, -⟩ := List.getElem?_eq_some_iff.1 hbox
    refine ⟨hkept.indexed, ?_, ?_, ?_, ?_⟩
    · refine List.pairwise_append.2 ⟨h.increasing, List.pairwise_singleton _ _, ?_⟩
      rintro i hi _ hj
      rw [List.mem_singleton.1 hj]
      exact hlt i hi
    · simp only [List.mem_append, List.mem_singleton]
      rintro i (hi | rfl)
      · exact hkept.le_step i hi
      · exact hb.le
    · simp only [List.mem_append, List.mem_singleton]
      rintro i (hi | rfl)
      · exact hkept.within i hi
      · simpa using hbound
    · simp only [List.mem_append, List.mem_singleton]
      rintro i (hi | rfl) box hget
      · exact hkept.gone i hi box hget
      · rw [getElem?_set_self' hbox', Option.mem_some_iff] at hget
        rw [← hget]
  · exact absurd hturn hother

theorem startedInOrder_step {c : List ℕ} (h : StartedInOrder c s.scene)
    (hstep : (app K).step s e = some s') : StartedInOrder (started c s e s') s'.scene := by
  unfold started
  split
  case h_1 b =>
    split
    case isTrue hstarts => exact h.start hstarts hstep
    case isFalse => exact h.step hstep
  case h_2 => exact h.step hstep

/-! ## The result -/

omit [LinearOrder K] in
/-- What an event adds to the indices started lies at `step`. -/
theorem started_eq_append (h : s.scene.Indexed) (c : List ℕ) (e : AppEvent K) (s' : AppState K) :
    ∃ new, started c s e s' = c ++ new ∧ ∀ i ∈ new, i = s.scene.step := by
  unfold started
  split
  case h_1 b =>
    split
    case isTrue hstarts => exact ⟨_, rfl, by simp [(hstarts.idxOf_eq h).1]⟩
    case isFalse => exact ⟨[], by simp, by simp⟩
  case h_2 => exact ⟨[], by simp, by simp⟩

/-- What is started from now on lies at or behind the present `step`. -/
theorem started_later {c c' : List ℕ} {es : List (AppEvent K)} (hind : s.scene.Indexed)
    (hrun : ((app K).observe started).run (c, s) es = some (c', s')) :
    ∃ later, c' = c ++ later ∧ ∀ i ∈ later, s.scene.step ≤ i := by
  have hinit : s.scene.Indexed ∧ s.scene.step ≤ s.scene.step ∧
      ∃ later, c = c ++ later ∧ ∀ i ∈ later, s.scene.step ≤ i :=
    ⟨hind, le_rfl, [], by simp, by simp⟩
  refine (Machine.invariant_of_observed_step (P := fun c₁ t => t.scene.Indexed ∧
    s.scene.step ≤ t.scene.step ∧ ∃ later, c₁ = c ++ later ∧ ∀ i ∈ later, s.scene.step ≤ i)
    ?_ hinit hrun).2.2
  rintro c₁ t e t' ⟨hind, hle, later, rfl, hlater⟩ hstep
  obtain ⟨new, hnew, hat⟩ := started_eq_append hind (c ++ later) e t'
  refine ⟨indexed_step hind hstep, hle.trans (step_le hstep), later ++ new, ?_, ?_⟩
  · rw [hnew, List.append_assoc]
  · intro i hi
    rcases List.mem_append.1 hi with hold | hi
    · exact hlater i hold
    · rw [hat i hi]
      exact hle

variable {locations : List (Location K)} {storedData : UUID → Option Data}

theorem armedSilent_step (h : s.scene.ArmedSilent) (hstep : (app K).step s e = some s') :
    s'.scene.ArmedSilent := by
  rcases step_scene hstep with hsame | ⟨v, view, anchors, -, -, hadd⟩ | ⟨e', -, hnext⟩
  · rwa [hsame]
  · rw [hadd, CustomARView.sessionDidAdd_scene]
    intro b box hbox harmed
    rcases getElem?_append_cases hbox with hold | ⟨-, hnew⟩
    · exact h b box hold harmed
    · exact playing_deliveredBoxes hnew
  · exact h.next hnext

/-- In every run from launch, a fire of the play timer of a box starts its sound exactly if the
sound is off before it and on after it. -/
theorem starts_iff_plays {es : List (AppEvent K)} {b : ℕ}
    (hrun : (app K).run (initial locations storedData) es = some s)
    (hstep : (app K).step s (.scene (.playTimer b)) = some s') :
    Starts s b ↔ (∃ box ∈ s.scene.boxes[b]?, box.playing = false) ∧
      ∃ box ∈ s'.scene.boxes[b]?, box.playing = true := by
  have hinit : (initial locations storedData).scene.ArmedSilent := by
    intro b box hbox
    simp [initial, Scene.initial] at hbox
  have hsilent : s.scene.ArmedSilent :=
    Machine.invariant_of_step (P := fun s => s.scene.ArmedSilent)
      (fun _ _ _ h hstep => armedSilent_step h hstep) hinit hrun
  obtain ⟨sc', hnext, rfl⟩ := step_nextScene hstep
  obtain ⟨box, hbox, harmed, ⟨hturn, rfl⟩ | ⟨hother, rfl⟩⟩ := Scene.next_playTimer hnext
  · have hoff : box.playing = false := hsilent b box hbox harmed
    exact iff_of_true ⟨hturn, box, hbox, harmed⟩
      ⟨⟨box, hbox, hoff⟩, _, getElem?_set_self' hbox, rfl⟩
  · refine iff_of_false (fun hstarts => hother hstarts.1) ?_
    rintro ⟨⟨box₁, hbox₁, hoff⟩, box₂, hbox₂, hon⟩
    cases hbox₁.symm.trans hbox₂
    rw [hoff] at hon
    cases hon

/-- In every run from launch the indices of the boxes started increase strictly, so no box starts
twice, and no later start lies before the present `step`. -/
theorem beacons_start_in_order {es : List (AppEvent K)} {c : List ℕ}
    (hrun : ((app K).observe started).run ([], initial locations storedData) es = some (c, s)) :
    c.Pairwise (· < ·) ∧ c.Nodup ∧
      ∀ es' c' s', ((app K).observe started).run (c, s) es' = some (c', s') →
        ∃ later, c' = c ++ later ∧ ∀ i ∈ later, s.scene.step ≤ i := by
  have hinit : StartedInOrder [] (Scene.initial : Scene K) :=
    ⟨Scene.Indexed.initial, .nil, by simp, by simp, by simp⟩
  have hfinal : StartedInOrder c s.scene :=
    Machine.invariant_of_observed_step (P := fun c s => StartedInOrder c s.scene)
      (fun _ _ _ _ => startedInOrder_step) hinit hrun
  exact ⟨hfinal.increasing, hfinal.increasing.imp fun hlt => hlt.ne,
    fun _ _ _ hlater => started_later hfinal.indexed hlater⟩

/-- Both beacons of the hallway sound, the second after a cool-down. -/
def bothBeacons : List (AppEvent ℚ) :=
  hallwayDelivered ++
    [.scene (.playTimer 0), .cameraTimer 0 1, .scene (.proximityTimer 0), .scene (.playTimer 1)]

theorem both_beacons_start :
    ∃ s, ((app ℚ).observe started).run ([], initial [hallway] fun _ => none) bothBeacons =
        some ([0, 1], s) ∧
      ∀ es' c' s', ((app ℚ).observe started).run ([0, 1], s) es' = some (c', s') →
        ∃ later, c' = [0, 1] ++ later ∧ ∀ i ∈ later, s.scene.step ≤ i := by
  have hsome : (((app ℚ).observe started).run ([], initial [hallway] fun _ => none)
      bothBeacons).map (fun p => p.1) = some [0, 1] := by
    decide +kernel
  obtain ⟨⟨c, s⟩, hrun, hc⟩ := Option.map_eq_some_iff.1 hsome
  obtain rfl : c = [0, 1] := hc
  exact ⟨s, hrun, (beacons_start_in_order hrun).2.2⟩

end AppState

end EyeMaps
