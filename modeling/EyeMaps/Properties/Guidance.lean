import EyeMaps.Properties.BeaconOrder

/-!
# The current beacon can be heard

While a route is unfinished and the user is away from `entities[step]`, the sound of that box
should be playing or about to start.  The proximity timer stops the sound whenever the camera is
near, but advances `step` only outside a cool-down; a box whose play timer has already gone is
then silent for good.  `KeepsBeacon` excludes that one kind of fire (and a delivery whose audio
resource cannot be loaded, which leaves boxes without timers), and `guidance_kept` shows that
nothing else loses the beacon.

The invariant is `Scene.Audible`: every box from `step` on still has its play timer, except that
the box at `step` may be playing instead.
-/

namespace EyeMaps

open Framework

namespace Scene

variable {K : Type}

section CommRing

variable [CommRing K] {sc : Scene K}

/-- The next fire of the play timer of `entities[step]` starts its sound. -/
def StartsNext (sc : Scene K) : Prop :=
  ∃ b ∈ sc.entities[sc.step]?, ∃ sc' ∈ sc.playTimer b, ∃ box ∈ sc'.entity sc.step,
    box.playing = true

instance : Decidable sc.StartsNext := inferInstanceAs (Decidable (∃ b ∈ _, ∃ sc' ∈ _, _))

theorem startsNext_of_playTimer {box : CustomBox K} (hbox : sc.entity sc.step = some box)
    (harmed : box.playTimer = true) : sc.StartsNext := by
  obtain ⟨b, hb, hbox⟩ := Option.bind_eq_some_iff.1 hbox
  let box' : CustomBox K := { box with playing := true, playTimer := false }
  have hfire : sc.playTimer b = some { sc with boxes := sc.boxes.set b box' } := by
    simp [playTimer, hbox, harmed, hb, box']
  refine ⟨b, hb, _, hfire, box', ?_, rfl⟩
  exact Option.bind_eq_some_iff.2 ⟨b, hb, getElem?_set_self' hbox⟩

/-- Every box from `step` on has its play timer, or is the box at `step` and is playing. -/
def Audible (sc : Scene K) : Prop :=
  ∀ b box, sc.step ≤ b → sc.boxes[b]? = some box →
    box.playTimer = true ∨ (b = sc.step ∧ box.playing = true)

end CommRing

variable [Field K] [LinearOrder K] {sc sc' : Scene K} {camera : SIMD3 K}

/-- The proximity fires that keep the beacon of `entities[step]`: not those that find the camera
near it during a cool-down when its play timer is already gone. -/
def KeepsBeacon (camera : SIMD3 K) (sc : Scene K) : SceneEvent → Prop
  | .proximityTimer b =>
    ∀ box ∈ sc.boxes[b]?, sc.entities[sc.step]? = some b → box.Near camera →
      sc.coolDown = true → box.playTimer = true
  | _ => True

instance (camera : SIMD3 K) (sc : Scene K) : ∀ e, Decidable (sc.KeepsBeacon camera e) := by
  rintro ⟨⟩ <;> dsimp only [KeepsBeacon] <;> infer_instance

theorem audible_next {e : SceneEvent} (hind : sc.Indexed) (h : sc.Audible)
    (hcond : sc.KeepsBeacon camera e) (hnext : sc.next camera e = some sc') : sc'.Audible := by
  intro b' box' hb' hbox'
  cases e with
  | playTimer b =>
    obtain ⟨box, hbox, -, ⟨hturn, rfl⟩ | ⟨-, rfl⟩⟩ := next_playTimer hnext
    · rcases getElem?_set_cases hbox' with ⟨rfl, rfl⟩ | ⟨hne, hold⟩
      · exact .inr ⟨hind.eq_of_entities hturn, rfl⟩
      · exact h b' box' hb' hold
    · exact h b' box' hb' hbox'
  | proximityTimer b =>
    obtain ⟨box, hbox, -, ⟨-, rfl⟩ | ⟨hnear, hcool, rfl⟩ | ⟨-, -, rfl⟩⟩ := next_proximityTimer hnext
    · exact h b' box' hb' hbox'
    · -- the sound of box `b` is stopped and `step` stays
      rcases getElem?_set_cases hbox' with ⟨rfl, rfl⟩ | ⟨hne, hold⟩
      · rcases h b' box hb' hbox with harmed | ⟨hcur, -⟩
        · exact .inl harmed
        · have hturn : sc.entities[sc.step]? = some b' := by
            rw [hcur]
            refine hind.entities_eq ?_
            rw [hind.length, ← hcur]
            exact (List.getElem?_eq_some_iff.1 hbox).1
          exact .inl (hcond box hbox hturn hnear hcool)
      · exact h b' box' hb' hold
    · -- `step` advances: every box past the old one still has its play timer
      have hlt : sc.step < b' := hb'
      rcases getElem?_set_cases hbox' with ⟨rfl, rfl⟩ | ⟨hne, hold⟩
      · rcases h b' box hlt.le hbox with harmed | ⟨hcur, -⟩
        · exact .inl harmed
        · omega
      · rcases h b' box' hlt.le hold with harmed | ⟨hcur, -⟩
        · exact .inl harmed
        · omega
  | coolDownExpires =>
    obtain ⟨-, rfl⟩ := next_coolDownExpires hnext
    exact h b' box' hb' hbox'
  | playSound outcome =>
    obtain rfl | ⟨-, rfl⟩ := next_playSound hnext <;> exact h b' box' hb' hbox'

end Scene

namespace AppState

variable {K : Type} [Field K] [LinearOrder K] {s s' : AppState K} {e : AppEvent K}

/-- On an unfinished route, the box `entities[step]` exists and, when the camera is away from it,
its sound is playing or its play timer is armed and starts the sound when it fires. -/
def Guided (s : AppState K) : Prop :=
  s.scene.step < s.scene.entities.length →
    ∃ box ∈ s.scene.entity s.scene.step, ¬ box.Near s.globals.camera →
      box.playing = true ∨ (box.playTimer = true ∧ s.scene.StartsNext)

instance : Decidable s.Guided := inferInstanceAs (Decidable (_ → ∃ box ∈ _, _ → _ ∨ (_ ∧ _)))

/-- Deliveries load the audio of every box, and proximity fires keep the beacon. -/
def KeepsBeacon (s : AppState K) : AppEvent K → Prop
  | .didAdd _ anchors => ∀ box ∈ CustomARView.deliveredBoxes s.globals.transformations anchors,
      box.playTimer = true
  | .scene e => s.scene.KeepsBeacon s.globals.camera e
  | _ => True

instance (s : AppState K) : ∀ e, Decidable (s.KeepsBeacon e) := by
  rintro ⟨⟩ <;> dsimp only [KeepsBeacon] <;> infer_instance

theorem guided_of_audible (hind : s.scene.Indexed) (h : s.scene.Audible) : s.Guided := by
  intro hlt
  obtain ⟨box, hbox⟩ : ∃ box, s.scene.boxes[s.scene.step]? = some box :=
    ⟨_, List.getElem?_eq_getElem (hind.length ▸ hlt)⟩
  refine ⟨box, hind.entity_eq.trans hbox, fun _ => ?_⟩
  rcases h _ _ le_rfl hbox with harmed | ⟨-, hplaying⟩
  · exact .inr ⟨harmed, Scene.startsNext_of_playTimer (hind.entity_eq.trans hbox) harmed⟩
  · exact .inl hplaying

theorem audible_step (hind : s.scene.Indexed) (h : s.scene.Audible) (hcond : s.KeepsBeacon e)
    (hstep : (app K).step s e = some s') : s'.scene.Audible := by
  rcases step_scene hstep with hsame | ⟨v, view, anchors, rfl, -, hadd⟩ | ⟨e', rfl, hnext⟩
  · rwa [hsame]
  · rw [hadd, CustomARView.sessionDidAdd_scene]
    intro b box hb hbox
    rcases getElem?_append_cases hbox with hold | ⟨-, hnew⟩
    · exact h b box hb hold
    · exact .inl (hcond box hnew)
  · exact Scene.audible_next hind h hcond hnext

variable {locations : List (Location K)} {storedData : UUID → Option Data}

/-- In every run whose steps keep the beacon, guidance is never lost. -/
theorem guidance_kept {es : List (AppEvent K)}
    (hmeets : (app K).Meets KeepsBeacon (initial locations storedData) es)
    (hrun : (app K).run (initial locations storedData) es = some s) : s.Guided := by
  have hstep : ∀ s e s', (s.scene.Indexed ∧ s.scene.Audible) → KeepsBeacon s e →
      (app K).step s e = some s' → s'.scene.Indexed ∧ s'.scene.Audible := by
    rintro s e s' ⟨hind, h⟩ hcond hstep
    exact ⟨indexed_step hind hstep, audible_step hind h hcond hstep⟩
  have hinit : (Scene.initial : Scene K).Audible := by
    intro b box _ hbox
    simp [Scene.initial] at hbox
  obtain ⟨hind, h⟩ :=
    Machine.invariant_of_meets hstep ⟨Scene.Indexed.initial, hinit⟩ hmeets hrun
  exact guided_of_audible hind h

/-! ### Arriving during a cool-down

Both walks start the two beacons of the hallway one after the other.  The first arrives at the
second waypoint while the cool-down of the first one still runs, then walks on; the second waits
for the cool-down. -/

def passFirst : List (AppEvent ℚ) :=
  hallwayDelivered ++
    [.cameraTimer 0 1, .scene (.playTimer 0), .scene (.proximityTimer 0), .scene (.playTimer 1)]

def arriveDuringCoolDown : List (AppEvent ℚ) :=
  passFirst ++
    [.cameraTimer 0 (RigidMotion.translate ![10, 0, 0]), .scene (.proximityTimer 1),
      .cameraTimer 0 (RigidMotion.translate ![20, 0, 0])]

theorem beacon_silenced :
    ¬ ∀ s ∈ (app ℚ).run (initial [hallway] fun _ => none) arriveDuringCoolDown, s.Guided := by
  decide +kernel

theorem beacon_playing_after_first :
    ∃ s, (app ℚ).run (initial [hallway] fun _ => none) passFirst = some s ∧ s.Guided ∧
      s.scene.step = 1 := by
  have hsome : ((app ℚ).run (initial [hallway] fun _ => none) passFirst).map
      (fun s => s.scene.step) = some 1 := by
    decide +kernel
  obtain ⟨s, hrun, hone⟩ := Option.map_eq_some_iff.1 hsome
  exact ⟨s, hrun, guidance_kept (by decide +kernel) hrun, hone⟩

end AppState

end EyeMaps
