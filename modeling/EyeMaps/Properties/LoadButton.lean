import EyeMaps.Model.App

/-!
# When the Load button is offered

`loadExperience` stops with a `fatalError` if nothing is stored under the id of its location; its
message says that this is verified before the Load button is enabled.  The button is one object
for all locations.  `makeUIView` shows it for a location with a stored map, `onDisappear` hides it,
and the block that a completed save puts on the main queue shows it whatever is on the screen by
then.

`LoadOffered` is the law, and `load_offered_iff` determines the runs that obey it: those in which
each such block finds a location with a stored map on the screen, or none, and in which a button
left visible with no map on the screen is next seen over a location with a stored map.
-/

namespace EyeMaps

open Framework

namespace AppState

variable {K : Type} [Field K] [LinearOrder K] {s s' : AppState K} {e : AppEvent K}

/-! ## The law and the condition -/

/-- The location on the screen, if any, has a stored map. -/
def OpenStored (s : AppState K) : Prop :=
  ∀ view ∈ s.openView, (s.storedData view.arView.location.id).isSome = true

instance (s : AppState K) : Decidable s.OpenStored :=
  inferInstanceAs (Decidable (∀ view ∈ _, _))

/-- While the Load button is visible, the location on the screen has a stored map. -/
def LoadOffered (s : AppState K) : Prop :=
  s.saveLoadState.loadButton.isHidden = false → s.OpenStored

instance (s : AppState K) : Decidable s.LoadOffered :=
  inferInstanceAs (Decidable (_ → _))

/-- The main-queue block of a save finds a location with a stored map on the screen, or none; a
map is opened under a visible button only for such a location. -/
def ShowsStored (s : AppState K) : AppEvent K → Prop
  | .showLoadButton => s.OpenStored
  | .appear k =>
    s.saveLoadState.loadButton.isHidden = false →
      ∀ l ∈ s.locations[k]?, (s.storedData l.id).isSome = true
  | _ => True

instance (s : AppState K) : ∀ e, Decidable (ShowsStored s e) := by
  rintro ⟨⟩ <;> dsimp only [ShowsStored] <;> infer_instance

omit [LinearOrder K] in
/-- Where the law holds, a press of the visible button finds a stored map to load. -/
theorem LoadOffered.loadExperience_isSome (h : s.LoadOffered) {view : MapView K}
    (hview : s.openView = some view) (hvisible : s.saveLoadState.loadButton.isHidden = false)
    (worldMap : List (ARAnchor K)) : (s.loadExperience worldMap).isSome = true := by
  obtain ⟨data, hdata⟩ := Option.isSome_iff_exists.1 (h hvisible view hview)
  obtain ⟨v, hv, hget⟩ := Option.bind_eq_some_iff.1 hview
  simp [loadExperience, onOpenARView, hview, hdata, hv, hget]

/-! ## One step -/

omit [LinearOrder K] in
/-- No event makes an AR view forget the id of its location. -/
theorem arViewAfter_id (s : AppState K) (e : AppEvent K) (v : ℕ) (arView : CustomARView K) :
    (s.arViewAfter e v arView).location.id = arView.location.id := by
  cases e <;> simp only [arViewAfter]
  all_goals
    split
    · simp [CustomARView.saveExperience, CustomARView.loadExperience, CustomARView.resetTracking,
        CustomARView.sessionDidAdd_frame]
    · rfl

/-- A stored map stays stored. -/
theorem step_stored (hstep : (app K).step s e = some s') {id : UUID}
    (hid : (s.storedData id).isSome = true) : (s'.storedData id).isSome = true := by
  rcases step_storedData hstep with hsame | ⟨v, data, view, -, -, hsaved⟩
  · rwa [hsame]
  · rw [hsaved]
    by_cases hkey : id = view.arView.location.id
    · simp [hkey]
    · rwa [Function.update_of_ne hkey]

/-- Between opening and closing, the location on the screen does not lose its map. -/
theorem openStored_step (h : s.OpenStored) (he : e.staysOpen = true)
    (hstep : (app K).step s e = some s') : s'.OpenStored := by
  intro view' hview'
  have hopen := step_openARView hstep he
  rw [hview', Option.map_some, eq_comm, Option.bind_eq_some_iff] at hopen
  obtain ⟨v, hv, hopen⟩ := hopen
  obtain ⟨view, hview, hafter⟩ := Option.map_eq_some_iff.1 hopen
  have hstored : (s.storedData view.arView.location.id).isSome = true :=
    h view (Option.bind_eq_some_iff.2 ⟨v, hv, hview⟩)
  rw [← hafter, arViewAfter_id]
  exact step_stored hstep hstored

/-- Opening a map: the button is visible if it was, or if the location has a stored map. -/
theorem step_appear_loadButton {k : ℕ} (hstep : (app K).step s (.appear k) = some s') :
    ∃ l, s.locations[k]? = some l ∧
      (s'.OpenStored ↔ (s.storedData l.id).isSome = true) ∧
      (s'.saveLoadState.loadButton.isHidden = false ↔
        s.saveLoadState.loadButton.isHidden = false ∨ (s.storedData l.id).isSome = true) := by
  obtain ⟨l, _, view, _, -, hl, -, hview, hs'⟩ := step_appear hstep
  refine ⟨l, hl, ?_, ?_⟩
  · simp [OpenStored, openView, hs', hview, CustomARView.create]
  · rcases step_buttons hstep with ⟨_, l', hk, hl', hopened⟩ | ⟨hne, -⟩ | ⟨hne, -⟩ | ⟨hne, -⟩
    · obtain rfl := AppEvent.appear.inj hk
      obtain rfl : l = l' := Option.some.inj (hl.symm.trans hl')
      rw [hopened]
      cases s.saveLoadState.loadButton.isHidden <;> cases s.storedData l.id <;> simp
    · cases hne
    · cases hne
    · cases hne

/-- Other events change the button only in the block of a save, which shows it, and when a map is
closed. -/
theorem step_loadButton (he : ∀ k, e ≠ .appear k) (hstep : (app K).step s e = some s') :
    (e = .disappear ∧ s'.openView = none) ∨ (e = .showLoadButton ∧ s'.openView = s.openView ∧
        s'.storedData = s.storedData ∧ s'.saveLoadState.loadButton.isHidden = false) ∨
      (e.staysOpen = true ∧ ShowsStored s e ∧ s'.saveLoadState = s.saveLoadState) := by
  rcases step_buttons hstep with
      ⟨k, _, rfl, -, -⟩ | ⟨rfl, -⟩ | ⟨rfl, hshown⟩ | ⟨hstays, hblock, hsame⟩
  · exact absurd rfl (he k)
  · obtain ⟨_, _, _, -, -, rfl⟩ := step_disappear hstep
    exact .inl ⟨rfl, rfl⟩
  · have hvisible : s'.saveLoadState.loadButton.isHidden = false := by rw [hshown]
    obtain ⟨_, rfl⟩ := step_showLoadButton hstep
    exact .inr (.inl ⟨rfl, rfl, rfl, hvisible⟩)
  · refine .inr (.inr ⟨hstays, ?_, hsame⟩)
    cases e with
    | appear k => exact absurd rfl (he k)
    | showLoadButton => exact absurd rfl hblock
    | _ => trivial

/-- Step by step, the law and the condition are the same. -/
theorem loadOffered_iff (h : s.LoadOffered) (hstep : (app K).step s e = some s') :
    s'.LoadOffered ↔ ShowsStored s e := by
  by_cases happear : ∃ k, e = .appear k
  · obtain ⟨k, rfl⟩ := happear
    obtain ⟨l, hl, hopen, hvisible⟩ := step_appear_loadButton hstep
    simp only [LoadOffered, hopen, hvisible, ShowsStored, hl, Option.mem_def, Option.some.injEq]
    constructor
    · rintro hlaw hshown _ rfl
      exact hlaw (.inl hshown)
    · rintro hcond (hshown | hstored)
      · exact hcond hshown l rfl
      · exact hstored
  · have hne : ∀ k, e ≠ .appear k := fun k he => happear ⟨k, he⟩
    rcases step_loadButton hne hstep with
        ⟨rfl, hclosed⟩ | ⟨rfl, hview, hstored, hvisible⟩ | ⟨he, hcond, hsame⟩
    · simp [LoadOffered, OpenStored, hclosed, ShowsStored]
    · simp [LoadOffered, OpenStored, hview, hstored, hvisible, ShowsStored]
    · refine iff_of_true ?_ hcond
      intro hvisible
      rw [hsame] at hvisible
      exact openStored_step (h hvisible) he hstep

/-! ## The result -/

/-- From launch, the Load button is visible over locations with a stored map only, exactly in the
runs that meet `ShowsStored`; and in those no press of the visible button reaches the
`fatalError` for missing data.  The second half is about a press that is served in the state it is
made in; a press still unserved when its map is closed is a matter of `Controls`. -/
theorem load_offered_iff (locations : List (Location K)) (storedData : UUID → Option Data)
    (es : List (AppEvent K)) :
    ((app K).Along (fun _ _ s' => s'.LoadOffered) (initial locations storedData) es ↔
        (app K).Meets ShowsStored (initial locations storedData) es) ∧
      ((app K).Meets ShowsStored (initial locations storedData) es →
        ∀ s ∈ (app K).run (initial locations storedData) es, ∀ view ∈ s.openView,
          s.saveLoadState.loadButton.isHidden = false →
            ∀ worldMap, (s.loadExperience worldMap).isSome = true) := by
  have hinit : (initial locations storedData).LoadOffered := by simp [LoadOffered, initial]
  constructor
  · exact Machine.along_iff_meets (P := LoadOffered) (C := ShowsStored)
      (D := fun _ _ s' => s'.LoadOffered)
      (fun s e s' h hstep => ⟨loadOffered_iff h hstep, (loadOffered_iff h hstep).2⟩) hinit
  · intro hmeets s hrun view hview hvisible worldMap
    have hlaw : s.LoadOffered := Machine.invariant_of_meets (P := LoadOffered) (C := ShowsStored)
      (fun _ _ _ h hcond hstep => (loadOffered_iff h hstep).2 hcond) hinit hmeets hrun
    exact hlaw.loadExperience_isSome hview hvisible worldMap

/-- The hallway is saved and closed; the block of that save runs when the entrance, which has no
stored map, is on the screen. -/
def savedThenOther : List (AppEvent ℚ) :=
  [.appear 0, .saveCompleted 0 [1], .disappear, .appear 1, .showLoadButton]

theorem load_offered_without_map :
    ¬ (app ℚ).Along (fun _ _ s' => s'.LoadOffered) (initial [hallway, entrance] fun _ => none)
        savedThenOther ∧
      ((app ℚ).run (initial [hallway, entrance] fun _ => none) savedThenOther).map
        (fun s => (s.saveLoadState.loadButton.isHidden, (s.loadExperience []).isSome)) =
          some (false, false) := by
  decide +kernel

/-- The block runs while the saved hallway is still on the screen. -/
theorem load_offered_with_map :
    (app ℚ).Along (fun _ _ s' => s'.LoadOffered) (initial [hallway, entrance] fun _ => none)
        [.appear 0, .saveCompleted 0 [1], .showLoadButton, .disappear, .appear 1] :=
  (load_offered_iff _ _ _).1.2 (by decide +kernel)

end AppState

end EyeMaps
