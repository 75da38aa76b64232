import EyeMaps.Model.App

/-!
# Only the open view acts

Requests are module-level flags polled by the gesture timer of every view ever opened, and the
camera timer of every view writes the one module-level camera.  A closed view therefore takes over
requests made in the open one, and the camera jumps between views.

`Origins` observes where requests and camera positions come from, and `OpenViewActs` is the law: a
fire of a closed view's timer leaves the module-level variables as they are, what a fire of the
open view appends or places was requested in that view, and a proximity test reads a camera
position sampled by the open view.  `only_open_view_acts` proves it for the runs that meet
`ServesOwnView`: closed views fire no camera timer and find no request pending, a map is closed
with no audio request pending (closing cancels placement requests only), and no proximity test
comes before the first sample of the open view.
-/

namespace EyeMaps

open Framework

/-- Where the pending requests were made, and the last camera position sampled by the map on the
screen. -/
structure Origins (K : Type) where
  audioRequests : List ℕ
  placeRequests : List ℕ
  sample : Option (SIMD3 K)

def Origins.initial {K : Type} : Origins K := ⟨[], [], none⟩

namespace AppState

variable {K : Type} [Field K] [LinearOrder K] {s s' : AppState K} {e : AppEvent K}
  {c : Origins K}

/-- The observer of origins.  A request is forgotten when a fire clears its flag and, for
placement requests, when closing the map does. -/
def origins (c : Origins K) (s : AppState K) (e : AppEvent K) (s' : AppState K) : Origins K :=
  match e with
  | .appear _ => { c with sample := none }
  | .disappear => { c with placeRequests := [], sample := none }
  | .press _ => { c with audioRequests := c.audioRequests ++ s.opened.toList }
  | .placeInitialAnchor => { c with placeRequests := c.placeRequests ++ s.opened.toList }
  | .gestureTimer _ _ _ =>
    { c with
      audioRequests := []
      placeRequests := if s'.globals.placeIntitialAnchor then c.placeRequests else [] }
  | .cameraTimer v cameraTransform =>
    if s.opened = some v then { c with sample := some cameraTransform.translation } else c
  | _ => c

/-- The law of an event, given the origins `c` of the requests pending before it. -/
def OpenViewActs (c : Origins K) (s : AppState K) (s' : AppState K) : AppEvent K → Prop
  | .gestureTimer v _ _ =>
    (s.opened ≠ some v → s'.globals = s.globals) ∧
      (s'.globals.transformations ≠ s.globals.transformations →
        s.opened = some v ∧ ∀ r ∈ c.audioRequests, r = v) ∧
      (s.globals.placeIntitialAnchor = true ∧ s'.globals.placeIntitialAnchor = false →
        s.opened = some v ∧ ∀ r ∈ c.placeRequests, r = v)
  | .cameraTimer v _ => s.opened = some v
  | .scene (.proximityTimer _) => s.opened.isSome = true → c.sample = some s.globals.camera
  | _ => True

instance (c : Origins K) (s s' : AppState K) : ∀ e, Decidable (OpenViewActs c s s' e) := by
  rintro ⟨⟩
  case scene e' => obtain ⟨⟩ := e' <;> dsimp only [OpenViewActs] <;> infer_instance
  all_goals
    dsimp only [OpenViewActs]
    infer_instance

/-- Closed views fire no camera timer and find no request pending, maps are closed with no audio
request pending, and the open view has sampled the camera before a proximity test reads it. -/
def ServesOwnView (c : Origins K) (s : AppState K) : AppEvent K → Prop
  | .gestureTimer v _ _ =>
    s.opened ≠ some v → s.globals.addAudio = false ∧ s.globals.placeIntitialAnchor = false
  | .cameraTimer v _ => s.opened = some v
  | .disappear => s.globals.addAudio = false
  | .scene (.proximityTimer _) => s.opened.isSome = true → c.sample.isSome = true
  | _ => True

instance (c : Origins K) (s : AppState K) : ∀ e, Decidable (ServesOwnView c s e) := by
  rintro ⟨⟩
  case scene e' => obtain ⟨⟩ := e' <;> dsimp only [ServesOwnView] <;> infer_instance
  all_goals
    dsimp only [ServesOwnView]
    infer_instance

/-! ## The invariant -/

/-- Every pending request was made in the map on the screen, and the camera is where that map
last sampled it. -/
structure FromOpenView (c : Origins K) (s : AppState K) : Prop where
  audio : ∀ r ∈ c.audioRequests, s.opened = some r
  place : ∀ r ∈ c.placeRequests, s.opened = some r
  idle : s.globals.addAudio = false → c.audioRequests = []
  camera : ∀ p, c.sample = some p → s.globals.camera = p

omit [LinearOrder K] in
/-- The origins are right after any event that changes neither the open map, the audio flag nor
the camera. -/
theorem FromOpenView.congr (h : FromOpenView c s) (hopened : s'.opened = s.opened)
    (haudio : s'.globals.addAudio = s.globals.addAudio)
    (hcamera : s'.globals.camera = s.globals.camera) : FromOpenView c s' where
  audio := by rw [hopened]; exact h.audio
  place := by rw [hopened]; exact h.place
  idle := by rw [haudio]; exact h.idle
  camera := by rw [hcamera]; exact h.camera

theorem fromOpenView_step (h : FromOpenView c s) (hcond : ServesOwnView c s e)
    (hstep : (app K).step s e = some s') : FromOpenView (origins c s e s') s' := by
  cases e with
  | appear k =>
    obtain ⟨l, g, _, _, hclosed, -, hg, -, rfl⟩ := step_appear hstep
    -- no map was open, so no request can be pending
    have haudio : c.audioRequests = [] := List.eq_nil_iff_forall_not_mem.2 fun r hr => by
      simpa [hclosed] using h.audio r hr
    have hplace : c.placeRequests = [] := List.eq_nil_iff_forall_not_mem.2 fun r hr => by
      simpa [hclosed] using h.place r hr
    exact ⟨by simp [origins, haudio], by simp [origins, hplace], fun _ => haudio,
      by simp [origins]⟩
  | disappear =>
    obtain ⟨_, _, _, -, -, rfl⟩ := step_disappear hstep
    have haudio : c.audioRequests = [] := h.idle hcond
    exact ⟨by simp [origins, haudio], by simp [origins], fun _ => haudio, by simp [origins]⟩
  | press item =>
    obtain ⟨_, _, -, -, rfl⟩ := step_press hstep
    refine ⟨?_, h.place, by simp [ContentView.press], h.camera⟩
    simp only [origins, List.mem_append, Option.mem_toList]
    rintro r (hr | hr)
    · exact h.audio r hr
    · exact hr
  | placeInitialAnchor =>
    obtain ⟨_, -, -, rfl⟩ := step_placeInitialAnchor hstep
    refine ⟨h.audio, ?_, h.idle, h.camera⟩
    simp only [origins, List.mem_append, Option.mem_toList]
    rintro r (hr | hr)
    · exact h.place r hr
    · exact hr
  | gestureTimer v r₁ r₂ =>
    obtain ⟨view, -, rfl⟩ := step_gestureTimer hstep
    refine ⟨by simp [origins], ?_, by simp [origins], ?_⟩
    · intro r hr
      simp only [origins] at hr
      split at hr
      · exact h.place r hr
      · cases hr
    · simpa [origins] using h.camera
  | cameraTimer v cameraTransform =>
    obtain ⟨_, -, rfl⟩ := step_cameraTimer hstep
    have hopen : s.opened = some v := hcond
    simp only [origins, if_pos hopen]
    exact ⟨h.audio, h.place, h.idle, fun p hp => Option.some.inj hp⟩
  | _ =>
    have hopened := (step_stays hstep rfl).1
    have hglobals := step_globals hstep rfl
    exact h.congr hopened (by rw [hglobals]) (by rw [hglobals])

/-- From the invariant and the condition, one step obeys the law. -/
theorem openViewActs_of_fromOpenView (h : FromOpenView c s) (hcond : ServesOwnView c s e)
    (hstep : (app K).step s e = some s') : OpenViewActs c s s' e := by
  cases e with
  | gestureTimer v r₁ r₂ =>
    obtain ⟨view, -, rfl⟩ := step_gestureTimer hstep
    by_cases hopen : s.opened = some v
    · have haudio : ∀ r ∈ c.audioRequests, r = v := fun r hr =>
        Option.some.inj ((h.audio r hr).symm.trans hopen)
      have hplace : ∀ r ∈ c.placeRequests, r = v := fun r hr =>
        Option.some.inj ((h.place r hr).symm.trans hopen)
      exact ⟨fun hclosed => absurd hopen hclosed, fun _ => ⟨hopen, haudio⟩,
        fun _ => ⟨hopen, hplace⟩⟩
    · obtain ⟨haudio, hplace⟩ := hcond hopen
      rw [CustomARView.gestureTimer_of_no_request _ _ _ haudio hplace]
      exact ⟨fun _ => rfl, fun hne => absurd rfl hne, fun hne => absurd hne.1 (by simp [hplace])⟩
  | cameraTimer v cameraTransform => exact hcond
  | scene e' =>
    cases e' with
    | proximityTimer b =>
      intro hopen
      obtain ⟨p, hp⟩ := Option.isSome_iff_exists.1 (hcond hopen)
      rw [hp, h.camera p hp]
    | _ => trivial
  | _ => trivial

/-! ## The result -/

variable {locations : List (Location K)} {storedData : UUID → Option Data}

/-- In every run whose events serve their own view, only the open view acts. -/
theorem only_open_view_acts {es : List (AppEvent K)}
    (hmeets : ((app K).observe origins).Meets (fun p e => ServesOwnView p.1 p.2 e)
      (Origins.initial, initial locations storedData) es) :
    ((app K).observe origins).Along (fun p e p' => OpenViewActs p.1 p.2 p'.2 e)
      (Origins.initial, initial locations storedData) es := by
  have hinit : FromOpenView Origins.initial (initial locations storedData) :=
    ⟨by simp [Origins.initial], by simp [Origins.initial], fun _ => rfl,
      by simp [Origins.initial]⟩
  exact Machine.along_of_observed (P := FromOpenView) (C := ServesOwnView)
    (D := fun c s e s' => OpenViewActs c s s' e)
    (fun _ _ _ _ h hcond hstep =>
      ⟨fromOpenView_step h hcond hstep, openViewActs_of_fromOpenView h hcond hstep⟩)
    hinit hmeets

/-! ### A closed view takes the request

The entrance is opened, closed and opened again.  When a direction is chosen in the second view,
the timer of the first one may fire before that of the second. -/

def reopened : List (AppEvent ℚ) := [.appear 0, .disappear, .appear 0, .press .doorAhead]

theorem closed_view_takes_request :
    ¬ ((app ℚ).observe origins).Along (fun p e p' => OpenViewActs p.1 p.2 p'.2 e)
      (Origins.initial, initial [entrance] fun _ => none)
      (reopened ++ [.gestureTimer 0 .noResult .noQuery]) := by
  decide +kernel

/-- The second view has its anchor and its camera, and its own timer comes first. -/
def recordedInOpenView : List (AppEvent ℚ) :=
  reopened ++ [.handleTap (some 1), .cameraTimer 1 1, .gestureTimer 1 (.hit 1) .noQuery]

theorem open_view_takes_request :
    ((app ℚ).observe origins).Along (fun p e p' => OpenViewActs p.1 p.2 p'.2 e)
        (Origins.initial, initial [entrance] fun _ => none) recordedInOpenView ∧
      ((app ℚ).run (initial [entrance] fun _ => none) recordedInOpenView).map
        (fun s => s.globals.transformations) = some [![0, 0, 0]] :=
  ⟨only_open_view_acts (by decide +kernel), by decide +kernel⟩

end AppState

end EyeMaps
