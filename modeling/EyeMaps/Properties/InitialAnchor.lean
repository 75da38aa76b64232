import EyeMaps.Model.App

/-!
# The "Place Initial Anchor" button

The button is shown while `showInitial` holds, and every fire of the 0.1 s timer sets
`showInitial` to the negation of the module-level `placed`.  What `placed` stands for is whether
the AR view on the screen has its virtual-object anchor, an optional of that view.  The gesture
timer writes the two together when it serves a placement request; a tap, a delivery, a load and a
reset write only the anchor, a raycast for a direction writes only `placed`, and opening a map
brings a new view without an anchor while `placed` stays as it was.

`Mirrored` says that the two agree while no placement request is pending.
`initial_anchor_button_truthful` determines the runs in which they always do, and in these
`showInitial` tells the truth at every fire (`ShowsMissingAnchor`).
-/

namespace EyeMaps

open Framework

/-- The raycast has a first result. -/
def Raycast.isHit {K : Type} [CommRing K] : Raycast K → Bool
  | .hit _ => true
  | _ => false

namespace CustomARView

variable {K : Type} [CommRing K]

/-- Anchors delivered to a view that has none leave it with one exactly if one of them is a
virtual-object anchor. -/
theorem sessionDidAdd_virtualObjectAnchor (ts : List (SIMD3 K))
    (anchors : List (ARAnchor K × (ℕ → Bool))) (p : CustomARView K × Scene K) :
    (sessionDidAdd ts anchors p).1.virtualObjectAnchor.isSome =
      (p.1.virtualObjectAnchor.isSome ||
        anchors.any fun a => decide (a.1.name = some virtualObjectAnchorName)) := by
  induction anchors generalizing p with
  | nil => simp [sessionDidAdd]
  | cons a anchors ih =>
    have hcons : sessionDidAdd ts (a :: anchors) p =
        sessionDidAdd ts anchors (addAnchorEntityToScene ts a.2 p a.1) := rfl
    rw [hcons, ih]
    by_cases hname : a.1.name = some virtualObjectAnchorName
    · simp [addAnchorEntityToScene, hname]
    · simp [addAnchorEntityToScene, hname]

section GestureTimer

variable (r₁ r₂ : Raycast K) (g : Globals K) (view : CustomARView K)

/-- A placement request stays pending until a raycast hits. -/
theorem gestureTimer_request :
    (gestureTimer r₁ r₂ g view).1.placeIntitialAnchor = (g.placeIntitialAnchor && !r₂.isHit) := by
  have hrequest := (serveAudio_frame r₁ g view).2.1
  unfold gestureTimer servePlacement Raycast.isHit
  cases r₂ <;> cases hplace : g.placeIntitialAnchor <;> simp [hrequest, hplace]

theorem serveAudio_placed :
    (serveAudio r₁ g view).1.placed =
      if g.addAudio then r₁.isHit && (view.virtualObjectAnchor.isSome || g.placed)
      else g.placed := by
  unfold serveAudio rayCastingMethod Raycast.isHit
  cases r₁ <;> cases view.virtualObjectAnchor <;> cases g.addAudio <;> simp

/-- A pending placement request decides `placed`; otherwise a pending audio request does. -/
theorem gestureTimer_placed :
    (gestureTimer r₁ r₂ g view).1.placed =
      if g.placeIntitialAnchor then r₂.isHit
      else if g.addAudio then r₁.isHit && (view.virtualObjectAnchor.isSome || g.placed)
      else g.placed := by
  have hrequest := (serveAudio_frame r₁ g view).2.1
  rw [← serveAudio_placed r₁ g view]
  unfold gestureTimer servePlacement Raycast.isHit
  cases r₂ <;> cases hplace : g.placeIntitialAnchor <;> simp [hrequest, hplace]

/-- The view has its anchor if it had it or if a placement request was served. -/
theorem gestureTimer_virtualObjectAnchor :
    (gestureTimer r₁ r₂ g view).2.virtualObjectAnchor.isSome =
      (view.virtualObjectAnchor.isSome || (g.placeIntitialAnchor && r₂.isHit)) := by
  have hrequest := (serveAudio_frame r₁ g view).2.1
  have hanchor := (serveAudio_frame r₁ g view).2.2.2.2.2
  unfold gestureTimer servePlacement Raycast.isHit addVirtualObjectAnchor
  cases r₂ <;> cases hplace : g.placeIntitialAnchor <;> simp [hrequest, hplace, hanchor]

end GestureTimer

end CustomARView

namespace AppState

variable {K : Type} [Field K] [LinearOrder K] {s s' : AppState K} {e : AppEvent K}

/-! ## The law and the condition -/

/-- Whether the AR view on the screen has its virtual-object anchor. -/
def openAnchored (s : AppState K) : Option Bool :=
  s.openView.map fun view => view.arView.virtualObjectAnchor.isSome

/-- While no placement request is pending, `placed` says whether the AR view on the screen has its
virtual-object anchor. -/
def Mirrored (s : AppState K) : Prop :=
  s.globals.placeIntitialAnchor = false → ∀ a ∈ s.openAnchored, s.globals.placed = a

/-- A fire of the 0.1 s timer of the open map with no placement request pending shows the button
exactly if the AR view has no virtual-object anchor. -/
def ShowsMissingAnchor (s s' : AppState K) : AppEvent K → Prop
  | .contentTimer v =>
    s.opened = some v → s.globals.placeIntitialAnchor = false →
      ∀ view ∈ s'.views[v]?, view.showInitial = true ↔ view.arView.virtualObjectAnchor = none
  | _ => True

instance (s s' : AppState K) : ∀ e, Decidable (ShowsMissingAnchor s s' e) := by
  rintro ⟨⟩ <;> dsimp only [ShowsMissingAnchor] <;> infer_instance

/-- The events that keep `placed` and the anchor on the screen in step.  While no placement
request is pending, maps are opened, loaded and reset with `placed` false, and taps and deliveries
bring an anchor only to a view that has one; a raycast for a direction misses only if the view on
the screen has no anchor, and hits in a view with an anchor only if that one has one too.  A
pending placement request is served by the map on the screen, or finds an anchor there. -/
def KeepsMirror (s : AppState K) : AppEvent K → Prop
  | .appear _ | .loadExperience _ | .resetTracking =>
    s.globals.placeIntitialAnchor = false → s.globals.placed = false
  | .handleTap hit =>
    hit.isSome = true → s.globals.placeIntitialAnchor = false → s.globals.placed = true
  | .didAdd v anchors =>
    s.opened = some v →
      (anchors.any fun a => decide (a.1.name = some CustomARView.virtualObjectAnchorName)) = true →
        s.globals.placeIntitialAnchor = false → s.globals.placed = true
  | .gestureTimer v r₁ r₂ =>
    ∀ a ∈ s.openAnchored,
      if s.globals.placeIntitialAnchor then r₂.isHit = true → s.opened ≠ some v → a = true
      else s.globals.addAudio = true → ∀ view ∈ s.views[v]?,
        if r₁.isHit then view.arView.virtualObjectAnchor.isSome = true → a = true else a = false
  | _ => True

instance (s : AppState K) : ∀ e, Decidable (KeepsMirror s e) := by
  rintro ⟨⟩ <;> dsimp only [KeepsMirror] <;> infer_instance

/-! ## One step -/

omit [LinearOrder K] in
/-- A map is on the screen if there is an anchor, or none, to speak of. -/
theorem exists_open_of_openAnchored {a : Bool} (ha : s.openAnchored = some a) :
    ∃ v view, s.opened = some v ∧ s.views[v]? = some view ∧
      a = view.arView.virtualObjectAnchor.isSome := by
  obtain ⟨view, hopen, rfl⟩ := Option.map_eq_some_iff.1 ha
  obtain ⟨v, hv, hview⟩ := Option.bind_eq_some_iff.1 hopen
  exact ⟨v, view, hv, hview, rfl⟩

omit [LinearOrder K] in
theorem openAnchored_of_open {v : ℕ} {view : MapView K} (hv : s.opened = some v)
    (hview : s.views[v]? = some view) :
    s.openAnchored = some view.arView.virtualObjectAnchor.isSome := by
  simp [openAnchored, openView, hv, hview]

/-- Between opening and closing, the anchor on the screen is what `arViewAfter` makes of it. -/
theorem openAnchored_step (hstep : (app K).step s e = some s') (he : e.staysOpen = true) {v : ℕ}
    {view : MapView K} (hv : s.opened = some v) (hview : s.views[v]? = some view) :
    s'.openAnchored = some (s.arViewAfter e v view.arView).virtualObjectAnchor.isSome := by
  have hafter := congrArg (Option.map fun a => a.virtualObjectAnchor.isSome)
    (step_openARView hstep he)
  simpa [openAnchored, hv, hview, Function.comp_def] using hafter

theorem openAnchored_step_none (hstep : (app K).step s e = some s') (he : e.staysOpen = true)
    (hnone : s.openAnchored = none) : s'.openAnchored = none := by
  have hafter := step_openARView hstep he
  have hclosed : s.openView = none := by simpa [openAnchored] using hnone
  have hlost : s'.openView.map MapView.arView = none := by
    rw [hafter, Option.bind_eq_none_iff]
    intro v hv
    have hview : s.views[v]? = none := by simpa [openView, hv] using hclosed
    rw [hview, Option.map_none]
  simpa [openAnchored] using hlost

/-- An event after which the anchor on the screen is as before. -/
theorem openAnchored_step_same (hstep : (app K).step s e = some s') (he : e.staysOpen = true)
    (hquiet : ∀ v arView, s.opened = some v →
      (s.arViewAfter e v arView).virtualObjectAnchor.isSome = arView.virtualObjectAnchor.isSome) :
    s'.openAnchored = s.openAnchored := by
  cases hopen : s.openAnchored with
  | none => exact openAnchored_step_none hstep he hopen
  | some a =>
    obtain ⟨v, view, hv, hview, rfl⟩ := exists_open_of_openAnchored hopen
    rw [openAnchored_step hstep he hv hview, hquiet v view.arView hv]

omit [LinearOrder K] in
/-- An event that leaves the anchor on the screen, `placed` and the request alone. -/
theorem Mirrored.congr (h : s.Mirrored) (hanchored : s'.openAnchored = s.openAnchored)
    (hrequest : s'.globals.placeIntitialAnchor = s.globals.placeIntitialAnchor)
    (hplaced : s'.globals.placed = s.globals.placed) : s'.Mirrored := by
  rw [Mirrored, hanchored, hrequest, hplaced]
  exact h

/-- The gesture timer: a pending placement request decides what is asked of the fire; without one
a pending audio request does. -/
theorem mirrored_gestureTimer_iff {w : ℕ} {r₁ r₂ : Raycast K} (h : s.Mirrored)
    (hstep : (app K).step s (.gestureTimer w r₁ r₂) = some s') :
    s'.Mirrored ↔ KeepsMirror s (.gestureTimer w r₁ r₂) := by
  obtain ⟨fired, hfired, hs'⟩ := step_gestureTimer hstep
  have hglobals : s'.globals = (CustomARView.gestureTimer r₁ r₂ s.globals fired.arView).1 := by
    rw [hs']
  cases hopen : s.openAnchored with
  | none =>
    have hnone := openAnchored_step_none hstep rfl hopen
    simp [Mirrored, KeepsMirror, hopen, hnone]
  | some a =>
    obtain ⟨v, view, hv, hview, rfl⟩ := exists_open_of_openAnchored hopen
    have hopen' := openAnchored_step hstep rfl hv hview
    simp only [Mirrored, KeepsMirror, hopen, hopen', hglobals, arViewAfter, hv, hfired,
      CustomARView.gestureTimer_request, CustomARView.gestureTimer_placed] at h ⊢
    cases hrequest : s.globals.placeIntitialAnchor with
    | true =>
      cases hhit : r₂.isHit
      · simp
      · by_cases hw : v = w
        · simp [hw, hrequest, hhit, CustomARView.gestureTimer_virtualObjectAnchor]
        · simp [hw]
    | false =>
      have hmirrored : s.globals.placed = view.arView.virtualObjectAnchor.isSome :=
        h hrequest _ rfl
      have hkept : (if v = w then (CustomARView.gestureTimer r₁ r₂ s.globals view.arView).2
          else view.arView).virtualObjectAnchor.isSome =
            view.arView.virtualObjectAnchor.isSome := by
        split
        · simp [CustomARView.gestureTimer_virtualObjectAnchor, hrequest]
        · rfl
      simp only [hkept, hmirrored, Option.mem_some_iff, forall_eq']
      cases s.globals.addAudio <;> cases r₁.isHit <;>
        cases fired.arView.virtualObjectAnchor.isSome <;>
        cases view.arView.virtualObjectAnchor.isSome <;> simp

/-- Step by step, the law and the condition are the same. -/
theorem mirrored_step_iff (h : s.Mirrored) (hstep : (app K).step s e = some s') :
    s'.Mirrored ↔ KeepsMirror s e := by
  have hsame := openAnchored_step_same hstep
  have hkept (hanchored : s'.openAnchored = s.openAnchored) (he : e.keepsGlobals = true) :
      s'.Mirrored := by
    have hglobals := step_globals hstep he
    exact h.congr hanchored (by rw [hglobals]) (by rw [hglobals])
  cases e with
  | appear k =>
    obtain ⟨l, g, view, _, -, -, hg, rfl, rfl⟩ := step_appear hstep
    obtain ⟨ws, -, hg⟩ := Option.bind_eq_some_iff.1 hg
    obtain rfl := Option.some.inj hg
    simp [Mirrored, KeepsMirror, openAnchored, openView, CustomARView.create]
  | disappear =>
    obtain ⟨_, _, _, -, -, rfl⟩ := step_disappear hstep
    simp [Mirrored, KeepsMirror, openAnchored, openView]
  | press item =>
    have hanchored := hsame rfl fun _ _ _ => rfl
    obtain ⟨_, _, -, -, rfl⟩ := step_press hstep
    exact iff_of_true (h.congr hanchored rfl rfl) trivial
  | placeInitialAnchor =>
    obtain ⟨_, -, -, rfl⟩ := step_placeInitialAnchor hstep
    simp [Mirrored, KeepsMirror]
  | gestureTimer w r₁ r₂ => exact mirrored_gestureTimer_iff h hstep
  | cameraTimer v cameraTransform =>
    have hanchored := hsame rfl fun _ _ _ => rfl
    obtain ⟨_, -, rfl⟩ := step_cameraTimer hstep
    exact iff_of_true (h.congr hanchored rfl rfl) trivial
  | handleTap hit =>
    cases hit with
    | none =>
      have hanchored := hsame rfl fun _ _ _ => by simp [arViewAfter, CustomARView.handleTap]
      exact iff_of_true (hkept hanchored rfl) (by simp [KeepsMirror])
    | some worldTransform =>
      obtain ⟨v, view, hv, hview, -⟩ := step_handleTap hstep
      have hopen := openAnchored_step hstep rfl hv hview
      have hglobals := step_globals hstep rfl
      simp [Mirrored, KeepsMirror, hopen, hglobals, arViewAfter, hv, CustomARView.handleTap,
        CustomARView.addVirtualObjectAnchor]
  | didAdd w anchors =>
    by_cases hw : s.opened = some w
    · obtain ⟨view, _, hview, -⟩ := step_didAdd hstep
      have hopen' := openAnchored_step hstep rfl hw hview
      have hglobals := step_globals hstep rfl
      simp only [Mirrored, KeepsMirror, openAnchored_of_open hw hview, hopen', hglobals,
        arViewAfter, hw, if_true, CustomARView.sessionDidAdd_virtualObjectAnchor] at h ⊢
      cases anchors.any fun a => decide (a.1.name = some CustomARView.virtualObjectAnchorName)
      · simpa using h
      · simp
    · have hanchored := hsame rfl fun v arView hv => by
        have hne : v ≠ w := by
          rintro rfl
          exact hw hv
        simp [arViewAfter, hne]
      exact iff_of_true (hkept hanchored rfl) fun hopen => absurd hopen hw
  | loadExperience worldMap =>
    obtain ⟨v, view, hv, hview, -⟩ := step_loadExperience hstep
    have hopen := openAnchored_step hstep rfl hv hview
    have hglobals := step_globals hstep rfl
    simp [Mirrored, KeepsMirror, hopen, hglobals, arViewAfter, hv, CustomARView.loadExperience]
  | resetTracking =>
    obtain ⟨v, view, hv, hview, -⟩ := step_resetTracking hstep
    have hopen := openAnchored_step hstep rfl hv hview
    have hglobals := step_globals hstep rfl
    simp [Mirrored, KeepsMirror, hopen, hglobals, arViewAfter, hv, CustomARView.resetTracking]
  | saveCompleted w data =>
    have hanchored := hsame rfl fun v arView _ => by
      simp only [arViewAfter]
      split <;> rfl
    exact iff_of_true (hkept hanchored rfl) trivial
  | _ =>
    have hanchored := hsame rfl fun _ _ _ => rfl
    exact iff_of_true (hkept hanchored rfl) trivial

/-- Where the two agree, the timer shows what is missing. -/
theorem showsMissingAnchor_of_mirrored (h : s.Mirrored) (hstep : (app K).step s e = some s') :
    ShowsMissingAnchor s s' e := by
  cases e with
  | contentTimer v =>
    intro hv hrequest view hview
    obtain ⟨old, _, hold, -, rfl⟩ := step_contentTimer hstep
    have hplaced := h hrequest _ (openAnchored_of_open hv hold)
    rw [getElem?_set_self' hold, Option.mem_some_iff] at hview
    subst hview
    simp [hplaced]
  | _ => trivial

/-! ## The result -/

/-- From launch, `placed` mirrors the anchor on the screen, whenever no placement request is
pending, in exactly the runs that meet `KeepsMirror`; in those every fire of the open map's timer
shows the button exactly if the anchor is missing. -/
theorem initial_anchor_button_truthful (locations : List (Location K))
    (storedData : UUID → Option Data) (es : List (AppEvent K)) :
    ((app K).Along (fun _ _ s' => s'.Mirrored) (initial locations storedData) es ↔
        (app K).Meets KeepsMirror (initial locations storedData) es) ∧
      ((app K).Meets KeepsMirror (initial locations storedData) es →
        (app K).Along (fun s e s' => ShowsMissingAnchor s s' e)
          (initial locations storedData) es) := by
  have hinit : (initial locations storedData).Mirrored := by
    simp [Mirrored, openAnchored, openView, initial]
  constructor
  · exact Machine.along_iff_meets (P := Mirrored) (C := KeepsMirror)
      (D := fun _ _ s' => s'.Mirrored)
      (fun s e s' h hstep => ⟨mirrored_step_iff h hstep, (mirrored_step_iff h hstep).2⟩) hinit
  · exact Machine.along_of_meets (P := Mirrored) (C := KeepsMirror)
      (D := fun s e s' => ShowsMissingAnchor s s' e)
      (fun s e s' h hcond hstep =>
        ⟨(mirrored_step_iff h hstep).2 hcond, showsMissingAnchor_of_mirrored h hstep⟩) hinit

/-- A tap places the anchor, and the button goes on asking for it. -/
theorem button_asks_for_placed_anchor :
    ¬ (app ℚ).Along (fun s e s' => ShowsMissingAnchor s s' e) (initial [entrance] fun _ => none)
        [.appear 0, .handleTap (some 1), .contentTimer 0] := by
  decide +kernel

/-- The button places the anchor and is gone. -/
def placedByButton : List (AppEvent ℚ) :=
  [.appear 0, .placeInitialAnchor, .gestureTimer 0 .noQuery (.hit 1), .contentTimer 0]

theorem button_hides_when_placed :
    (app ℚ).Along (fun s e s' => ShowsMissingAnchor s s' e) (initial [entrance] fun _ => none)
        placedByButton ∧
      ((app ℚ).run (initial [entrance] fun _ => none) placedByButton).map
        (fun s => s.openView.map MapView.showInitial) = some (some false) :=
  ⟨(initial_anchor_button_truthful _ _ _).2 (by decide +kernel), by decide +kernel⟩

end AppState

end EyeMaps
