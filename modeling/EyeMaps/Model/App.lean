import EyeMaps.Framework.Machine
import EyeMaps.Model.CustomARView

/-!
# The app between two changes of the location list

`app` is the machine of everything that runs while the list of locations keeps its shape: opening
and closing a map, the timers of every map opened so far, the menu and the buttons, the gestures
and sessions of the AR views, the completions of a save, the beacon scene, and the two ways the
list is written out.  Events come in any order; a step is `none` when the event cannot happen in
that state or the program traps on it.

Opening a map creates a `MapView`, one `ContentView` together with its `CustomARView`.  Neither is
ever removed from `AppState.views`: the timers started by `onAppear`, `setupGestures` and `setup`
are never invalidated and keep both alive, so a closed map goes on firing.  `opened` is the map on
the screen, if any (both sheets show at most one).

A binding `$locations[k]` denotes index `k` of the list when it is used.  `timerBinding` is the one
the 0.1 s timer captured in `onAppear`, `binding` the one the view was last rendered with; the two
differ only through re-rendering, which is modelled in `EyeMaps.Model.Catalogue`.

Each event has its inversion lemma (`step_appear`, `step_contentTimer`, …).  `step_scene` says what
any event does to the beacon scene, `step_stores` what it stores, `step_buttons` what it makes of
the buttons, and `step_quiet` what the events that record nothing leave alone.
-/

namespace EyeMaps

open Framework

/-- `ButtonState.swift`. -/
structure ButtonState where
  isHidden : Bool := false
  isEnabled : Bool := true
  isPressed : Bool := false
  deriving DecidableEq

/-- `SaveLoadState.swift`. -/
structure SaveLoadState where
  saveButton : ButtonState := { isEnabled := true }
  loadButton : ButtonState := { isHidden := true }
  deriving DecidableEq

/-- One opened `ContentView` with its `CustomARView`. -/
structure MapView (K : Type) [CommRing K] where
  binding : ℕ
  timerBinding : ℕ
  worldMapData : Option Data
  showInitial : Bool
  arView : CustomARView K

/-- The indices a map writes through. -/
def MapView.bindings {K : Type} [CommRing K] (view : MapView K) : ℕ × ℕ :=
  (view.binding, view.timerBinding)

structure AppState (K : Type) [CommRing K] where
  globals : Globals K
  scene : Scene K
  locations : List (Location K)
  views : List (MapView K)
  /-- the map on the screen -/
  opened : Option ℕ
  saveLoadState : SaveLoadState
  /-- main-queue blocks of `saveExperience` that have not run yet -/
  mainQueue : ℕ
  /-- `UserDefaults.standard` -/
  storedData : UUID → Option Data
  /-- `locations.txt`, if it can be read -/
  file : Option (List (Location K))
  /-- the Firestore writes, latest last -/
  documents : List (UUID × Location K)

inductive AppEvent (K : Type) [CommRing K]
  | appear (k : ℕ)
  | disappear
  | contentTimer (v : ℕ)
  | press (item : MenuItem)
  | placeInitialAnchor
  | gestureTimer (v : ℕ) (r₁ r₂ : Raycast K)
  | cameraTimer (v : ℕ) (cameraTransform : Transform K)
  | handleTap (hit : Option (Transform K))
  | didAdd (v : ℕ) (anchors : List (ARAnchor K × (ℕ → Bool)))
  | loadExperience (worldMap : List (ARAnchor K))
  | resetTracking
  | saveCompleted (v : ℕ) (data : Data)
  | showLoadButton
  | writeFile
  | publish (key : UUID) (k : ℕ)
  | scene (e : SceneEvent)

/-- Events other than opening and closing a map. -/
def AppEvent.staysOpen {K : Type} [CommRing K] : AppEvent K → Bool
  | .appear _ | .disappear => false
  | _ => true

/-- Events that touch neither the location list nor the recording buffers, and open or close no
map. -/
def AppEvent.quiet {K : Type} [CommRing K] : AppEvent K → Bool
  | .appear _ | .disappear | .contentTimer _ | .press _ | .gestureTimer _ _ _ => false
  | _ => true

/-- Events that write none of the module-level variables of the views. -/
def AppEvent.keepsGlobals {K : Type} [CommRing K] : AppEvent K → Bool
  | .appear _ | .disappear | .press _ | .placeInitialAnchor => false
  | .gestureTimer _ _ _ | .cameraTimer _ _ => false
  | _ => true

/-- Events that write neither `UserDefaults`, the file and Firestore nor the state of the
buttons. -/
def AppEvent.storesNothing {K : Type} [CommRing K] : AppEvent K → Bool
  | .saveCompleted _ _ | .writeFile | .publish _ _ => false
  | .appear _ | .disappear | .showLoadButton => false
  | _ => true

namespace AppState

variable {K : Type}

section CommRing

variable [CommRing K]

/-- The app after launch, with the given list and stored maps. -/
def initial (locations : List (Location K)) (storedData : UUID → Option Data) : AppState K where
  globals := Globals.initial
  scene := Scene.initial
  locations := locations
  views := []
  opened := none
  saveLoadState := {}
  mainQueue := 0
  storedData := storedData
  file := none
  documents := []

/-- The map on the screen. -/
def openView (s : AppState K) : Option (MapView K) := s.opened.bind fun v => s.views[v]?

/-- The index of the location the map on the screen is bound to. -/
def openLocation (s : AppState K) : Option ℕ := s.openView.map MapView.binding

/-- The waypoints a fire of the gesture timer of map `v` appends. -/
def acceptedBy (s : AppState K) (v : ℕ) (r₁ : Raycast K) : List (SIMD3 K) :=
  match s.views[v]? with
  | some view => CustomARView.accepted r₁ s.globals view.arView
  | none => []

theorem length_acceptedBy_le (s : AppState K) (v : ℕ) (r₁ : Raycast K) :
    (s.acceptedBy v r₁).length ≤ if s.globals.addAudio then 1 else 0 := by
  unfold acceptedBy CustomARView.accepted
  cases haudio : s.globals.addAudio <;> split <;> try split
  all_goals simp

/-- The indices the map on the screen reads and writes through. -/
def openBindings (s : AppState K) : Option (ℕ × ℕ) := s.openView.map MapView.bindings

theorem openLocation_eq (s : AppState K) : s.openLocation = s.openBindings.map Prod.fst := by
  simp [openLocation, openBindings, Function.comp_def, MapView.bindings]

@[simp] theorem openBindings_of_closed {s : AppState K} (h : s.opened = none) :
    s.openBindings = none := by
  simp [openBindings, openView, h]

/-- These indices depend only on which map is on the screen and on the bindings. -/
theorem openBindings_congr {s s' : AppState K} (hopened : s'.opened = s.opened)
    (hbindings : s'.views.map MapView.bindings = s.views.map MapView.bindings) :
    s'.openBindings = s.openBindings := by
  have hview (v : ℕ) : s'.views[v]?.map MapView.bindings = s.views[v]?.map MapView.bindings := by
    simpa using congrArg (fun l => l[v]?) hbindings
  simp only [openBindings, openView, hopened]
  cases s.opened with
  | none => rfl
  | some v => exact hview v

/-- So does the open location. -/
theorem openLocation_congr {s s' : AppState K} (hopened : s'.opened = s.opened)
    (hbindings : s'.views.map MapView.bindings = s.views.map MapView.bindings) :
    s'.openLocation = s.openLocation := by
  rw [openLocation_eq, openLocation_eq, openBindings_congr hopened hbindings]

/-! ## Events -/

/-- `makeUIView` and `onAppear` of a `ContentView(location: $locations[k])`. -/
def appear (k : ℕ) (s : AppState K) : Option (AppState K) :=
  if s.opened = none then do
    let l ← s.locations[k]?
    let globals ← ContentView.onAppear s.globals l
    let view : MapView K :=
      { binding := k
        timerBinding := k
        worldMapData := some []
        showInitial := true
        arView := CustomARView.create l }
    let loadButton :=
      if (s.storedData l.id).isSome then { s.saveLoadState.loadButton with isHidden := false }
      else s.saveLoadState.loadButton
    some { s with
      globals := globals
      views := s.views ++ [view]
      opened := some s.views.length
      saveLoadState := { s.saveLoadState with loadButton := loadButton } }
  else none

/-- `onDisappear` of the map on the screen. -/
def disappear (s : AppState K) : Option (AppState K) := do
  let v ← s.opened
  let view ← s.views[v]?
  some { s with
    globals := ContentView.onDisappear s.globals
    views := s.views.set v { view with worldMapData := some [] }
    opened := none
    saveLoadState :=
      { s.saveLoadState with
        loadButton := { s.saveLoadState.loadButton with isHidden := true } } }

/-- A fire of the 0.1 s timer of map `v`. -/
def contentTimer (v : ℕ) (s : AppState K) : Option (AppState K) := do
  let view ← s.views[v]?
  let l ← s.locations[view.timerBinding]?
  some { s with
    locations :=
      s.locations.set view.timerBinding (ContentView.timer s.globals view.worldMapData l)
    views := s.views.set v { view with showInitial := !s.globals.placed } }

/-- An item of the "Place Audio" menu. -/
def press (item : MenuItem) (s : AppState K) : Option (AppState K) := do
  let view ← s.openView
  let l ← s.locations[view.binding]?
  some { s with
    locations := s.locations.set view.binding (ContentView.pressLocation item l)
    globals := ContentView.press item s.globals }

/-- The "Place Initial Anchor" button, shown while `showInitial` holds. -/
def placeInitialAnchor (s : AppState K) : Option (AppState K) := do
  let view ← s.openView
  if view.showInitial then some { s with globals := { s.globals with placeIntitialAnchor := true } }
  else none

/-- A fire of the 1 s timer of `setupGestures` of map `v`. -/
def gestureTimer (v : ℕ) (r₁ r₂ : Raycast K) (s : AppState K) : Option (AppState K) := do
  let view ← s.views[v]?
  let p := CustomARView.gestureTimer r₁ r₂ s.globals view.arView
  some { s with
    globals := p.1
    views := s.views.set v { view with arView := p.2 } }

/-- A fire of the 1 s timer of `setup` of map `v`. -/
def cameraTimer (v : ℕ) (cameraTransform : Transform K) (s : AppState K) : Option (AppState K) := do
  let _ ← s.views[v]?
  some { s with globals := { s.globals with camera := cameraTransform.translation } }

/-- An action of the AR view on the screen that touches nothing else. -/
def onOpenARView (f : CustomARView K → CustomARView K) (s : AppState K) : Option (AppState K) := do
  let v ← s.opened
  let view ← s.views[v]?
  some { s with views := s.views.set v { view with arView := f view.arView } }

/-- `session(_:didAdd:)` of map `v`. -/
def didAdd (v : ℕ) (anchors : List (ARAnchor K × (ℕ → Bool))) (s : AppState K) :
    Option (AppState K) := do
  let view ← s.views[v]?
  let p := CustomARView.sessionDidAdd s.globals.transformations anchors (view.arView, s.scene)
  some { s with
    scene := p.2
    views := s.views.set v { view with arView := p.1 } }

/-- `loadExperience` of the map on the screen; without stored data it stops with `fatalError`. -/
def loadExperience (worldMap : List (ARAnchor K)) (s : AppState K) : Option (AppState K) := do
  let view ← s.openView
  let _ ← s.storedData view.arView.location.id
  s.onOpenARView (CustomARView.loadExperience worldMap)

/-- The completion of `saveExperience` of map `v` with the given archive. -/
def saveCompleted (v : ℕ) (data : Data) (s : AppState K) : Option (AppState K) := do
  let view ← s.views[v]?
  some { s with
    storedData := Function.update s.storedData view.arView.location.id (some data)
    views := s.views.set v { view with arView := CustomARView.saveExperience data view.arView }
    mainQueue := s.mainQueue + 1 }

/-- The main-queue block of `saveExperience`. -/
def showLoadButton (s : AppState K) : Option (AppState K) :=
  if 0 < s.mainQueue then
    some { s with
      mainQueue := s.mainQueue - 1
      saveLoadState :=
        { s.saveLoadState with
          loadButton :=
            { s.saveLoadState.loadButton with isHidden := false, isEnabled := true } } }
  else none

/-- `setData(from: locations[k])` under `key`. -/
def publish (key : UUID) (k : ℕ) (s : AppState K) : Option (AppState K) := do
  let l ← s.locations[k]?
  some { s with documents := s.documents ++ [(key, l)] }

end CommRing

variable [Field K] [LinearOrder K]

/-- A timer of the scene, or `playSound`, reading the module-level camera. -/
def nextScene (e : SceneEvent) (s : AppState K) : Option (AppState K) := do
  let scene ← s.scene.next s.globals.camera e
  some { s with scene := scene }

def next (s : AppState K) : AppEvent K → Option (AppState K)
  | .appear k => s.appear k
  | .disappear => s.disappear
  | .contentTimer v => s.contentTimer v
  | .press item => s.press item
  | .placeInitialAnchor => s.placeInitialAnchor
  | .gestureTimer v r₁ r₂ => s.gestureTimer v r₁ r₂
  | .cameraTimer v cameraTransform => s.cameraTimer v cameraTransform
  | .handleTap hit => s.onOpenARView (CustomARView.handleTap hit)
  | .didAdd v anchors => s.didAdd v anchors
  | .loadExperience worldMap => s.loadExperience worldMap
  | .resetTracking => s.onOpenARView CustomARView.resetTracking
  | .saveCompleted v data => s.saveCompleted v data
  | .showLoadButton => s.showLoadButton
  | .writeFile => some { s with file := some s.locations }
  | .publish key k => s.publish key k
  | .scene e => s.nextScene e

end AppState

/-- The machine of the app. -/
def app (K : Type) [Field K] [LinearOrder K] : Machine (AppState K) (AppEvent K) where
  step := AppState.next

namespace AppState

/-! ## What one step can do -/

section Inversion

variable {K : Type} [Field K] [LinearOrder K] {s s' : AppState K}

theorem step_appear {k : ℕ} (h : (app K).step s (.appear k) = some s') :
    ∃ l globals view loadButton, s.opened = none ∧ s.locations[k]? = some l ∧
      ContentView.onAppear s.globals l = some globals ∧
      view = { binding := k, timerBinding := k, worldMapData := some [], showInitial := true,
               arView := CustomARView.create l } ∧
      s' = { s with
        globals := globals
        views := s.views ++ [view]
        opened := some s.views.length
        saveLoadState := { s.saveLoadState with loadButton := loadButton } } := by
  simp only [app, next, appear] at h
  split at h
  case isFalse => cases h
  case isTrue hclosed =>
    obtain ⟨l, hl, h⟩ := Option.bind_eq_some_iff.1 h
    obtain ⟨globals, hglobals, h⟩ := Option.bind_eq_some_iff.1 h
    exact ⟨l, globals, _, _, hclosed, hl, hglobals, rfl, (Option.some.inj h).symm⟩

theorem step_disappear (h : (app K).step s .disappear = some s') :
    ∃ v view loadButton, s.opened = some v ∧ s.views[v]? = some view ∧
      s' = { s with
        globals := ContentView.onDisappear s.globals
        views := s.views.set v { view with worldMapData := some [] }
        opened := none
        saveLoadState := { s.saveLoadState with loadButton := loadButton } } := by
  obtain ⟨v, hv, h⟩ := Option.bind_eq_some_iff.1 h
  obtain ⟨view, hview, h⟩ := Option.bind_eq_some_iff.1 h
  exact ⟨v, view, _, hv, hview, (Option.some.inj h).symm⟩

theorem step_contentTimer {v : ℕ} (h : (app K).step s (.contentTimer v) = some s') :
    ∃ view l, s.views[v]? = some view ∧ s.locations[view.timerBinding]? = some l ∧
      s' = { s with
        locations :=
          s.locations.set view.timerBinding (ContentView.timer s.globals view.worldMapData l)
        views := s.views.set v { view with showInitial := !s.globals.placed } } := by
  obtain ⟨view, hview, h⟩ := Option.bind_eq_some_iff.1 h
  obtain ⟨l, hl, h⟩ := Option.bind_eq_some_iff.1 h
  exact ⟨view, l, hview, hl, (Option.some.inj h).symm⟩

theorem step_press {item : MenuItem} (h : (app K).step s (.press item) = some s') :
    ∃ view l, s.openView = some view ∧ s.locations[view.binding]? = some l ∧
      s' = { s with
        locations := s.locations.set view.binding (ContentView.pressLocation item l)
        globals := ContentView.press item s.globals } := by
  obtain ⟨view, hview, h⟩ := Option.bind_eq_some_iff.1 h
  obtain ⟨l, hl, h⟩ := Option.bind_eq_some_iff.1 h
  exact ⟨view, l, hview, hl, (Option.some.inj h).symm⟩

theorem step_placeInitialAnchor (h : (app K).step s .placeInitialAnchor = some s') :
    ∃ view, s.openView = some view ∧ view.showInitial = true ∧
      s' = { s with globals := { s.globals with placeIntitialAnchor := true } } := by
  obtain ⟨view, hview, h⟩ := Option.bind_eq_some_iff.1 h
  split at h
  case isFalse => cases h
  case isTrue hshow => exact ⟨view, hview, hshow, (Option.some.inj h).symm⟩

theorem step_gestureTimer {v : ℕ} {r₁ r₂ : Raycast K}
    (h : (app K).step s (.gestureTimer v r₁ r₂) = some s') :
    ∃ view, s.views[v]? = some view ∧
      s' = { s with
        globals := (CustomARView.gestureTimer r₁ r₂ s.globals view.arView).1
        views := s.views.set v
          { view with arView := (CustomARView.gestureTimer r₁ r₂ s.globals view.arView).2 } } := by
  obtain ⟨view, hview, h⟩ := Option.bind_eq_some_iff.1 h
  exact ⟨view, hview, (Option.some.inj h).symm⟩

theorem step_cameraTimer {v : ℕ} {cameraTransform : Transform K}
    (h : (app K).step s (.cameraTimer v cameraTransform) = some s') :
    ∃ view, s.views[v]? = some view ∧
      s' = { s with globals := { s.globals with camera := cameraTransform.translation } } := by
  obtain ⟨view, hview, h⟩ := Option.bind_eq_some_iff.1 h
  exact ⟨view, hview, (Option.some.inj h).symm⟩

omit [LinearOrder K] in
theorem onOpenARView_eq_some {f : CustomARView K → CustomARView K}
    (h : s.onOpenARView f = some s') :
    ∃ v view, s.opened = some v ∧ s.views[v]? = some view ∧
      s' = { s with views := s.views.set v { view with arView := f view.arView } } := by
  obtain ⟨v, hv, h⟩ := Option.bind_eq_some_iff.1 h
  obtain ⟨view, hview, h⟩ := Option.bind_eq_some_iff.1 h
  exact ⟨v, view, hv, hview, (Option.some.inj h).symm⟩

theorem step_didAdd {v : ℕ} {anchors : List (ARAnchor K × (ℕ → Bool))}
    (h : (app K).step s (.didAdd v anchors) = some s') :
    ∃ view p, s.views[v]? = some view ∧
      p = CustomARView.sessionDidAdd s.globals.transformations anchors (view.arView, s.scene) ∧
      s' = { s with
        scene := p.2
        views := s.views.set v { view with arView := p.1 } } := by
  obtain ⟨view, hview, h⟩ := Option.bind_eq_some_iff.1 h
  exact ⟨view, _, hview, rfl, (Option.some.inj h).symm⟩

theorem step_handleTap {hit : Option (Transform K)}
    (h : (app K).step s (.handleTap hit) = some s') :
    ∃ v view, s.opened = some v ∧ s.views[v]? = some view ∧
      s' = { s with
        views := s.views.set v { view with arView := CustomARView.handleTap hit view.arView } } :=
  onOpenARView_eq_some h

theorem step_loadExperience {worldMap : List (ARAnchor K)}
    (h : (app K).step s (.loadExperience worldMap) = some s') :
    ∃ v view, s.opened = some v ∧ s.views[v]? = some view ∧
      s' = { s with
        views := s.views.set v
          { view with arView := CustomARView.loadExperience worldMap view.arView } } := by
  obtain ⟨_, -, h⟩ := Option.bind_eq_some_iff.1 h
  obtain ⟨_, -, h⟩ := Option.bind_eq_some_iff.1 h
  exact onOpenARView_eq_some h

theorem step_resetTracking (h : (app K).step s .resetTracking = some s') :
    ∃ v view, s.opened = some v ∧ s.views[v]? = some view ∧
      s' = { s with
        views := s.views.set v { view with arView := CustomARView.resetTracking view.arView } } :=
  onOpenARView_eq_some h

theorem step_saveCompleted {v : ℕ} {data : Data}
    (h : (app K).step s (.saveCompleted v data) = some s') :
    ∃ view, s.views[v]? = some view ∧
      s' = { s with
        storedData := Function.update s.storedData view.arView.location.id (some data)
        views := s.views.set v { view with arView := CustomARView.saveExperience data view.arView }
        mainQueue := s.mainQueue + 1 } := by
  obtain ⟨view, hview, h⟩ := Option.bind_eq_some_iff.1 h
  exact ⟨view, hview, (Option.some.inj h).symm⟩

theorem step_showLoadButton (h : (app K).step s .showLoadButton = some s') :
    ∃ loadButton, s' = { s with
      mainQueue := s.mainQueue - 1
      saveLoadState := { s.saveLoadState with loadButton := loadButton } } := by
  simp only [app, next, showLoadButton] at h
  split at h
  case isFalse => cases h
  case isTrue => exact ⟨_, (Option.some.inj h).symm⟩

theorem step_writeFile (h : (app K).step s .writeFile = some s') :
    s' = { s with file := some s.locations } :=
  (Option.some.inj h).symm

theorem step_publish {key : UUID} {k : ℕ} (h : (app K).step s (.publish key k) = some s') :
    ∃ l, s.locations[k]? = some l ∧ s' = { s with documents := s.documents ++ [(key, l)] } := by
  obtain ⟨l, hl, h⟩ := Option.bind_eq_some_iff.1 h
  exact ⟨l, hl, (Option.some.inj h).symm⟩

theorem step_nextScene {e : SceneEvent} (h : (app K).step s (.scene e) = some s') :
    ∃ scene, s.scene.next s.globals.camera e = some scene ∧ s' = { s with scene := scene } := by
  obtain ⟨scene, hscene, h⟩ := Option.bind_eq_some_iff.1 h
  exact ⟨scene, hscene, (Option.some.inj h).symm⟩

end Inversion

/-! ## What one step leaves alone -/

section Frame

variable {K : Type} [Field K] [LinearOrder K] {s s' : AppState K} {e : AppEvent K}

/-- What any event does to the scene. -/
theorem step_scene (h : (app K).step s e = some s') :
    s'.scene = s.scene ∨
      (∃ v view anchors, e = .didAdd v anchors ∧ s.views[v]? = some view ∧
        s'.scene = (CustomARView.sessionDidAdd s.globals.transformations anchors
          (view.arView, s.scene)).2) ∨
      (∃ e', e = .scene e' ∧ s.scene.next s.globals.camera e' = some s'.scene) := by
  cases e with
  | appear k =>
    obtain ⟨_, _, _, _, -, -, -, -, rfl⟩ := step_appear h
    exact .inl rfl
  | disappear =>
    obtain ⟨_, _, _, -, -, rfl⟩ := step_disappear h
    exact .inl rfl
  | contentTimer v =>
    obtain ⟨_, _, -, -, rfl⟩ := step_contentTimer h
    exact .inl rfl
  | press item =>
    obtain ⟨_, _, -, -, rfl⟩ := step_press h
    exact .inl rfl
  | placeInitialAnchor =>
    obtain ⟨_, -, -, rfl⟩ := step_placeInitialAnchor h
    exact .inl rfl
  | gestureTimer v r₁ r₂ =>
    obtain ⟨_, -, rfl⟩ := step_gestureTimer h
    exact .inl rfl
  | cameraTimer v cameraTransform =>
    obtain ⟨_, -, rfl⟩ := step_cameraTimer h
    exact .inl rfl
  | handleTap hit =>
    obtain ⟨_, _, -, -, rfl⟩ := step_handleTap h
    exact .inl rfl
  | didAdd v anchors =>
    obtain ⟨view, _, hview, rfl, rfl⟩ := step_didAdd h
    exact .inr (.inl ⟨v, view, anchors, rfl, hview, rfl⟩)
  | loadExperience worldMap =>
    obtain ⟨_, _, -, -, rfl⟩ := step_loadExperience h
    exact .inl rfl
  | resetTracking =>
    obtain ⟨_, _, -, -, rfl⟩ := step_resetTracking h
    exact .inl rfl
  | saveCompleted v data =>
    obtain ⟨_, -, rfl⟩ := step_saveCompleted h
    exact .inl rfl
  | showLoadButton =>
    obtain ⟨_, rfl⟩ := step_showLoadButton h
    exact .inl rfl
  | writeFile =>
    obtain rfl := step_writeFile h
    exact .inl rfl
  | publish key k =>
    obtain ⟨_, -, rfl⟩ := step_publish h
    exact .inl rfl
  | scene e' =>
    obtain ⟨_, hscene, rfl⟩ := step_nextScene h
    exact .inr (.inr ⟨e', rfl, hscene⟩)

theorem step_globals (h : (app K).step s e = some s') (he : e.keepsGlobals = true) :
    s'.globals = s.globals := by
  cases e with
  | appear k => cases he
  | disappear => cases he
  | press item => cases he
  | placeInitialAnchor => cases he
  | gestureTimer v r₁ r₂ => cases he
  | cameraTimer v cameraTransform => cases he
  | contentTimer v =>
    obtain ⟨_, _, -, -, hs'⟩ := step_contentTimer h
    rw [hs']
  | handleTap hit =>
    obtain ⟨_, _, -, -, hs'⟩ := step_handleTap h
    rw [hs']
  | didAdd v anchors =>
    obtain ⟨_, _, -, -, hs'⟩ := step_didAdd h
    rw [hs']
  | loadExperience worldMap =>
    obtain ⟨_, _, -, -, hs'⟩ := step_loadExperience h
    rw [hs']
  | resetTracking =>
    obtain ⟨_, _, -, -, hs'⟩ := step_resetTracking h
    rw [hs']
  | saveCompleted v data =>
    obtain ⟨_, -, hs'⟩ := step_saveCompleted h
    rw [hs']
  | showLoadButton =>
    obtain ⟨_, hs'⟩ := step_showLoadButton h
    rw [hs']
  | writeFile => rw [step_writeFile h]
  | publish key k =>
    obtain ⟨_, -, hs'⟩ := step_publish h
    rw [hs']
  | scene e' =>
    obtain ⟨_, -, hs'⟩ := step_nextScene h
    rw [hs']

/-- Two states with the same list, the same recording buffers and requests, and the same map on
the screen. -/
structure SameRecording (s s' : AppState K) : Prop where
  locations : s'.locations = s.locations
  directions : s'.globals.directions = s.globals.directions
  transformations : s'.globals.transformations = s.globals.transformations
  addAudio : s'.globals.addAudio = s.globals.addAudio
  opened : s'.opened = s.opened
  bindings : s'.views.map MapView.bindings = s.views.map MapView.bindings
  worldMapData : s'.views.map MapView.worldMapData = s.views.map MapView.worldMapData

theorem step_quiet (h : (app K).step s e = some s') (he : e.quiet = true) :
    SameRecording s s' := by
  cases e with
  | appear k => cases he
  | disappear => cases he
  | contentTimer v => cases he
  | press item => cases he
  | gestureTimer v r₁ r₂ => cases he
  | placeInitialAnchor =>
    obtain ⟨_, -, -, rfl⟩ := step_placeInitialAnchor h
    exact ⟨rfl, rfl, rfl, rfl, rfl, rfl, rfl⟩
  | cameraTimer v cameraTransform =>
    obtain ⟨_, -, rfl⟩ := step_cameraTimer h
    exact ⟨rfl, rfl, rfl, rfl, rfl, rfl, rfl⟩
  | handleTap hit =>
    obtain ⟨_, _, -, hview, rfl⟩ := step_handleTap h
    exact ⟨rfl, rfl, rfl, rfl, rfl, map_set_eq_map hview rfl, map_set_eq_map hview rfl⟩
  | didAdd v anchors =>
    obtain ⟨_, _, hview, -, rfl⟩ := step_didAdd h
    exact ⟨rfl, rfl, rfl, rfl, rfl, map_set_eq_map hview rfl, map_set_eq_map hview rfl⟩
  | loadExperience worldMap =>
    obtain ⟨_, _, -, hview, rfl⟩ := step_loadExperience h
    exact ⟨rfl, rfl, rfl, rfl, rfl, map_set_eq_map hview rfl, map_set_eq_map hview rfl⟩
  | resetTracking =>
    obtain ⟨_, _, -, hview, rfl⟩ := step_resetTracking h
    exact ⟨rfl, rfl, rfl, rfl, rfl, map_set_eq_map hview rfl, map_set_eq_map hview rfl⟩
  | saveCompleted v data =>
    obtain ⟨_, hview, rfl⟩ := step_saveCompleted h
    exact ⟨rfl, rfl, rfl, rfl, rfl, map_set_eq_map hview rfl, map_set_eq_map hview rfl⟩
  | showLoadButton =>
    obtain ⟨_, rfl⟩ := step_showLoadButton h
    exact ⟨rfl, rfl, rfl, rfl, rfl, rfl, rfl⟩
  | writeFile =>
    obtain rfl := step_writeFile h
    exact ⟨rfl, rfl, rfl, rfl, rfl, rfl, rfl⟩
  | publish key k =>
    obtain ⟨_, -, rfl⟩ := step_publish h
    exact ⟨rfl, rfl, rfl, rfl, rfl, rfl, rfl⟩
  | scene e' =>
    obtain ⟨_, -, rfl⟩ := step_nextScene h
    exact ⟨rfl, rfl, rfl, rfl, rfl, rfl, rfl⟩

/-- Between opening and closing, the map on the screen and all bindings stay. -/
theorem step_stays (h : (app K).step s e = some s') (he : e.staysOpen = true) :
    s'.opened = s.opened ∧ s'.views.map MapView.bindings = s.views.map MapView.bindings := by
  cases e with
  | appear k => cases he
  | disappear => cases he
  | contentTimer v =>
    obtain ⟨_, _, hview, -, rfl⟩ := step_contentTimer h
    exact ⟨rfl, map_set_eq_map hview rfl⟩
  | press item =>
    obtain ⟨_, _, -, -, rfl⟩ := step_press h
    exact ⟨rfl, rfl⟩
  | gestureTimer v r₁ r₂ =>
    obtain ⟨_, hview, rfl⟩ := step_gestureTimer h
    exact ⟨rfl, map_set_eq_map hview rfl⟩
  | _ =>
    have hsame := step_quiet h rfl
    exact ⟨hsame.opened, hsame.bindings⟩

/-- Between opening and closing, the open location stays. -/
theorem step_openLocation (h : (app K).step s e = some s') (he : e.staysOpen = true) :
    s'.openLocation = s.openLocation :=
  openLocation_congr (step_stays h he).1 (step_stays h he).2

/-- Only a fire of a 0.1 s timer and a press write the list. -/
theorem step_locations (h : (app K).step s e = some s') :
    s'.locations = s.locations ∨
      (∃ v view l, e = .contentTimer v ∧ s.views[v]? = some view ∧
        s.locations[view.timerBinding]? = some l ∧
        s'.locations =
          s.locations.set view.timerBinding (ContentView.timer s.globals view.worldMapData l)) ∨
      (∃ item view l, e = .press item ∧ s.openView = some view ∧
        s.locations[view.binding]? = some l ∧
        s'.locations = s.locations.set view.binding (ContentView.pressLocation item l)) := by
  cases e with
  | appear k =>
    obtain ⟨_, _, _, _, -, -, -, -, rfl⟩ := step_appear h
    exact .inl rfl
  | disappear =>
    obtain ⟨_, _, _, -, -, rfl⟩ := step_disappear h
    exact .inl rfl
  | contentTimer v =>
    obtain ⟨view, l, hview, hl, rfl⟩ := step_contentTimer h
    exact .inr (.inl ⟨v, view, l, rfl, hview, hl, rfl⟩)
  | press item =>
    obtain ⟨view, l, hview, hl, rfl⟩ := step_press h
    exact .inr (.inr ⟨item, view, l, rfl, hview, hl, rfl⟩)
  | gestureTimer v r₁ r₂ =>
    obtain ⟨_, -, rfl⟩ := step_gestureTimer h
    exact .inl rfl
  | _ => exact .inl (step_quiet h rfl).locations

/-- No event changes the id of an entry. -/
theorem step_ids (h : (app K).step s e = some s') :
    s'.locations.map Location.id = s.locations.map Location.id := by
  rcases step_locations h with hsame | ⟨_, _, _, -, -, hl, hset⟩ | ⟨_, _, _, -, -, hl, hset⟩
  · rw [hsame]
  · rw [hset, map_set_eq_map hl (ContentView.timer_id _ _ _)]
  · rw [hset, map_set_eq_map hl (ContentView.pressLocation_id _ _)]

/-- Two states with the same persistent data and the same buttons. -/
structure SameStores (s s' : AppState K) : Prop where
  storedData : s'.storedData = s.storedData
  file : s'.file = s.file
  documents : s'.documents = s.documents
  saveLoadState : s'.saveLoadState = s.saveLoadState

theorem step_sameStores (h : (app K).step s e = some s') (he : e.storesNothing = true) :
    SameStores s s' := by
  cases e with
  | saveCompleted v data => cases he
  | writeFile => cases he
  | publish key k => cases he
  | appear k => cases he
  | disappear => cases he
  | showLoadButton => cases he
  | contentTimer v =>
    obtain ⟨_, _, -, -, rfl⟩ := step_contentTimer h
    exact ⟨rfl, rfl, rfl, rfl⟩
  | press item =>
    obtain ⟨_, _, -, -, rfl⟩ := step_press h
    exact ⟨rfl, rfl, rfl, rfl⟩
  | gestureTimer v r₁ r₂ =>
    obtain ⟨_, -, rfl⟩ := step_gestureTimer h
    exact ⟨rfl, rfl, rfl, rfl⟩
  | placeInitialAnchor =>
    obtain ⟨_, -, -, rfl⟩ := step_placeInitialAnchor h
    exact ⟨rfl, rfl, rfl, rfl⟩
  | cameraTimer v cameraTransform =>
    obtain ⟨_, -, rfl⟩ := step_cameraTimer h
    exact ⟨rfl, rfl, rfl, rfl⟩
  | handleTap hit =>
    obtain ⟨_, _, -, -, rfl⟩ := step_handleTap h
    exact ⟨rfl, rfl, rfl, rfl⟩
  | didAdd v anchors =>
    obtain ⟨_, _, -, -, rfl⟩ := step_didAdd h
    exact ⟨rfl, rfl, rfl, rfl⟩
  | loadExperience worldMap =>
    obtain ⟨_, _, -, -, rfl⟩ := step_loadExperience h
    exact ⟨rfl, rfl, rfl, rfl⟩
  | resetTracking =>
    obtain ⟨_, _, -, -, rfl⟩ := step_resetTracking h
    exact ⟨rfl, rfl, rfl, rfl⟩
  | scene e' =>
    obtain ⟨_, -, rfl⟩ := step_nextScene h
    exact ⟨rfl, rfl, rfl, rfl⟩

/-- What an event writes into `UserDefaults`, the file and Firestore, in four cases. -/
theorem step_stores (h : (app K).step s e = some s') :
    (s'.storedData = s.storedData ∧ s'.file = s.file ∧ s'.documents = s.documents) ∨
      (∃ v data view, e = .saveCompleted v data ∧ s.views[v]? = some view ∧
        s'.storedData = Function.update s.storedData view.arView.location.id (some data) ∧
        s'.file = s.file ∧ s'.documents = s.documents) ∨
      (e = .writeFile ∧ s' = { s with file := some s.locations }) ∨
      (∃ key k l, e = .publish key k ∧ s.locations[k]? = some l ∧
        s' = { s with documents := s.documents ++ [(key, l)] }) := by
  cases e with
  | saveCompleted v data =>
    obtain ⟨view, hview, rfl⟩ := step_saveCompleted h
    exact .inr (.inl ⟨v, data, view, rfl, hview, rfl, rfl, rfl⟩)
  | writeFile => exact .inr (.inr (.inl ⟨rfl, step_writeFile h⟩))
  | publish key k =>
    obtain ⟨l, hl, hs'⟩ := step_publish h
    exact .inr (.inr (.inr ⟨key, k, l, rfl, hl, hs'⟩))
  | appear k =>
    obtain ⟨_, _, _, _, -, -, -, -, rfl⟩ := step_appear h
    exact .inl ⟨rfl, rfl, rfl⟩
  | disappear =>
    obtain ⟨_, _, _, -, -, rfl⟩ := step_disappear h
    exact .inl ⟨rfl, rfl, rfl⟩
  | showLoadButton =>
    obtain ⟨_, rfl⟩ := step_showLoadButton h
    exact .inl ⟨rfl, rfl, rfl⟩
  | _ =>
    have hsame := step_sameStores h rfl
    exact .inl ⟨hsame.storedData, hsame.file, hsame.documents⟩

/-- Only publishing writes a document. -/
theorem step_documents (h : (app K).step s e = some s') :
    s'.documents = s.documents ∨
      ∃ key k l, e = .publish key k ∧ s.locations[k]? = some l ∧
        s'.documents = s.documents ++ [(key, l)] := by
  rcases step_stores h with ⟨-, -, hsame⟩ | ⟨_, _, _, -, -, -, -, hsame⟩ | ⟨-, hwritten⟩ |
      ⟨key, k, l, he, hl, hpublished⟩
  · exact .inl hsame
  · exact .inl hsame
  · exact .inl (by rw [hwritten])
  · exact .inr ⟨key, k, l, he, hl, by rw [hpublished]⟩

/-- The file only ever gets the list as it is. -/
theorem step_file (h : (app K).step s e = some s') :
    s'.file = s.file ∨ s'.file = some s'.locations := by
  rcases step_stores h with ⟨-, hsame, -⟩ | ⟨_, _, _, -, -, -, hsame, -⟩ | ⟨-, hwritten⟩ |
      ⟨_, _, _, -, -, hpublished⟩
  · exact .inl hsame
  · exact .inl hsame
  · exact .inr (by rw [hwritten])
  · exact .inl (by rw [hpublished])

/-- Only a completed save writes `UserDefaults`, under the key of its view. -/
theorem step_storedData (h : (app K).step s e = some s') :
    s'.storedData = s.storedData ∨
      ∃ v data view, e = .saveCompleted v data ∧ s.views[v]? = some view ∧
        s'.storedData =
          Function.update s.storedData view.arView.location.id (some data) := by
  rcases step_stores h with ⟨hsame, -⟩ | ⟨v, data, view, he, hview, hsaved, -⟩ | ⟨-, hwritten⟩ |
      ⟨_, _, _, -, -, hpublished⟩
  · exact .inl hsame
  · exact .inr ⟨v, data, view, he, hview, hsaved⟩
  · exact .inl (by rw [hwritten])
  · exact .inl (by rw [hpublished])

/-- What an event makes of the buttons, in four cases: opening a map shows Load if a map is stored,
closing it hides Load, and the block of a save shows it. -/
theorem step_buttons (h : (app K).step s e = some s') :
    (∃ k l, e = .appear k ∧ s.locations[k]? = some l ∧
        s'.saveLoadState =
          { s.saveLoadState with
            loadButton :=
              { s.saveLoadState.loadButton with
                isHidden := s.saveLoadState.loadButton.isHidden && (s.storedData l.id).isNone } }) ∨
      (e = .disappear ∧
        s'.saveLoadState =
          { s.saveLoadState with
            loadButton := { s.saveLoadState.loadButton with isHidden := true } }) ∨
      (e = .showLoadButton ∧
        s'.saveLoadState =
          { s.saveLoadState with
            loadButton :=
              { s.saveLoadState.loadButton with isHidden := false, isEnabled := true } }) ∨
      (e.staysOpen = true ∧ e ≠ .showLoadButton ∧ s'.saveLoadState = s.saveLoadState) := by
  cases e with
  | appear k =>
    simp only [app, next, appear] at h
    split at h
    case isFalse => cases h
    case isTrue =>
      obtain ⟨l, hl, h⟩ := Option.bind_eq_some_iff.1 h
      obtain ⟨globals, -, h⟩ := Option.bind_eq_some_iff.1 h
      obtain rfl := Option.some.inj h
      refine .inl ⟨k, l, rfl, hl, ?_⟩
      cases s.storedData l.id <;> simp
  | disappear =>
    obtain ⟨_, -, h⟩ := Option.bind_eq_some_iff.1 h
    obtain ⟨_, -, h⟩ := Option.bind_eq_some_iff.1 h
    obtain rfl := Option.some.inj h
    exact .inr (.inl ⟨rfl, rfl⟩)
  | showLoadButton =>
    simp only [app, next, showLoadButton] at h
    split at h
    case isFalse => cases h
    case isTrue =>
      obtain rfl := Option.some.inj h
      exact .inr (.inr (.inl ⟨rfl, rfl⟩))
  | saveCompleted v data =>
    obtain ⟨_, -, rfl⟩ := step_saveCompleted h
    exact .inr (.inr (.inr ⟨rfl, by simp, rfl⟩))
  | writeFile =>
    obtain rfl := step_writeFile h
    exact .inr (.inr (.inr ⟨rfl, by simp, rfl⟩))
  | publish key k =>
    obtain ⟨_, -, rfl⟩ := step_publish h
    exact .inr (.inr (.inr ⟨rfl, by simp, rfl⟩))
  | _ => exact .inr (.inr (.inr ⟨rfl, by simp, (step_sameStores h rfl).saveLoadState⟩))

/-- No event of the app presses a button. -/
theorem step_pressed (h : (app K).step s e = some s') :
    s'.saveLoadState.saveButton.isPressed = s.saveLoadState.saveButton.isPressed ∧
      s'.saveLoadState.loadButton.isPressed = s.saveLoadState.loadButton.isPressed := by
  rcases step_buttons h with ⟨_, _, -, -, hopened⟩ | ⟨-, hclosed⟩ | ⟨-, hshown⟩ | ⟨-, -, hsame⟩
  · rw [hopened]
    exact ⟨rfl, rfl⟩
  · rw [hclosed]
    exact ⟨rfl, rfl⟩
  · rw [hshown]
    exact ⟨rfl, rfl⟩
  · rw [hsame]
    exact ⟨rfl, rfl⟩

/-! ### The AR views -/

/-- What event `e` makes of the AR view of map `v`. -/
def arViewAfter (s : AppState K) (e : AppEvent K) (v : ℕ) (arView : CustomARView K) :
    CustomARView K :=
  match e with
  | .gestureTimer w r₁ r₂ =>
    if v = w then (CustomARView.gestureTimer r₁ r₂ s.globals arView).2 else arView
  | .handleTap hit => if s.opened = some v then CustomARView.handleTap hit arView else arView
  | .didAdd w anchors =>
    if v = w then
      (CustomARView.sessionDidAdd s.globals.transformations anchors (arView, s.scene)).1
    else arView
  | .loadExperience worldMap =>
    if s.opened = some v then CustomARView.loadExperience worldMap arView else arView
  | .resetTracking => if s.opened = some v then CustomARView.resetTracking arView else arView
  | .saveCompleted w data => if v = w then CustomARView.saveExperience data arView else arView
  | _ => arView

omit [LinearOrder K] in
/-- The AR views after view `w` has been written. -/
theorem map_arView_set {views : List (MapView K)} {w : ℕ} {view view' : MapView K}
    {f : CustomARView K → CustomARView K} (hview : views[w]? = some view)
    (hf : view'.arView = f view.arView) (v : ℕ) :
    (views.set w view')[v]?.map MapView.arView =
      views[v]?.map fun view => if v = w then f view.arView else view.arView := by
  by_cases hv : v = w
  · subst hv
    simp [getElem?_set_self' hview, hview, hf]
  · rw [List.getElem?_set_ne (Ne.symm hv)]
    simp only [if_neg hv]

/-- Opening a map apart, an event turns the AR views into what `arViewAfter` says. -/
theorem step_arView (h : (app K).step s e = some s') (he : ∀ k, e ≠ .appear k) (v : ℕ) :
    s'.views[v]?.map MapView.arView =
      s.views[v]?.map fun view => s.arViewAfter e v view.arView := by
  have hopen {w : ℕ} (hw : s.opened = some w) : (s.opened = some v) = (v = w) := by
    simp [hw, eq_comm]
  cases e with
  | appear k => exact absurd rfl (he k)
  | disappear =>
    obtain ⟨w, view, _, -, hview, rfl⟩ := step_disappear h
    have harView : { view with worldMapData := some [] }.arView = id view.arView := rfl
    have hmap := map_arView_set hview harView v
    simp only [id_eq, ite_self] at hmap
    exact hmap
  | contentTimer w =>
    obtain ⟨view, _, hview, -, rfl⟩ := step_contentTimer h
    have harView : { view with showInitial := !s.globals.placed }.arView = id view.arView := rfl
    have hmap := map_arView_set hview harView v
    simp only [id_eq, ite_self] at hmap
    exact hmap
  | press item =>
    obtain ⟨_, _, -, -, rfl⟩ := step_press h
    rfl
  | placeInitialAnchor =>
    obtain ⟨_, -, -, rfl⟩ := step_placeInitialAnchor h
    rfl
  | gestureTimer w r₁ r₂ =>
    obtain ⟨view, hview, rfl⟩ := step_gestureTimer h
    exact map_arView_set (f := fun a => (CustomARView.gestureTimer r₁ r₂ s.globals a).2) hview rfl v
  | cameraTimer w cameraTransform =>
    obtain ⟨_, -, rfl⟩ := step_cameraTimer h
    rfl
  | handleTap hit =>
    obtain ⟨w, view, hw, hview, rfl⟩ := step_handleTap h
    simpa only [arViewAfter, hopen hw] using map_arView_set hview rfl v
  | didAdd w anchors =>
    obtain ⟨view, _, hview, rfl, rfl⟩ := step_didAdd h
    exact map_arView_set (f := fun a => (CustomARView.sessionDidAdd s.globals.transformations
      anchors (a, s.scene)).1) hview rfl v
  | loadExperience worldMap =>
    obtain ⟨w, view, hw, hview, rfl⟩ := step_loadExperience h
    simpa only [arViewAfter, hopen hw] using map_arView_set hview rfl v
  | resetTracking =>
    obtain ⟨w, view, hw, hview, rfl⟩ := step_resetTracking h
    simpa only [arViewAfter, hopen hw] using map_arView_set hview rfl v
  | saveCompleted w data =>
    obtain ⟨view, hview, rfl⟩ := step_saveCompleted h
    exact map_arView_set (f := CustomARView.saveExperience data) hview rfl v
  | showLoadButton =>
    obtain ⟨_, rfl⟩ := step_showLoadButton h
    rfl
  | writeFile =>
    obtain rfl := step_writeFile h
    rfl
  | publish key k =>
    obtain ⟨_, -, rfl⟩ := step_publish h
    rfl
  | scene e' =>
    obtain ⟨_, -, rfl⟩ := step_nextScene h
    rfl

/-- The AR view on the screen after an event that opens and closes no map. -/
theorem step_openARView (h : (app K).step s e = some s') (he : e.staysOpen = true) :
    s'.openView.map MapView.arView =
      s.opened.bind fun v => s.views[v]?.map fun view => s.arViewAfter e v view.arView := by
  have hne : ∀ k, e ≠ .appear k := by
    rintro k rfl
    cases he
  rw [openView, (step_stays h he).1]
  cases s.opened with
  | none => rfl
  | some v => exact step_arView h hne v

end Frame

end AppState

end EyeMaps
