import EyeMaps.Model.App

/-!
# The buttons of the open map

The Save and Load buttons only raise a flag.  The calls are made by `updateUIView` of the
`ARViewContainer`, which SwiftUI runs whenever it likes while a map is on the screen, and it is
there that the flags are lowered: the one of Load at once, those of Save and Reset in a block it
puts on the main queue.  `controls` is the machine of these flags over the state of the app.  A
world map that `saveExperience` has asked for arrives at any later point, or fails to.

`saveCalls` and `loadCalls` count the calls of `saveExperience` and `loadExperience`.
-/

namespace EyeMaps

open Framework

/-- Events of the app that only the buttons bring about. -/
def AppEvent.fromButtons {K : Type} [CommRing K] : AppEvent K → Bool
  | .loadExperience _ | .resetTracking | .saveCompleted _ _ => true
  | _ => false

structure Controls (K : Type) [CommRing K] where
  appState : AppState K
  /-- `arState.resetButton` -/
  resetButton : ButtonState
  /-- main-queue blocks that lower the flag of Save -/
  saveResets : ℕ
  /-- main-queue blocks that lower the flag of Reset -/
  resetResets : ℕ
  /-- the maps whose `getCurrentWorldMap` has not completed -/
  worldMaps : List ℕ
  saveCalls : ℕ
  loadCalls : ℕ

inductive ControlsEvent (K : Type) [CommRing K]
  | pressSave
  | pressLoad
  | updateUIView (worldMap : List (ARAnchor K))
  | clearSave
  | clearReset
  | currentWorldMap (j : ℕ) (data : Option Data)
  | app (e : AppEvent K)

def ControlsEvent.isPressSave {K : Type} [CommRing K] : ControlsEvent K → Bool
  | .pressSave => true
  | _ => false

def ControlsEvent.isPressLoad {K : Type} [CommRing K] : ControlsEvent K → Bool
  | .pressLoad => true
  | _ => false

namespace Controls

variable {K : Type}

section CommRing

variable [CommRing K]

def initial (locations : List (Location K)) (storedData : UUID → Option Data) : Controls K where
  appState := AppState.initial locations storedData
  resetButton := {}
  saveResets := 0
  resetResets := 0
  worldMaps := []
  saveCalls := 0
  loadCalls := 0

/-- `saveLoadState.saveButton.isPressed` -/
def savePressed (s : Controls K) : Bool := s.appState.saveLoadState.saveButton.isPressed

/-- `saveLoadState.loadButton.isPressed` -/
def loadPressed (s : Controls K) : Bool := s.appState.saveLoadState.loadButton.isPressed

def setSavePressed (isPressed : Bool) (s : Controls K) : Controls K :=
  let saveLoadState := s.appState.saveLoadState
  let saveButton := { saveLoadState.saveButton with isPressed := isPressed }
  { s with
    appState :=
      { s.appState with saveLoadState := { saveLoadState with saveButton := saveButton } } }

def setLoadPressed (isPressed : Bool) (s : Controls K) : Controls K :=
  let saveLoadState := s.appState.saveLoadState
  let loadButton := { saveLoadState.loadButton with isPressed := isPressed }
  { s with
    appState :=
      { s.appState with saveLoadState := { saveLoadState with loadButton := loadButton } } }

/-! ## Events -/

/-- The Save button of the map on the screen. -/
def pressSave (s : Controls K) : Option (Controls K) := do
  let _ ← s.appState.opened
  some (s.setSavePressed true)

/-- The Load button, shown while it is not hidden. -/
def pressLoad (s : Controls K) : Option (Controls K) := do
  let _ ← s.appState.opened
  if s.appState.saveLoadState.loadButton.isHidden then none else some (s.setLoadPressed true)

/-- `saveExperience` of map `v`, which asks for the current world map. -/
def saveExperience (v : ℕ) (s : Controls K) : Controls K :=
  { s with worldMaps := s.worldMaps ++ [v], saveCalls := s.saveCalls + 1 }

/-- `loadExperience` of the map on the screen. -/
def loadExperience (worldMap : List (ARAnchor K)) (s : Controls K) : Option (Controls K) := do
  let appState ← s.appState.loadExperience worldMap
  some { s with appState := appState, loadCalls := s.loadCalls + 1 }

/-- The Save part of `updateUIView`. -/
def updateSave (v : ℕ) (s : Controls K) : Controls K :=
  if s.savePressed then
    let s := s.saveExperience v
    { s with saveResets := s.saveResets + 1 }
  else s

/-- The Load part of `updateUIView`. -/
def updateLoad (worldMap : List (ARAnchor K)) (s : Controls K) : Option (Controls K) :=
  if s.loadPressed then do
    let s ← s.loadExperience worldMap
    some (s.setLoadPressed false)
  else some s

/-- The Reset part of `updateUIView`. -/
def updateReset (s : Controls K) : Option (Controls K) :=
  if s.resetButton.isPressed then do
    let appState ← s.appState.onOpenARView CustomARView.resetTracking
    some { s with appState := appState, resetResets := s.resetResets + 1 }
  else some s

/-- `updateUIView` of the map on the screen; `worldMap` is what the stored data unarchives to. -/
def updateUIView (worldMap : List (ARAnchor K)) (s : Controls K) : Option (Controls K) := do
  let v ← s.appState.opened
  let s ← (s.updateSave v).updateLoad worldMap
  s.updateReset

/-- The main-queue block of the Save part. -/
def clearSave (s : Controls K) : Option (Controls K) :=
  if 0 < s.saveResets then
    let s := s.setSavePressed false
    some { s with saveResets := s.saveResets - 1 }
  else none

/-- The main-queue block of the Reset part. -/
def clearReset (s : Controls K) : Option (Controls K) :=
  if 0 < s.resetResets then
    some { s with
      resetButton := { s.resetButton with isPressed := false }
      resetResets := s.resetResets - 1 }
  else none

/-- The completion that `saveExperience` of map `v` passes to `getCurrentWorldMap`; without a
world map it only sets a label. -/
def saveCompletion (v : ℕ) (data : Option Data) (s : AppState K) : Option (AppState K) :=
  match data with
  | some data => s.saveCompleted v data
  | none => some s

/-- The world map asked for as number `j` of those still to come, archived as `data`. -/
def currentWorldMap (j : ℕ) (data : Option Data) (s : Controls K) : Option (Controls K) := do
  let v ← s.worldMaps[j]?
  let appState ← saveCompletion v data s.appState
  some { s with appState := appState, worldMaps := s.worldMaps.eraseIdx j }

end CommRing

variable [Field K] [LinearOrder K]

/-- An event of the app that the buttons have no part in. -/
def nextApp (e : AppEvent K) (s : Controls K) : Option (Controls K) :=
  if e.fromButtons then none
  else do
    let appState ← s.appState.next e
    some { s with appState := appState }

def next (s : Controls K) : ControlsEvent K → Option (Controls K)
  | .pressSave => s.pressSave
  | .pressLoad => s.pressLoad
  | .updateUIView worldMap => s.updateUIView worldMap
  | .clearSave => s.clearSave
  | .clearReset => s.clearReset
  | .currentWorldMap j data => s.currentWorldMap j data
  | .app e => s.nextApp e

end Controls

/-- The machine of the buttons over the app. -/
def controls (K : Type) [Field K] [LinearOrder K] : Machine (Controls K) (ControlsEvent K) where
  step := Controls.next

/-! ## What the events do to the flags -/

namespace Controls

variable {K : Type} [Field K] [LinearOrder K] {s s' : Controls K}

/-- Two states with the same flags of Save and Load, the same blocks of Save and the same
calls. -/
structure SameFlags (s s' : Controls K) : Prop where
  savePressed : s'.savePressed = s.savePressed
  loadPressed : s'.loadPressed = s.loadPressed
  saveResets : s'.saveResets = s.saveResets
  saveCalls : s'.saveCalls = s.saveCalls
  loadCalls : s'.loadCalls = s.loadCalls

theorem step_pressSave (h : (controls K).step s .pressSave = some s') :
    s' = s.setSavePressed true := by
  obtain ⟨_, -, h⟩ := Option.bind_eq_some_iff.1 h
  exact (Option.some.inj h).symm

theorem step_pressLoad (h : (controls K).step s .pressLoad = some s') :
    s' = s.setLoadPressed true := by
  obtain ⟨_, -, h⟩ := Option.bind_eq_some_iff.1 h
  split at h
  case isTrue => cases h
  case isFalse => exact (Option.some.inj h).symm

theorem step_clearSave (h : (controls K).step s .clearSave = some s') :
    0 < s.saveResets ∧ s' = { s.setSavePressed false with saveResets := s.saveResets - 1 } := by
  simp only [controls, next, clearSave] at h
  split at h
  case isFalse => cases h
  case isTrue hblocks => exact ⟨hblocks, (Option.some.inj h).symm⟩

omit [LinearOrder K] in
theorem updateSave_spec (v : ℕ) (s : Controls K) :
    (s.updateSave v).appState = s.appState ∧ (s.updateSave v).loadCalls = s.loadCalls ∧
      (s.updateSave v).saveResets = s.saveResets + s.savePressed.toNat ∧
      (s.updateSave v).saveCalls = s.saveCalls + s.savePressed.toNat := by
  unfold updateSave saveExperience
  cases hpressed : s.savePressed <;> simp

theorem updateLoad_spec {worldMap : List (ARAnchor K)} (h : s.updateLoad worldMap = some s') :
    s'.savePressed = s.savePressed ∧ s'.loadPressed = false ∧ s'.saveResets = s.saveResets ∧
      s'.saveCalls = s.saveCalls ∧ s'.loadCalls = s.loadCalls + s.loadPressed.toNat := by
  unfold updateLoad at h
  split at h
  case isFalse hup =>
    obtain rfl := Option.some.inj h
    have hdown : s.loadPressed = false := by simpa using hup
    exact ⟨rfl, hdown, rfl, rfl, by simp [hdown]⟩
  case isTrue hup =>
    obtain ⟨s₁, hload, h⟩ := Option.bind_eq_some_iff.1 h
    obtain ⟨appState, happ, hload⟩ := Option.bind_eq_some_iff.1 hload
    obtain rfl := Option.some.inj hload
    obtain rfl := Option.some.inj h
    have hkept := AppState.step_pressed (e := .loadExperience worldMap) happ
    exact ⟨hkept.1, rfl, rfl, rfl, by simp [setLoadPressed, hup]⟩

theorem updateReset_sameFlags (h : s.updateReset = some s') : SameFlags s s' := by
  unfold updateReset at h
  split at h
  case isFalse =>
    obtain rfl := Option.some.inj h
    exact ⟨rfl, rfl, rfl, rfl, rfl⟩
  case isTrue =>
    obtain ⟨appState, happ, h⟩ := Option.bind_eq_some_iff.1 h
    obtain rfl := Option.some.inj h
    have hkept := AppState.step_pressed (e := .resetTracking) happ
    exact ⟨hkept.1, hkept.2, rfl, rfl, rfl⟩

/-- A pass calls `saveExperience` and puts a block on the main queue if the flag of Save is up,
which stays as it is, and calls `loadExperience` if that of Load is up, which goes down. -/
theorem step_updateUIView {worldMap : List (ARAnchor K)}
    (h : (controls K).step s (.updateUIView worldMap) = some s') :
    s'.savePressed = s.savePressed ∧ s'.loadPressed = false ∧
      s'.saveResets = s.saveResets + s.savePressed.toNat ∧
      s'.saveCalls = s.saveCalls + s.savePressed.toNat ∧
      s'.loadCalls = s.loadCalls + s.loadPressed.toNat := by
  obtain ⟨v, -, h⟩ := Option.bind_eq_some_iff.1 h
  obtain ⟨s₂, hload, hreset⟩ := Option.bind_eq_some_iff.1 h
  obtain ⟨happ, hloadCalls, hblocks, hsaveCalls⟩ := updateSave_spec v s
  have hsave : (s.updateSave v).savePressed = s.savePressed := by simp only [savePressed, happ]
  have hloadUp : (s.updateSave v).loadPressed = s.loadPressed := by simp only [loadPressed, happ]
  obtain ⟨hsave₂, hload₂, hblocks₂, hsaveCalls₂, hloadCalls₂⟩ := updateLoad_spec hload
  have hsame := updateReset_sameFlags hreset
  refine ⟨?_, ?_, ?_, ?_, ?_⟩
  · rw [hsame.savePressed, hsave₂, hsave]
  · rw [hsame.loadPressed, hload₂]
  · rw [hsame.saveResets, hblocks₂, hblocks]
  · rw [hsame.saveCalls, hsaveCalls₂, hsaveCalls]
  · rw [hsame.loadCalls, hloadCalls₂, hloadCalls, hloadUp]

theorem step_clearReset (h : (controls K).step s .clearReset = some s') : SameFlags s s' := by
  simp only [controls, next, clearReset] at h
  split at h
  case isFalse => cases h
  case isTrue =>
    obtain rfl := Option.some.inj h
    exact ⟨rfl, rfl, rfl, rfl, rfl⟩

theorem step_currentWorldMap {j : ℕ} {data : Option Data}
    (h : (controls K).step s (.currentWorldMap j data) = some s') : SameFlags s s' := by
  obtain ⟨v, -, h⟩ := Option.bind_eq_some_iff.1 h
  obtain ⟨appState, happ, h⟩ := Option.bind_eq_some_iff.1 h
  obtain rfl := Option.some.inj h
  cases data with
  | none =>
    obtain rfl := Option.some.inj happ
    exact ⟨rfl, rfl, rfl, rfl, rfl⟩
  | some data =>
    have hkept := AppState.step_pressed (e := .saveCompleted v data) happ
    exact ⟨hkept.1, hkept.2, rfl, rfl, rfl⟩

theorem step_app {e : AppEvent K} (h : (controls K).step s (.app e) = some s') :
    SameFlags s s' := by
  simp only [controls, next, nextApp] at h
  split at h
  case isTrue => cases h
  case isFalse =>
    obtain ⟨appState, happ, h⟩ := Option.bind_eq_some_iff.1 h
    obtain rfl := Option.some.inj h
    have hkept := AppState.step_pressed happ
    exact ⟨hkept.1, hkept.2, rfl, rfl, rfl⟩

end Controls

end EyeMaps
