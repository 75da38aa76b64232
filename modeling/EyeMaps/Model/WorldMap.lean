import EyeMaps.Model.App

/-!
# World maps and their archives

`app` takes the archive of a save and the unarchived map of a load as data of the event.
`worldMaps` computes both: a save archives the anchors of the session with a `SnapshotAnchor`
appended, a load unarchives what is stored for the location on the screen.

Three facts about ARKit and Foundation are built in.  `getCurrentWorldMap` hands its completion a
fresh map with the anchors of the session, so that appending to it leaves the session alone;
running a configuration with an initial map makes the anchors of the session those of the map; and
unarchiving gives back what was archived (`Archiver.roundTrip`).  ARKit adds, moves and removes
anchors by itself (`TrackingChange`), none of them a `SnapshotAnchor`.
-/

namespace EyeMaps

open Framework

section Anchors

variable {K : Type} [CommRing K]

/-- `SnapshotAnchor(imageData:transform:)`. -/
def ARAnchor.snapshot (imageData : Data) (transform : Transform K) : ARAnchor K where
  name := some "snapshot"
  transform := transform
  imageData := some imageData

@[simp] theorem ARAnchor.isSnapshot_snapshot (imageData : Data) (transform : Transform K) :
    (ARAnchor.snapshot imageData transform).isSnapshot = true := rfl

/-- `ARWorldMap.snapshotAnchor`. -/
def snapshotAnchor (anchors : List (ARAnchor K)) : Option (ARAnchor K) :=
  (anchors.filter ARAnchor.isSnapshot).head?

/-- No anchor of the list is a `SnapshotAnchor`. -/
def NoSnapshot (anchors : List (ARAnchor K)) : Prop := ∀ a ∈ anchors, a.isSnapshot = false

@[simp] theorem noSnapshot_nil : NoSnapshot ([] : List (ARAnchor K)) := by simp [NoSnapshot]

theorem NoSnapshot.append {l r : List (ARAnchor K)} (hl : NoSnapshot l) (hr : NoSnapshot r) :
    NoSnapshot (l ++ r) := by
  intro a ha
  exact (List.mem_append.1 ha).elim (hl a) (hr a)

/-- What `removeAll(where: { $0 is SnapshotAnchor })` leaves. -/
theorem noSnapshot_filter (l : List (ARAnchor K)) :
    NoSnapshot (l.filter fun a => !a.isSnapshot) := by
  intro a ha
  simpa using (List.mem_filter.1 ha).2

theorem NoSnapshot.filter_not {l : List (ARAnchor K)} (h : NoSnapshot l) :
    (l.filter fun a => !a.isSnapshot) = l :=
  List.filter_eq_self.2 fun a ha => by simp [h a ha]

theorem NoSnapshot.filter {l : List (ARAnchor K)} (h : NoSnapshot l) :
    l.filter ARAnchor.isSnapshot = [] :=
  List.filter_eq_nil_iff.2 fun a ha => by simp [h a ha]

/-- `NSKeyedArchiver` and `NSKeyedUnarchiver` on world maps. -/
structure Archiver (K : Type) [CommRing K] where
  archivedData : List (ARAnchor K) → Data
  unarchivedObject : Data → Option (List (ARAnchor K))
  roundTrip : ∀ anchors, unarchivedObject (archivedData anchors) = some anchors

/-- A change that ARKit makes to the anchors of a session by itself. -/
inductive TrackingChange (K : Type) [CommRing K]
  | add (name : Option String) (transform : Transform K)
  | move (i : ℕ) (transform : Transform K)
  | remove (i : ℕ)

def TrackingChange.apply (session : List (ARAnchor K)) : TrackingChange K → List (ARAnchor K)
  | .add name transform => session ++ [{ name := name, transform := transform }]
  | .move i transform => session.modify i fun a => { a with transform := transform }
  | .remove i => session.eraseIdx i

theorem TrackingChange.noSnapshot_apply {session : List (ARAnchor K)} (h : NoSnapshot session)
    (change : TrackingChange K) : NoSnapshot (change.apply session) := by
  cases change with
  | add name transform => exact h.append (by simp [NoSnapshot, ARAnchor.isSnapshot])
  | move i transform =>
    intro a ha
    obtain ⟨j, hj⟩ := List.mem_iff_getElem?.1 ha
    rw [apply, List.getElem?_modify] at hj
    obtain ⟨b, hb, rfl⟩ := Option.map_eq_some_iff.1 hj
    have hkept := h b (List.mem_of_getElem? hb)
    split <;> exact hkept
  | remove i => exact fun a ha => h a (List.mem_of_mem_eraseIdx ha)

/-- The map that `saveExperience` archives. -/
def CustomARView.savedMap (imageData : Data) (transform : Transform K) (view : CustomARView K) :
    List (ARAnchor K) :=
  view.session ++ [ARAnchor.snapshot imageData transform]

end Anchors

/-! ## The machine -/

inductive WorldMapEvent (K : Type) [CommRing K]
  /-- the completion of `saveExperience` of map `v`, with the image and transform of its frame -/
  | save (v : ℕ) (imageData : Data) (transform : Transform K)
  | load
  | track (v : ℕ) (change : TrackingChange K)
  | app (e : AppEvent K)

/-- The event brings an archive or a map of its own. -/
def AppEvent.bringsMap {K : Type} [CommRing K] : AppEvent K → Bool
  | .saveCompleted _ _ | .loadExperience _ => true
  | _ => false

namespace AppState

variable {K : Type} [Field K] [LinearOrder K]

/-- ARKit changes the anchors of the session of map `v`. -/
def track (v : ℕ) (change : TrackingChange K) (s : AppState K) : Option (AppState K) := do
  let view ← s.views[v]?
  let arView := { view.arView with session := change.apply view.arView.session }
  some { s with views := s.views.set v { view with arView := arView } }

def nextWorldMap (archiver : Archiver K) (s : AppState K) :
    WorldMapEvent K → Option (AppState K)
  | .save v imageData transform => do
    let view ← s.views[v]?
    let data := archiver.archivedData (view.arView.savedMap imageData transform)
    (app K).step s (.saveCompleted v data)
  | .load => do
    let view ← s.openView
    let data ← s.storedData view.arView.location.id
    let worldMap ← archiver.unarchivedObject data
    (app K).step s (.loadExperience worldMap)
  | .track v change => s.track v change
  | .app e => if e.bringsMap then none else (app K).step s e

end AppState

/-- The machine of the app with its world maps. -/
def worldMaps {K : Type} [Field K] [LinearOrder K] (archiver : Archiver K) :
    Machine (AppState K) (WorldMapEvent K) where
  step := AppState.nextWorldMap archiver

namespace AppState

variable {K : Type} [Field K] [LinearOrder K] {archiver : Archiver K} {s s' : AppState K}

theorem step_save {v : ℕ} {imageData : Data} {transform : Transform K}
    (h : (worldMaps archiver).step s (.save v imageData transform) = some s') :
    ∃ view, s.views[v]? = some view ∧ (app K).step s (.saveCompleted v
      (archiver.archivedData (view.arView.savedMap imageData transform))) = some s' := by
  obtain ⟨view, hview, h⟩ := Option.bind_eq_some_iff.1 h
  exact ⟨view, hview, h⟩

theorem step_load (h : (worldMaps archiver).step s .load = some s') :
    ∃ view data worldMap, s.openView = some view ∧
      s.storedData view.arView.location.id = some data ∧
      archiver.unarchivedObject data = some worldMap ∧
      (app K).step s (.loadExperience worldMap) = some s' := by
  obtain ⟨view, hview, h⟩ := Option.bind_eq_some_iff.1 h
  obtain ⟨data, hdata, h⟩ := Option.bind_eq_some_iff.1 h
  obtain ⟨worldMap, hworldMap, h⟩ := Option.bind_eq_some_iff.1 h
  exact ⟨view, data, worldMap, hview, hdata, hworldMap, h⟩

theorem step_track {v : ℕ} {change : TrackingChange K}
    (h : (worldMaps archiver).step s (.track v change) = some s') :
    ∃ view arView, s.views[v]? = some view ∧
      arView = { view.arView with session := change.apply view.arView.session } ∧
      s' = { s with views := s.views.set v { view with arView := arView } } := by
  obtain ⟨view, hview, h⟩ := Option.bind_eq_some_iff.1 h
  exact ⟨view, _, hview, rfl, (Option.some.inj h).symm⟩

theorem step_appEvent {e : AppEvent K} (h : (worldMaps archiver).step s (.app e) = some s') :
    e.bringsMap = false ∧ (app K).step s e = some s' := by
  simp only [worldMaps, nextWorldMap] at h
  split at h
  case isTrue => cases h
  case isFalse hmap => exact ⟨by simpa using hmap, h⟩

end AppState

end EyeMaps
