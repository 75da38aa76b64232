import Mathlib.Data.Rat.Encodable
import Mathlib.Logic.Encodable.Pi
import Mathlib.Logic.Equiv.List
import EyeMaps.Model.WorldMap

/-!
# Snapshots do not accumulate

A save appends a `SnapshotAnchor` to the archived copy of the map, a load removes it again before
the map enters the session, and nothing else creates one.  So no session ever contains a
`SnapshotAnchor` (`noSnapshots_step`), every archive stored by a save contains exactly one, that of
the latest save, and a load gives the session back the anchors it had at that save, in order.

`saves` observes, for each key of the store, the latest save under it, and `SavesKept` is the
invariant of a run next to it.  `snapshots_do_not_accumulate` is the result.
-/

namespace EyeMaps

open Framework

namespace CustomARView

variable {K : Type} [CommRing K]

theorem noSnapshot_addVirtualObjectAnchor {view : CustomARView K} (h : NoSnapshot view.session)
    (worldTransform : Transform K) :
    NoSnapshot (view.addVirtualObjectAnchor worldTransform).session :=
  NoSnapshot.append h (by simp [NoSnapshot, ARAnchor.isSnapshot])

theorem noSnapshot_servePlacement {view : CustomARView K} (h : NoSnapshot view.session)
    (r : Raycast K) (g : Globals K) : NoSnapshot (servePlacement r g view).2.session := by
  by_cases hplace : g.placeIntitialAnchor = true
  · cases r with
    | noQuery => simpa [servePlacement, hplace] using h
    | noResult => simpa [servePlacement, hplace] using h
    | hit worldTransform =>
      have hplaced := noSnapshot_addVirtualObjectAnchor h worldTransform
      simpa [servePlacement, hplace] using hplaced
  · simpa [servePlacement, hplace] using h

theorem noSnapshot_gestureTimer {view : CustomARView K} (h : NoSnapshot view.session)
    (r₁ r₂ : Raycast K) (g : Globals K) :
    NoSnapshot (gestureTimer r₁ r₂ g view).2.session := by
  have haudio : (serveAudio r₁ g view).2.session = view.session := by
    unfold serveAudio rayCastingMethod
    cases r₁ <;> cases view.virtualObjectAnchor <;> cases g.addAudio <;> rfl
  exact noSnapshot_servePlacement (by rwa [haudio]) r₂ _

end CustomARView

namespace AppState

variable {K : Type} [Field K] [LinearOrder K] {s s' : AppState K} {archiver : Archiver K}

/-! ## Sessions -/

/-- No session contains a `SnapshotAnchor`. -/
def NoSnapshots (s : AppState K) : Prop := ∀ view ∈ s.views, NoSnapshot view.arView.session

omit [LinearOrder K] in
/-- No event of the app brings a `SnapshotAnchor` into a session, not even the load of a map that
contains one. -/
theorem noSnapshot_arViewAfter {arView : CustomARView K} (h : NoSnapshot arView.session)
    (e : AppEvent K) (v : ℕ) : NoSnapshot (s.arViewAfter e v arView).session := by
  cases e with
  | gestureTimer w r₁ r₂ =>
    simp only [arViewAfter]
    split
    · exact CustomARView.noSnapshot_gestureTimer h r₁ r₂ s.globals
    · exact h
  | handleTap hit =>
    simp only [arViewAfter]
    split
    · cases hit with
      | none => exact h
      | some worldTransform => exact CustomARView.noSnapshot_addVirtualObjectAnchor h worldTransform
    · exact h
  | didAdd w anchors =>
    simp only [arViewAfter]
    split
    · rwa [NoSnapshot, (CustomARView.sessionDidAdd_frame _ _ _).2]
    · exact h
  | loadExperience worldMap =>
    simp only [arViewAfter]
    split
    · exact noSnapshot_filter worldMap
    · exact h
  | resetTracking =>
    simp only [arViewAfter]
    split
    · exact noSnapshot_nil
    · exact h
  | saveCompleted w data =>
    simp only [arViewAfter]
    split <;> exact h
  | _ => exact h

theorem noSnapshots_appStep {e : AppEvent K} (h : s.NoSnapshots)
    (hstep : (app K).step s e = some s') : s'.NoSnapshots := by
  intro view' hview'
  obtain ⟨v, hv⟩ := List.mem_iff_getElem?.1 hview'
  by_cases happear : ∃ k, e = .appear k
  · obtain ⟨k, rfl⟩ := happear
    obtain ⟨_, _, view, _, -, -, -, rfl, rfl⟩ := step_appear hstep
    rcases getElem?_append_cases hv with hold | ⟨-, hnew⟩
    · exact h view' (List.mem_of_getElem? hold)
    · rw [List.mem_singleton.1 hnew]
      exact noSnapshot_nil
  · have hafter := step_arView hstep (fun k he => happear ⟨k, he⟩) v
    rw [hv, Option.map_some, eq_comm, Option.map_eq_some_iff] at hafter
    obtain ⟨view, hview, hsession⟩ := hafter
    rw [← hsession]
    exact noSnapshot_arViewAfter (h view (List.mem_of_getElem? hview)) e v

/-- Neither does any event of the app with its world maps. -/
theorem noSnapshots_step {e : WorldMapEvent K} (h : s.NoSnapshots)
    (hstep : (worldMaps archiver).step s e = some s') : s'.NoSnapshots := by
  cases e with
  | save v imageData transform =>
    obtain ⟨_, -, happ⟩ := step_save hstep
    exact noSnapshots_appStep h happ
  | load =>
    obtain ⟨_, _, _, -, -, -, happ⟩ := step_load hstep
    exact noSnapshots_appStep h happ
  | track v change =>
    obtain ⟨view, _, hview, rfl, rfl⟩ := step_track hstep
    intro view' hview'
    rcases List.mem_or_eq_of_mem_set hview' with hold | rfl
    · exact h view' hold
    · exact change.noSnapshot_apply (h view (List.mem_of_getElem? hview))
  | app e => exact noSnapshots_appStep h (step_appEvent hstep).2

/-! ## Archives -/

end AppState

/-- The latest save under a key: the anchors of the session then, and the snapshot captured. -/
structure SavedMap (K : Type) [CommRing K] where
  anchors : List (ARAnchor K)
  snapshot : ARAnchor K

namespace AppState

variable {K : Type} [Field K] [LinearOrder K] {s s' : AppState K} {archiver : Archiver K}
  {c : UUID → Option (SavedMap K)} {storedData : UUID → Option Data}

/-- The observer of the latest save under each key of the store. -/
def saves (c : UUID → Option (SavedMap K)) (s : AppState K) (e : WorldMapEvent K)
    (_ : AppState K) : UUID → Option (SavedMap K) :=
  match e with
  | .save v imageData transform =>
    match s.views[v]? with
    | some view =>
      Function.update c view.arView.location.id
        (some ⟨view.arView.session, ARAnchor.snapshot imageData transform⟩)
    | none => c
  | _ => c

/-- The archive stored under key `id` is that of the latest save under it, which contains the
anchors of the session at that save and its snapshot; with no save so far it is what was stored at
launch. -/
def ArchiveKept (archiver : Archiver K) (storedData : UUID → Option Data)
    (c : UUID → Option (SavedMap K)) (s : AppState K) (id : UUID) : Prop :=
  match c id with
  | none => s.storedData id = storedData id
  | some saved =>
    ∃ data, s.storedData id = some data ∧
      archiver.unarchivedObject data = some (saved.anchors ++ [saved.snapshot]) ∧
      saved.snapshot.isSnapshot = true ∧ NoSnapshot saved.anchors

omit [LinearOrder K] in
/-- What is stored under a key depends on that key only. -/
theorem ArchiveKept.congr {c' : UUID → Option (SavedMap K)} {id : UUID}
    (h : ArchiveKept archiver storedData c s id) (hc : c' id = c id)
    (hstored : s'.storedData id = s.storedData id) :
    ArchiveKept archiver storedData c' s' id := by
  unfold ArchiveKept at h ⊢
  rwa [hc, hstored]

theorem archiveKept_step {e : WorldMapEvent K} (h : s.NoSnapshots)
    (hkept : ∀ id, ArchiveKept archiver storedData c s id)
    (hstep : (worldMaps archiver).step s e = some s') :
    ∀ id, ArchiveKept archiver storedData (saves c s e s') s' id := by
  intro id
  cases e with
  | save v imageData transform =>
    obtain ⟨view, hview, happ⟩ := step_save hstep
    obtain ⟨view', hview', rfl⟩ := step_saveCompleted happ
    obtain rfl : view = view' := Option.some.inj (hview.symm.trans hview')
    simp only [saves, hview]
    by_cases hkey : id = view.arView.location.id
    · subst hkey
      simp only [ArchiveKept, Function.update_self]
      exact ⟨_, rfl, archiver.roundTrip _, rfl, h view (List.mem_of_getElem? hview)⟩
    · exact (hkept id).congr (Function.update_of_ne hkey _ _) (Function.update_of_ne hkey _ _)
  | load =>
    obtain ⟨_, _, _, -, -, -, happ⟩ := step_load hstep
    rcases step_storedData happ with hsame | ⟨_, _, _, he, -⟩
    · exact (hkept id).congr rfl (by rw [hsame])
    · cases he
  | track v change =>
    obtain ⟨_, _, -, -, rfl⟩ := step_track hstep
    exact (hkept id).congr rfl rfl
  | app e =>
    obtain ⟨hmap, happ⟩ := step_appEvent hstep
    rcases step_storedData happ with hsame | ⟨_, _, _, rfl, -⟩
    · exact (hkept id).congr rfl (by rw [hsame])
    · cases hmap

omit [LinearOrder K] in
/-- An archive of a save contains exactly one `SnapshotAnchor`, the one captured at that save. -/
theorem snapshotAnchor_of_saved {saved : SavedMap K} (hsnapshot : saved.snapshot.isSnapshot = true)
    (h : NoSnapshot saved.anchors) :
    (saved.anchors ++ [saved.snapshot]).filter ARAnchor.isSnapshot = [saved.snapshot] ∧
      snapshotAnchor (saved.anchors ++ [saved.snapshot]) = some saved.snapshot := by
  have hfilter : (saved.anchors ++ [saved.snapshot]).filter ARAnchor.isSnapshot =
      [saved.snapshot] := by
    rw [List.filter_append, h.filter, List.nil_append, List.filter_singleton, hsnapshot]
    rfl
  exact ⟨hfilter, by rw [snapshotAnchor, hfilter]; rfl⟩

/-- A load gives the session of the map on the screen back the anchors it had at the latest save
under its key. -/
theorem load_restores {view : MapView K} {saved : SavedMap K}
    (hkept : ArchiveKept archiver storedData c s view.arView.location.id)
    (hview : s.openView = some view) (hsaved : c view.arView.location.id = some saved) :
    ∃ s', (worldMaps archiver).step s .load = some s' ∧
      s'.openView.map (fun view => view.arView.session) = some saved.anchors := by
  unfold ArchiveKept at hkept
  rw [hsaved] at hkept
  obtain ⟨data, hdata, hunarchived, hsnapshot, hnone⟩ := hkept
  obtain ⟨v, hv, hget⟩ := Option.bind_eq_some_iff.1 hview
  have hfilter : (saved.anchors ++ [saved.snapshot]).filter (fun a => !a.isSnapshot) =
      saved.anchors := by
    simp [List.filter_append, hnone.filter_not, hsnapshot]
  let arView := CustomARView.loadExperience (saved.anchors ++ [saved.snapshot]) view.arView
  refine ⟨{ s with views := s.views.set v { view with arView := arView } }, ?_, ?_⟩
  · simp [worldMaps, nextWorldMap, hview, hdata, hunarchived, app, next, loadExperience,
      onOpenARView, hv, hget, arView]
  · simp [openView, hv, getElem?_set_self' hget, arView, CustomARView.loadExperience, hfilter]

/-- A save followed by a load leaves the session of the map on the screen as it was. -/
theorem save_load_restores {v : ℕ} {view : MapView K} (h : s.NoSnapshots)
    (hkept : ∀ id, ArchiveKept archiver storedData c s id) (hv : s.opened = some v)
    (hview : s.views[v]? = some view) (imageData : Data) (transform : Transform K) :
    ∃ s', (worldMaps archiver).run s [.save v imageData transform, .load] = some s' ∧
      s'.openView.map (fun view => view.arView.session) = some view.arView.session := by
  let data := archiver.archivedData (view.arView.savedMap imageData transform)
  let view₁ : MapView K := { view with arView := CustomARView.saveExperience data view.arView }
  let s₁ : AppState K :=
    { s with
      storedData := Function.update s.storedData view.arView.location.id (some data)
      views := s.views.set v view₁
      mainQueue := s.mainQueue + 1 }
  have hsave : (worldMaps archiver).step s (.save v imageData transform) = some s₁ := by
    simp [worldMaps, nextWorldMap, hview, app, next, saveCompleted, s₁, view₁, data]
  have hopen₁ : s₁.openView = some view₁ :=
    Option.bind_eq_some_iff.2 ⟨v, hv, getElem?_set_self' hview⟩
  have hkept₁ := archiveKept_step h hkept hsave
  have hsaved : saves c s (.save v imageData transform) s₁ view₁.arView.location.id =
      some ⟨view.arView.session, ARAnchor.snapshot imageData transform⟩ := by
    have hkey : view₁.arView.location.id = view.arView.location.id := rfl
    simp [saves, hview, hkey]
  obtain ⟨s', hload, hsession⟩ := load_restores (hkept₁ _) hopen₁ hsaved
  exact ⟨s', by simp [hsave, hload], hsession⟩

/-! ## The result -/

variable {locations : List (Location K)}

/-- In every run: no session contains a snapshot, every archive of a save contains exactly the one
captured there, nothing else is ever stored, a load gives back the anchors of the latest save under
the key whatever has happened since, and a load right after a save gives the session as it was. -/
theorem snapshots_do_not_accumulate {es : List (WorldMapEvent K)}
    (hrun : ((worldMaps archiver).observe saves).run
      (fun _ => none, initial locations storedData) es = some (c, s)) :
    (∀ view ∈ s.views, ∀ a ∈ view.arView.session, a.isSnapshot = false) ∧
      (∀ id, ∀ saved ∈ c id, ∃ data worldMap, s.storedData id = some data ∧
        archiver.unarchivedObject data = some worldMap ∧
        worldMap.filter ARAnchor.isSnapshot = [saved.snapshot] ∧
        snapshotAnchor worldMap = some saved.snapshot) ∧
      (∀ id, c id = none → s.storedData id = storedData id) ∧
      (∀ view, s.openView = some view → ∀ saved ∈ c view.arView.location.id,
        ∃ s', (worldMaps archiver).step s .load = some s' ∧
          s'.openView.map (fun view => view.arView.session) = some saved.anchors) ∧
      ∀ v view imageData transform, s.opened = some v → s.views[v]? = some view →
        ∃ s', (worldMaps archiver).run s [.save v imageData transform, .load] = some s' ∧
          s'.openView.map (fun view => view.arView.session) =
            some (view.arView.session.filter fun a => !a.isSnapshot) := by
  have hinit : (initial locations storedData).NoSnapshots ∧
      ∀ id, ArchiveKept archiver storedData (fun _ => none) (initial locations storedData) id :=
    ⟨by simp [NoSnapshots, initial], fun _ => rfl⟩
  have hfinal : s.NoSnapshots ∧ ∀ id, ArchiveKept archiver storedData c s id :=
    Machine.invariant_of_observed_step (M := worldMaps archiver)
      (P := fun c s => s.NoSnapshots ∧ ∀ id, ArchiveKept archiver storedData c s id)
      (fun _ _ _ _ h hstep => ⟨noSnapshots_step h.1 hstep, archiveKept_step h.1 h.2 hstep⟩)
      hinit hrun
  obtain ⟨hnone, hkept⟩ := hfinal
  refine ⟨hnone, ?_, ?_, fun view hview saved hsaved => load_restores (hkept _) hview hsaved, ?_⟩
  · intro id saved hsaved
    have hid := hkept id
    unfold ArchiveKept at hid
    rw [hsaved] at hid
    obtain ⟨data, hdata, hunarchived, hsnapshot, hanchors⟩ := hid
    obtain ⟨hone, hlatest⟩ := snapshotAnchor_of_saved hsnapshot hanchors
    exact ⟨data, _, hdata, hunarchived, hone, hlatest⟩
  · intro id hid
    have hstored := hkept id
    unfold ArchiveKept at hstored
    rwa [hid] at hstored
  · intro v view imageData transform hv hview
    have hsession : NoSnapshot view.arView.session := hnone view (List.mem_of_getElem? hview)
    rw [hsession.filter_not]
    exact save_load_restores hnone hkept hv hview imageData transform

end AppState

/-! ### An archiver

Over coordinates that can be enumerated, maps can be archived as byte strings: the code of the
list of anchors, in unary. -/

section Unary

open Matrix

variable {K : Type} [CommRing K] [DecidableEq K] [Encodable K]

/-- The contents of an anchor as a tuple. -/
def ARAnchor.contents (anchor : ARAnchor K) :
    Option (List ℕ) × (Fin 3 → Fin 3 → K) × (Fin 3 → K) × Option (List ℕ) :=
  (anchor.name.map fun name => name.toList.map Char.toNat, anchor.transform.linear,
    anchor.transform.translation, anchor.imageData.map fun data => data.map UInt8.toNat)

def ARAnchor.ofContents
    (p : Option (List ℕ) × (Fin 3 → Fin 3 → K) × (Fin 3 → K) × Option (List ℕ)) :
    Option (ARAnchor K) :=
  if h : (Matrix.of p.2.1)ᵀ * Matrix.of p.2.1 = 1 then
    some
      { name := p.1.map fun codes => String.ofList (codes.map Char.ofNat)
        transform := ⟨Matrix.of p.2.1, p.2.2.1, h⟩
        imageData := p.2.2.2.map fun codes => codes.map UInt8.ofNat }
  else none

omit [Encodable K] in
theorem ARAnchor.ofContents_contents (anchor : ARAnchor K) :
    ARAnchor.ofContents anchor.contents = some anchor := by
  obtain ⟨name, ⟨linear, translation, horthogonal⟩, imageData⟩ := anchor
  have hname : ((name.map fun n => n.toList.map Char.toNat).map fun codes =>
      String.ofList (codes.map Char.ofNat)) = name := by
    simp [Function.comp_def]
  have hdata : ((imageData.map fun data => data.map UInt8.toNat).map fun codes =>
      codes.map UInt8.ofNat) = imageData := by
    simp [Function.comp_def]
  simp only [contents, ofContents, hname, hdata]
  exact dif_pos horthogonal

instance : Encodable (ARAnchor K) :=
  Encodable.ofLeftInjection ARAnchor.contents ARAnchor.ofContents ARAnchor.ofContents_contents

def Archiver.unary : Archiver K where
  archivedData anchors := List.replicate (Encodable.encode anchors) 0
  unarchivedObject data := Encodable.decode data.length
  roundTrip anchors := by simp

end Unary

namespace AppState

/-- A plane is found, an anchor placed, the map saved, and another plane found: a load takes the
second plane out again, a save and a load keep it. -/
def savedOnce : List (WorldMapEvent ℚ) :=
  [.app (.appear 0), .track 0 (.add none 1), .app (.handleTap (some 1)), .save 0 [7] 1,
    .track 0 (.add none 1)]

theorem saved_map_restored :
    ∃ c s, ((worldMaps (Archiver.unary (K := ℚ))).observe saves).run
        (fun _ => none, initial [entrance] fun _ => none) savedOnce = some (c, s) ∧
      (∃ data worldMap, s.storedData 2 = some data ∧
        (Archiver.unary (K := ℚ)).unarchivedObject data = some worldMap ∧
        snapshotAnchor worldMap = some (ARAnchor.snapshot [7] 1)) ∧
      (∃ s', (worldMaps Archiver.unary).step s .load = some s' ∧
        s'.openView.map (fun view => view.arView.session.map ARAnchor.name) =
          some [none, some CustomARView.virtualObjectAnchorName]) ∧
      ∃ s', (worldMaps Archiver.unary).run s [.save 0 [9] 1, .load] = some s' ∧
        s'.openView.map (fun view => view.arView.session.map ARAnchor.name) =
          some [none, some CustomARView.virtualObjectAnchorName, none] := by
  obtain ⟨c, s, hrun, ⟨saved, hsaved, hsnapshot, hanchors⟩, hopened, view, hview, hkey, hnames⟩ :
      ∃ c s, ((worldMaps (Archiver.unary (K := ℚ))).observe saves).run
          (fun _ => none, initial [entrance] fun _ => none) savedOnce = some (c, s) ∧
        (∃ saved ∈ c 2, saved.snapshot = ARAnchor.snapshot [7] 1 ∧
          saved.anchors.map ARAnchor.name =
            [none, some CustomARView.virtualObjectAnchorName]) ∧ s.opened = some 0 ∧
        ∃ view, s.views[0]? = some view ∧ view.arView.location.id = 2 ∧
          (view.arView.session.filter fun a => !a.isSnapshot).map ARAnchor.name =
            [none, some CustomARView.virtualObjectAnchorName, none] :=
    ⟨_, _, rfl, ⟨_, rfl, rfl, rfl⟩, rfl, _, rfl, rfl, rfl⟩
  obtain ⟨-, hstored, -, hloaded, hrestored⟩ := snapshots_do_not_accumulate hrun
  obtain ⟨data, worldMap, hdata, hunarchived, -, hlatest⟩ := hstored 2 saved hsaved
  obtain ⟨s', hs', hsession⟩ := hrestored 0 view [9] 1 hopened hview
  have hopen : s.openView = some view := Option.bind_eq_some_iff.2 ⟨0, hopened, hview⟩
  obtain ⟨t, ht, hreloaded⟩ := hloaded view hopen saved (hkey ▸ hsaved)
  have hreloaded := congrArg (Option.map fun session => session.map ARAnchor.name) hreloaded
  refine ⟨c, s, hrun, ⟨data, worldMap, hdata, hunarchived, hsnapshot ▸ hlatest⟩,
    ⟨t, ht, by simpa [Function.comp_def, hanchors] using hreloaded⟩, s', hs', ?_⟩
  have hmap := congrArg (Option.map fun session => session.map ARAnchor.name) hsession
  simpa [Function.comp_def, hnames] using hmap

end AppState

end EyeMaps
