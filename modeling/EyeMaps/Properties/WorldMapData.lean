import EyeMaps.Model.App

/-!
# What becomes of a saved world map

`saveExperience` stores the archive in `UserDefaults` and in the AR view's own copy of the
location; nothing hands it to the bound entry of the list.  The 0.1 s timer then writes
`worldMapData ?? Data()` into that entry, and `worldMapData` never holds anything but `Data()`.

`expecting` observes, for each entry of the list, the archive it should carry: that of the latest
completed save, or what it was loaded with.  `worldMapData_kept_iff` determines the runs in which
every entry always carries it, and with it every file and document written: those in which each
save brings the archive the entry already has and each timer fires on an entry that has none.
-/

namespace EyeMaps

open Framework

namespace AppState

variable {K : Type} [Field K] [LinearOrder K] {s s' : AppState K} {e : AppEvent K}
  {archives : List Data}

/-- The observer of the archive each entry of the list should carry. -/
def expecting (archives : List Data) (s : AppState K) (e : AppEvent K) (_ : AppState K) :
    List Data :=
  match e with
  | .saveCompleted v data =>
    match s.views[v]? with
    | some view => archives.set view.binding data
    | none => archives
  | _ => archives

/-- What event `e` wrote to the file or to Firestore carries the archives it should. -/
def WrittenKept (archives : List Data) (s : AppState K) : AppEvent K → Prop
  | .writeFile => ∀ l ∈ s.file, l.map Location.worldData = archives
  | .publish _ k => ∀ p ∈ s.documents.getLast?, archives[k]? = some p.2.worldData
  | _ => True

instance (archives : List Data) (s : AppState K) : ∀ e, Decidable (WrittenKept archives s e) := by
  rintro ⟨⟩ <;> dsimp only [WrittenKept] <;> infer_instance

/-- After event `e`, every entry of the list carries the archive it should, and so does what `e`
wrote. -/
def WorldMapDataKept (archives : List Data) (s : AppState K) (e : AppEvent K) : Prop :=
  s.locations.map Location.worldData = archives ∧ WrittenKept archives s e

instance (archives : List Data) (s : AppState K) (e : AppEvent K) :
    Decidable (WorldMapDataKept archives s e) :=
  inferInstanceAs (Decidable (_ ∧ _))

/-- A completed save brings the archive that the entry already has, and a timer fires on an entry
that has none. -/
def SavesNothingNew (s : AppState K) : AppEvent K → Prop
  | .saveCompleted v data =>
    ∀ view ∈ s.views[v]?, ∀ d ∈ (s.locations.map Location.worldData)[view.binding]?, d = data
  | .contentTimer v =>
    ∀ view ∈ s.views[v]?, ∀ d ∈ (s.locations.map Location.worldData)[view.timerBinding]?, d = []
  | _ => True

/-! ## The invariant -/

/-- The list carries what it should, and no view has a `worldMapData` to write. -/
structure CarriesExpected (archives : List Data) (s : AppState K) : Prop where
  carried : s.locations.map Location.worldData = archives
  empty : ∀ w ∈ s.views.map MapView.worldMapData, w = some []

/-- No event but a fire of a 0.1 s timer changes the archive of an entry. -/
theorem step_worldData (hstep : (app K).step s e = some s') :
    s'.locations.map Location.worldData = s.locations.map Location.worldData ∨
      ∃ v view, e = .contentTimer v ∧ s.views[v]? = some view ∧
        s'.locations.map Location.worldData =
          (s.locations.map Location.worldData).set view.timerBinding
            (view.worldMapData.getD []) := by
  rcases step_locations hstep with
      hsame | ⟨v, view, l, rfl, hview, -, hset⟩ | ⟨_, _, _, -, -, hl, hset⟩
  · rw [hsame]
    exact .inl rfl
  · exact .inr ⟨v, view, rfl, hview, by simp [hset, List.map_set]⟩
  · rw [hset]
    exact .inl (map_set_eq_map hl rfl)

/-- No view ever gets a `worldMapData` other than `Data()`. -/
theorem worldMapData_step (h : ∀ w ∈ s.views.map MapView.worldMapData, w = some [])
    (hstep : (app K).step s e = some s') :
    ∀ w ∈ s'.views.map MapView.worldMapData, w = some [] := by
  cases e with
  | appear k =>
    obtain ⟨_, _, view, _, -, -, -, rfl, rfl⟩ := step_appear hstep
    intro w hw
    rw [List.map_append, List.mem_append] at hw
    exact hw.elim (h w) List.mem_singleton.1
  | disappear =>
    obtain ⟨v, view, _, -, hview, rfl⟩ := step_disappear hstep
    intro w hw
    rw [List.map_set] at hw
    exact (List.mem_or_eq_of_mem_set hw).elim (h w) id
  | contentTimer v =>
    obtain ⟨view, l, hview, hl, rfl⟩ := step_contentTimer hstep
    have hmap : (s.views.set v { view with showInitial := !s.globals.placed }).map
        MapView.worldMapData = s.views.map MapView.worldMapData := map_set_eq_map hview rfl
    intro w hw
    exact h w (hmap ▸ hw)
  | press item =>
    obtain ⟨_, _, -, -, rfl⟩ := step_press hstep
    exact h
  | gestureTimer v r₁ r₂ =>
    obtain ⟨view, hview, rfl⟩ := step_gestureTimer hstep
    have hmap (arView : CustomARView K) : (s.views.set v { view with arView := arView }).map
        MapView.worldMapData = s.views.map MapView.worldMapData := map_set_eq_map hview rfl
    intro w hw
    exact h w (hmap _ ▸ hw)
  | _ => rwa [(step_quiet hstep rfl).worldMapData]

omit [LinearOrder K] in
/-- What a fire of the 0.1 s timer writes over the archive of the entry it is bound to. -/
theorem CarriesExpected.getD (h : CarriesExpected archives s) {v : ℕ} {view : MapView K}
    (hview : s.views[v]? = some view) : view.worldMapData.getD [] = [] := by
  have hmem : view.worldMapData ∈ s.views.map MapView.worldMapData :=
    List.mem_map_of_mem (List.mem_of_getElem? hview)
  rw [h.empty _ hmem]
  rfl

/-- The list carries what it should after an event exactly when the event saves nothing new. -/
theorem carried_step_iff (h : CarriesExpected archives s) (hstep : (app K).step s e = some s') :
    s'.locations.map Location.worldData = expecting archives s e s' ↔ SavesNothingNew s e := by
  rcases step_worldData hstep with hkept | ⟨v, view, rfl, hview, hwritten⟩
  · rw [hkept, h.carried]
    cases e with
    | saveCompleted v data =>
      simp only [expecting, SavesNothingNew, h.carried]
      cases hview : s.views[v]? with
      | none => simp
      | some view => simpa using eq_comm.trans set_eq_self_iff
    | contentTimer v =>
      obtain ⟨view, l, hview, hl, rfl⟩ := step_contentTimer hstep
      have hself : (s.locations.map Location.worldData).set view.timerBinding [] =
          s.locations.map Location.worldData := by
        simpa [List.map_set, h.getD hview] using hkept
      simpa [expecting, SavesNothingNew, hview] using set_eq_self_iff.1 hself
    | _ => simp [expecting, SavesNothingNew]
  · rw [hwritten, h.getD hview, h.carried]
    simp [expecting, SavesNothingNew, hview, h.carried, set_eq_self_iff]

/-- A file or document written from a list that carries what it should does so too. -/
theorem worldMapDataKept_iff (hstep : (app K).step s e = some s') :
    WorldMapDataKept archives s' e ↔ s'.locations.map Location.worldData = archives := by
  refine and_iff_left_of_imp fun hcarried => ?_
  cases e with
  | writeFile =>
    obtain rfl := step_writeFile hstep
    rintro _ ⟨⟩
    exact hcarried
  | publish key k =>
    obtain ⟨l, hl, rfl⟩ := step_publish hstep
    simp [WrittenKept, ← hcarried, hl]
  | _ => trivial

/-! ## The result -/

/-- Every entry of the list, and all that is written from it, always carries the archive of the
latest completed save, or the one it was loaded with, exactly if every save brings the archive the
entry has and every timer fires on an entry that has none. -/
theorem worldMapData_kept_iff (locations : List (Location K)) (storedData : UUID → Option Data)
    (es : List (AppEvent K)) :
    ((app K).observe expecting).Along (fun _ e p' => WorldMapDataKept p'.1 p'.2 e)
        (locations.map Location.worldData, initial locations storedData) es ↔
      (app K).Meets SavesNothingNew (initial locations storedData) es := by
  have hinit : CarriesExpected (locations.map Location.worldData)
      (initial locations storedData) := ⟨rfl, by simp [initial]⟩
  have hstep : ∀ p e p', CarriesExpected p.1 p.2 →
      ((app K).observe expecting).step p e = some p' →
      (WorldMapDataKept p'.1 p'.2 e ↔ SavesNothingNew p.2 e) ∧
        (SavesNothingNew p.2 e → CarriesExpected p'.1 p'.2) := by
    intro p e p' h hobserved
    obtain ⟨happ, hc⟩ := Machine.observe_step_eq_some.1 hobserved
    have hiff := carried_step_iff h happ
    rw [hc]
    exact ⟨(worldMapDataKept_iff happ).trans hiff,
      fun hnew => ⟨hiff.2 hnew, worldMapData_step h.empty happ⟩⟩
  calc
    _ ↔ ((app K).observe expecting).Meets (fun p e => SavesNothingNew p.2 e)
          (locations.map Location.worldData, initial locations storedData) es :=
      Machine.along_iff_meets hstep hinit
    _ ↔ (app K).Meets SavesNothingNew (initial locations storedData) es :=
      Machine.along_observe_iff (D := fun s e _ => SavesNothingNew s e)

/-- The entrance is opened and a save with a non-empty archive completes. -/
theorem saved_archive_lost :
    ¬ ((app ℚ).observe expecting).Along (fun _ e p' => WorldMapDataKept p'.1 p'.2 e)
        ([entrance].map Location.worldData, initial [entrance] fun _ => none)
        [.appear 0, .saveCompleted 0 [1]] := by
  decide +kernel

end AppState

end EyeMaps
