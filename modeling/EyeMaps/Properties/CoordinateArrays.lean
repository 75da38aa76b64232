import EyeMaps.Model.Catalogue

/-!
# The three coordinate arrays of a location

A route is stored as three parallel arrays, and `onAppear` indexes `Y` and `Z` by the indices of
`X`.  Every write of the arrays resets all three and refills them from one list of waypoints, also
when the timer of a closed map does it, and everything else copies locations as a whole: to the
file and back, to Firestore and back, through `AddView` and `removeDuplicates`.

`BalancedEverywhere` is the invariant, and `arrays_stay_balanced` follows it from a balanced file
and balanced remote documents through every run.
-/

namespace EyeMaps

open Framework

/-- A menu item leaves the arrays alone. -/
theorem ContentView.balanced_pressLocation {K : Type} (item : MenuItem) {l : Location K}
    (h : l.Balanced) : (ContentView.pressLocation item l).Balanced := h

namespace AddView

variable {K : Type}

theorem balanced_create [Zero K] (id : UUID) : (create id : AddView K).location.Balanced :=
  ⟨rfl, rfl⟩

theorem balanced_edit {view : AddView K} (h : view.location.Balanced) (field : FormField) :
    (view.edit field).location.Balanced := by
  cases field <;> exact h

theorem balanced_begun {view : AddView K} (h : view.location.Balanced)
    (userLatitude userLongitude : K) : (view.begun userLatitude userLongitude).Balanced := by
  unfold begun
  split <;> exact h

end AddView

namespace AppState

variable {K : Type}

/-- Every location in the list, in the file and among the published documents is balanced. -/
structure BalancedEverywhere [CommRing K] (s : AppState K) : Prop where
  locations : ∀ l ∈ s.locations, l.Balanced
  file : ∀ ls ∈ s.file, ∀ l ∈ ls, l.Balanced
  documents : ∀ p ∈ s.documents, p.2.Balanced

variable [Field K] [LinearOrder K] {s s' : AppState K} {e : AppEvent K}

/-- Every entry of the list stays balanced: what is written into it is balanced again. -/
theorem balanced_locations_step (h : ∀ l ∈ s.locations, l.Balanced)
    (hstep : (app K).step s e = some s') : ∀ l ∈ s'.locations, l.Balanced := by
  rcases step_locations hstep with
      hsame | ⟨_, view, l₀, -, -, hl₀, hset⟩ | ⟨item, view, l₀, -, -, hl₀, hset⟩
  · rwa [hsame]
  · rw [hset]
    intro l hl
    rcases List.mem_or_eq_of_mem_set hl with hold | rfl
    · exact h l hold
    · exact ContentView.balanced_timer _ _ _
  · rw [hset]
    intro l hl
    rcases List.mem_or_eq_of_mem_set hl with hold | rfl
    · exact h l hold
    · exact ContentView.balanced_pressLocation item (h l₀ (List.mem_of_getElem? hl₀))

end AppState

namespace Catalogue

variable {K : Type} [Field K] [LinearOrder K] {s s' : Catalogue K} {e : CatalogueEvent K}

/-- A fetch delivers locations that are among the remote documents or have been published. -/
def FetchesFrom (remote : Set (Location K)) (s : Catalogue K) : CatalogueEvent K → Prop
  | .nearbyLoaded userData =>
    ∀ l ∈ userData, l ∈ remote ∨ l ∈ s.appState.documents.map Prod.snd
  | _ => True

/-- The locations of the app and the one that `AddView` is about to add are balanced. -/
structure Balanced (s : Catalogue K) : Prop where
  everywhere : s.appState.BalancedEverywhere
  added : ∀ view ∈ s.addView, view.location.Balanced

/-- The location of `AddView` stays balanced. -/
theorem balanced_added_step (h : ∀ view ∈ s.addView, view.location.Balanced)
    (hstep : (catalogue K).step s e = some s') :
    ∀ view ∈ s'.addView, view.location.Balanced := by
  cases e with
  | selectAppear =>
    obtain ⟨-, rfl⟩ := step_selectAppear hstep
    exact h
  | tapRow i =>
    obtain ⟨-, -, rfl⟩ := step_tapRow hstep
    simp [addView]
  | tapAdd id =>
    obtain ⟨-, rfl⟩ := step_tapAdd hstep
    rintro _ ⟨⟩
    exact AddView.balanced_create id
  | edit field =>
    obtain ⟨view, hsheet, rfl⟩ := step_edit hstep
    rintro _ ⟨⟩
    exact AddView.balanced_edit (h view (addView_of_sheet hsheet)) field
  | beginMapping userLatitude userLongitude =>
    obtain ⟨view, _, hsheet, -, rfl, rfl⟩ := step_beginMapping hstep
    rintro _ ⟨⟩
    exact AddView.balanced_begun (h view (addView_of_sheet hsheet)) _ _
  | render written =>
    rcases step_render hstep with
        ⟨-, rfl⟩ | ⟨_, hsheet, -, rfl⟩ | ⟨view, _, _, _, hsheet, -, -, rfl⟩
    · exact h
    · simp [addView, hsheet]
    · rintro _ ⟨⟩
      exact h view (addView_of_sheet hsheet)
  | dismiss =>
    obtain ⟨_, -, -, rfl⟩ := step_dismiss hstep
    simp [addView]
  | nearbyLoaded userData =>
    obtain ⟨-, rfl⟩ := step_nearbyLoaded hstep
    exact h
  | app e =>
    obtain ⟨_, -, -, rfl⟩ := step_app hstep
    exact h

theorem balanced_step {remote : Set (Location K)} (hremote : ∀ l ∈ remote, l.Balanced)
    (h : s.Balanced) (hcond : FetchesFrom remote s e) (hstep : (catalogue K).step s e = some s') :
    s'.Balanced := by
  obtain ⟨⟨hlocations, hfile, hdocuments⟩, hadded⟩ := h
  have hlocations' : ∀ l ∈ s'.appState.locations, l.Balanced := by
    rcases step_list hstep with hsame | ⟨-, hload⟩ | ⟨_, _, view, -, hview, hadd⟩ |
        ⟨userData, rfl, hmerge⟩ | ⟨e', -, happ⟩
    · rwa [hsame]
    · rw [hload]
      cases hread : s.appState.file with
      | none => exact hlocations
      | some ls => exact hfile ls hread
    · rw [hadd]
      intro l hl
      rcases List.mem_append.1 hl with hold | hnew
      · exact hlocations l hold
      · rw [List.mem_singleton.1 hnew]
        exact AddView.balanced_begun (hadded view hview) _ _
    · rw [hmerge]
      intro l hl
      rcases List.mem_append.1 (mem_removeDuplicates.1 hl) with hold | hfetched
      · exact hlocations l hold
      · rcases hcond l hfetched with hl | hpublished
        · exact hremote l hl
        · obtain ⟨p, hp, rfl⟩ := List.mem_map.1 hpublished
          exact hdocuments p hp
    · exact AppState.balanced_locations_step hlocations happ
  refine ⟨⟨hlocations', ?_, ?_⟩, balanced_added_step hadded hstep⟩
  · intro ls hls
    rcases step_file hstep with hsame | hwritten
    · exact hfile ls (hsame ▸ hls)
    · rw [hwritten, Option.mem_some_iff] at hls
      exact hls ▸ hlocations'
  · intro p hp
    rcases step_documents hstep with hsame | ⟨key, l, hl, hpublished⟩
    · exact hdocuments p (hsame ▸ hp)
    · rw [hpublished] at hp
      rcases List.mem_append.1 hp with hold | hnew
      · exact hdocuments p hold
      · rw [List.mem_singleton.1 hnew]
        exact hlocations l hl

/-! ## The result -/

/-- From a balanced file and balanced remote documents, every location in the list, in the file
and among the published documents stays balanced in every run, and opening any entry of the list
never indexes out of range. -/
theorem arrays_stay_balanced {file : Option (List (Location K))} {storedData : UUID → Option Data}
    {remote : Set (Location K)} {es : List (CatalogueEvent K)}
    (hfile : ∀ ls ∈ file, ∀ l ∈ ls, l.Balanced) (hremote : ∀ l ∈ remote, l.Balanced)
    (hfetches : (catalogue K).Meets (FetchesFrom remote) (initial file storedData) es)
    (hrun : (catalogue K).run (initial file storedData) es = some s) :
    s.appState.BalancedEverywhere ∧
      ∀ l ∈ s.appState.locations, ∀ g, (ContentView.onAppear g l).isSome = true := by
  have hinit : (initial file storedData : Catalogue K).Balanced :=
    ⟨⟨by simp [initial, AppState.initial], hfile, by simp [initial, AppState.initial]⟩,
      by simp [initial, addView]⟩
  have hfinal : s.Balanced := Machine.invariant_of_meets (P := Balanced)
    (C := FetchesFrom remote) (fun _ _ _ => balanced_step hremote) hinit hfetches hrun
  refine ⟨hfinal.everywhere, fun l hl g => ?_⟩
  rw [ContentView.onAppear_eq_some (hfinal.everywhere.locations l hl)]
  rfl

/-- The hallway is loaded from the file, the entrance is fetched, and the hallway is opened. -/
def hallwayReopened : List (CatalogueEvent ℚ) :=
  [.selectAppear, .nearbyLoaded [entrance], .tapRow 0, .render true, .app (.contentTimer 0)]

theorem hallway_stays_balanced :
    ∃ s, (catalogue ℚ).run (initial (some [hallway]) fun _ => none) hallwayReopened = some s ∧
      s.appState.BalancedEverywhere ∧ s.appState.locations.length = 2 := by
  have hsome : ((catalogue ℚ).run (initial (some [hallway]) fun _ => none) hallwayReopened).map
      (fun s => s.appState.locations.length) = some 2 := by
    decide +kernel
  have hfetches : (catalogue ℚ).Meets (FetchesFrom {entrance})
      (initial (some [hallway]) fun _ => none) hallwayReopened :=
    fun _ _ => ⟨trivial, fun _ _ => ⟨fun l hl => .inl (List.mem_singleton.1 hl),
      fun _ _ => ⟨trivial, fun _ _ => ⟨trivial, fun _ _ => ⟨trivial, trivial⟩⟩⟩⟩⟩
  obtain ⟨s, hrun, hlen⟩ := Option.map_eq_some_iff.1 hsome
  have hkept := arrays_stay_balanced (by decide) (by rintro _ rfl; decide) hfetches hrun
  exact ⟨s, hrun, hkept.1, hlen⟩

end Catalogue

end EyeMaps
