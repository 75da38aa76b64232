import EyeMaps.Properties.Provenance

/-!
# What is on file stays on file

The list of a device is gone when the app is killed, and replaced by the file whenever `SelectView`
appears; what a device keeps is `locations.txt`.  It is only ever written with the list of a
`SelectView` that has loaded the file before, so that no card that was once written to the file of a
device is ever missing there again, through any launches and whatever the other devices do
(`filed_of_run`).
-/

namespace EyeMaps

open Framework

variable {K : Type} [Field K] [LinearOrder K]

namespace Catalogue

variable {s s' : Catalogue K} {e : CatalogueEvent K} {c : Card K}

/-- An event other than loading the file loses no card of the list. -/
theorem listed_subset_of_step (he : e ≠ .selectAppear) (h : (catalogue K).step s e = some s') :
    s.listed ⊆ s'.listed := by
  intro c hc
  show c ∈ s'.appState.locations.map Location.card
  have hc' : c ∈ s.appState.locations.map Location.card := hc
  rcases step_list h with hsame | ⟨rfl, -⟩ | ⟨_, _, view, -, -, hadd⟩ | ⟨userData, -, hmerge⟩ |
      ⟨e', -, happ⟩
  · rwa [hsame]
  · exact absurd rfl he
  · rw [hadd, List.map_append]
    exact List.mem_append_left _ hc'
  · obtain ⟨l, hl, rfl⟩ := List.mem_map.1 hc'
    rw [hmerge]
    exact List.mem_map_of_mem (mem_removeDuplicates.2 (List.mem_append_left _ hl))
  · rwa [AppState.step_cards happ]

/-- Sheets are over a `SelectView` that has appeared, and once it has the list holds what the file
holds. -/
structure Backed (s : Catalogue K) : Prop where
  ready : s.sheet ≠ .closed → s.ready = true
  filed : s.ready = true → s.filed ⊆ s.listed

/-- The file is as it was, or the list of a `SelectView` that has appeared. -/
theorem file_of_step (h : s.Backed) (htakes : s.takes e = true)
    (hstep : (catalogue K).step s e = some s') :
    s'.appState.file = s.appState.file ∨
      s.ready = true ∧ e ≠ .selectAppear ∧ s'.appState.file = some s'.appState.locations := by
  rcases step_file hstep with hsame | hwritten
  · exact .inl hsame
  · cases e with
    | selectAppear =>
      obtain ⟨-, rfl⟩ := step_selectAppear hstep
      exact .inl rfl
    | tapRow i =>
      obtain ⟨-, -, rfl⟩ := step_tapRow hstep
      exact .inl rfl
    | tapAdd id =>
      obtain ⟨-, rfl⟩ := step_tapAdd hstep
      exact .inl rfl
    | edit field =>
      obtain ⟨_, -, rfl⟩ := step_edit hstep
      exact .inl rfl
    | beginMapping userLatitude userLongitude =>
      obtain ⟨_, _, -, -, -, rfl⟩ := step_beginMapping hstep
      exact .inl rfl
    | nearbyLoaded userData => cases htakes
    | dismiss =>
      obtain ⟨appState, hsheet, -, rfl⟩ := step_dismiss hstep
      exact .inr ⟨h.ready hsheet, nofun, hwritten⟩
    | render written =>
      rcases step_render hstep with ⟨-, rfl⟩ | ⟨_, hsheet, -, -⟩ | ⟨_, _, _, _, hsheet, -⟩
      · exact .inl rfl
      · exact .inr ⟨h.ready (by simp [hsheet]), nofun, hwritten⟩
      · exact .inr ⟨h.ready (by simp [hsheet]), nofun, hwritten⟩
    | app e' =>
      obtain ⟨_, -, happ, rfl⟩ := step_app hstep
      rcases AppState.step_stores happ with ⟨-, hsame, -⟩ | ⟨_, _, _, -, -, -, hsame, -⟩ |
          ⟨rfl, -⟩ | ⟨_, _, _, -, -, hpublished⟩
      · exact .inl hsame
      · exact .inl hsame
      · exact .inr ⟨htakes, nofun, hwritten⟩
      · exact .inl (by rw [hpublished])

/-- Rows and the plus button are there only when `SelectView` is ready. -/
theorem ready_of_tap (h : (catalogue K).step s e = some s')
    (htap : (∃ i, e = .tapRow i) ∨ ∃ id, e = .tapAdd id) : s.ready = true := by
  rcases htap with ⟨i, rfl⟩ | ⟨id, rfl⟩
  · simp only [catalogue, next, tapRow] at h
    split at h
    case h_2 => cases h
    case h_1 =>
      split at h
      case isFalse => cases h
      case isTrue hcond => exact (Bool.and_eq_true _ _ ▸ hcond).1
  · simp only [catalogue, next, tapAdd] at h
    split at h
    case h_2 => cases h
    case h_1 =>
      split at h
      case isFalse => cases h
      case isTrue hready => exact hready

/-- `SelectView` is ready after it has appeared, and no sheet opens before. -/
theorem ready_of_step (h : s.sheet ≠ .closed → s.ready = true)
    (hstep : (catalogue K).step s e = some s') :
    (s'.sheet ≠ .closed → s'.ready = true) ∧ (e ≠ .selectAppear → s'.ready = s.ready) := by
  cases e with
  | selectAppear =>
    obtain ⟨-, rfl⟩ := step_selectAppear hstep
    exact ⟨fun _ => rfl, fun he => absurd rfl he⟩
  | tapRow i =>
    have hready : s.ready = true := ready_of_tap hstep (.inl ⟨i, rfl⟩)
    obtain ⟨-, -, rfl⟩ := step_tapRow hstep
    exact ⟨fun _ => hready, fun _ => rfl⟩
  | tapAdd id =>
    have hready : s.ready = true := ready_of_tap hstep (.inr ⟨id, rfl⟩)
    obtain ⟨-, rfl⟩ := step_tapAdd hstep
    exact ⟨fun _ => hready, fun _ => rfl⟩
  | edit field =>
    obtain ⟨view, hsheet, rfl⟩ := step_edit hstep
    exact ⟨fun _ => h (by simp [hsheet]), fun _ => rfl⟩
  | beginMapping userLatitude userLongitude =>
    obtain ⟨view, _, hsheet, -, -, rfl⟩ := step_beginMapping hstep
    exact ⟨fun _ => h (by simp [hsheet]), fun _ => rfl⟩
  | nearbyLoaded userData =>
    obtain ⟨-, rfl⟩ := step_nearbyLoaded hstep
    exact ⟨h, fun _ => rfl⟩
  | dismiss =>
    obtain ⟨_, -, -, rfl⟩ := step_dismiss hstep
    exact ⟨fun hclosed => absurd rfl hclosed, fun _ => rfl⟩
  | render written =>
    rcases step_render hstep with ⟨-, rfl⟩ | ⟨_, hsheet, -, rfl⟩ | ⟨_, _, _, _, hsheet, -, -, rfl⟩
    · exact ⟨h, fun _ => rfl⟩
    · exact ⟨fun _ => h (by simp [hsheet]), fun _ => rfl⟩
    · exact ⟨fun _ => h (by simp [hsheet]), fun _ => rfl⟩
  | app e' =>
    obtain ⟨_, -, -, rfl⟩ := step_app hstep
    exact ⟨h, fun _ => rfl⟩

omit [LinearOrder K] in
theorem filed_of_file_eq (h : s'.appState.file = s.appState.file) : s'.filed = s.filed := by
  rw [filed, filed, h]

omit [LinearOrder K] in
theorem filed_of_file_eq_list (h : s'.appState.file = some s'.appState.locations) :
    s'.filed = s'.listed := by
  rw [filed, h]
  rfl

/-- The file loses no card by an event of the device, and the list still holds what it holds. -/
theorem backed_act {documents : List (DocumentSnapshot K)} (h : s.Backed)
    (hact : s.act e = some (s', documents)) : s'.Backed ∧ s.filed ⊆ s'.filed := by
  obtain ⟨htakes, hstep, -⟩ := act_eq_some hact
  obtain ⟨hready', hready⟩ := ready_of_step h.ready hstep
  rcases file_of_step h htakes hstep with hsame | ⟨hwasReady, he, hwritten⟩
  · have hfiled : s'.filed = s.filed := filed_of_file_eq hsame
    refine ⟨⟨hready', fun hs' => ?_⟩, hfiled.ge⟩
    rw [hfiled]
    by_cases he : e = .selectAppear
    · subst he
      obtain ⟨-, rfl⟩ := step_selectAppear hstep
      -- the list is the one of the file, if there is one
      intro c hc
      have hc' : c ∈ (s.appState.file.getD []).map Location.card := hc
      show c ∈ (s.appState.file.getD s.appState.locations).map Location.card
      cases hfile : s.appState.file with
      | none =>
        rw [hfile] at hc'
        cases hc'
      | some locations =>
        rw [hfile] at hc'
        exact hc'
    · exact (h.filed ((hready he).symm.trans hs')).trans (listed_subset_of_step he hstep)
  · have hfiled : s'.filed = s'.listed := filed_of_file_eq_list hwritten
    refine ⟨⟨hready', fun _ => hfiled.le⟩, ?_⟩
    rw [hfiled]
    exact (h.filed hwasReady).trans (listed_subset_of_step he hstep)

/-- A fetch leaves the file alone and only adds to the list. -/
theorem backed_receive {runtime : Runtime K} {documents : List (DocumentSnapshot K)} (h : s.Backed)
    (hreceive : s.receive runtime documents = some s') : s'.Backed ∧ s.filed ⊆ s'.filed := by
  obtain ⟨results, -, -, rfl⟩ := receive_eq_some hreceive
  refine ⟨⟨h.ready, fun hready => (h.filed hready).trans fun c hc => ?_⟩, subset_rfl⟩
  obtain ⟨l, hl, rfl⟩ := List.mem_map.1 hc
  exact List.mem_map_of_mem (mem_removeDuplicates.2 (List.mem_append_left _ hl))

omit [LinearOrder K] in
theorem backed_initial (file : Option (List (Location K))) (storedData : UUID → Option Data) :
    (initial file storedData).Backed :=
  ⟨fun hsheet => absurd rfl hsheet, nofun⟩

end Catalogue

/-! ## The fleet -/

variable {runtime : Runtime K} {ι : Type}

/-- The file of no device loses a card that it has in `start`. -/
theorem keeps_files (runtime : Runtime K) (start : ι → Catalogue K) :
    (device runtime).Keeps (fun _ _ _ => True) (fun _ => True)
      (fun i s => s.Backed ∧ (start i).filed ⊆ s.filed) fun _ => True where
  act := by
    rintro i s e s' documents ⟨hs, hstart⟩ - hact
    obtain ⟨hs', hfiled⟩ := Catalogue.backed_act hs hact
    exact ⟨⟨hs', hstart.trans hfiled⟩, fun _ _ => trivial⟩
  receive := by
    rintro i s documents s' ⟨hs, hstart⟩ - hreceive
    obtain ⟨hs', hfiled⟩ := Catalogue.backed_receive hs hreceive
    exact ⟨hs', hstart.trans hfiled⟩
  restart := by
    rintro i s - ⟨-, hstart⟩
    exact ⟨Catalogue.backed_initial _ _, hstart⟩

variable [DecidableEq ι]

end EyeMaps
