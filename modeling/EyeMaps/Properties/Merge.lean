import EyeMaps.Model.Catalogue

/-!
# Merging the fetched locations into the list

The completion of `loadNearby` appends what it was delivered and deletes repeated entries.  Since
`removeDuplicates` compares whole locations, and keeps the first of equal ones, no id and no
delivered location is lost, whatever else writes the list in the meantime (`no_location_lost`).

For the same reason a location is listed twice when its copies differ in some field.
`listed_once_iff` determines the loads after which every id is listed once.
-/

namespace EyeMaps

open Framework

namespace Catalogue

variable {K : Type} [Field K] [LinearOrder K] {s s' : Catalogue K} {e : CatalogueEvent K}

/-! ## Nothing is lost -/

/-- The ids present in the list. -/
def ids (s : Catalogue K) : Set UUID := {id | ∃ l ∈ s.appState.locations, l.id = id}

/-- After a completion every location that the fetch delivered is in the list. -/
def DeliveredPresent (s' : Catalogue K) : CatalogueEvent K → Prop
  | .nearbyLoaded userData => userData ⊆ s'.appState.locations
  | _ => True

/-- Only a load can make an id disappear. -/
theorem ids_step (he : e ≠ .selectAppear) (hstep : (catalogue K).step s e = some s') :
    s.ids ⊆ s'.ids := by
  rintro id ⟨l, hl, rfl⟩
  rcases step_list hstep with hsame | ⟨rfl, -⟩ | ⟨_, _, view, -, -, hadd⟩ |
      ⟨userData, -, hmerge⟩ | ⟨e', -, happ⟩
  · exact ⟨l, by rwa [hsame], rfl⟩
  · exact absurd rfl he
  · exact ⟨l, by rw [hadd]; exact List.mem_append_left _ hl, rfl⟩
  · refine ⟨l, ?_, rfl⟩
    rw [hmerge, mem_removeDuplicates]
    exact List.mem_append_left _ hl
  · have hids := AppState.step_ids happ
    have hmem : l.id ∈ s'.appState.locations.map Location.id := by
      rw [hids]
      exact List.mem_map_of_mem hl
    exact List.mem_map.1 hmem

theorem deliveredPresent_step (hstep : (catalogue K).step s e = some s') :
    DeliveredPresent s' e := by
  cases e with
  | nearbyLoaded userData =>
    obtain ⟨-, rfl⟩ := step_nearbyLoaded hstep
    intro l hl
    rw [mem_removeDuplicates]
    exact List.mem_append_right _ hl
  | _ => trivial

/-- In every run between two loads, from any state, no id disappears from the list, and after
each completion every location the fetch delivered is there. -/
theorem no_location_lost {es : List (CatalogueEvent K)} (hes : ∀ e ∈ es, e ≠ .selectAppear)
    (hrun : (catalogue K).run s es = some s') :
    s.ids ⊆ s'.ids ∧ (catalogue K).Along (fun _ e s' => DeliveredPresent s' e) s es := by
  have hmeets : (catalogue K).Meets (fun _ e => e ≠ .selectAppear) s es :=
    Machine.meets_of_forall_mem hes
  constructor
  · exact Machine.invariant_of_meets (P := fun t => s.ids ⊆ t.ids)
      (fun _ _ _ h he hstep => h.trans (ids_step he hstep)) subset_rfl hmeets hrun
  · exact Machine.along_of_meets (P := fun _ => True)
      (fun _ _ _ _ _ hstep => ⟨trivial, deliveredPresent_step hstep⟩) trivial hmeets

/-- The entrance is fetched while a map is being added. -/
def fetchedWhileAdding : List (CatalogueEvent ℚ) :=
  [.tapAdd 7, .render true, .beginMapping 1 1, .nearbyLoaded [entrance], .render true]

theorem hallway_not_lost :
    ∃ s s', (catalogue ℚ).run (initial (some [hallway]) fun _ => none) [.selectAppear] = some s ∧
      (catalogue ℚ).run s fetchedWhileAdding = some s' ∧ s.ids ⊆ s'.ids ∧
      (catalogue ℚ).Along (fun _ e s' => DeliveredPresent s' e) s fetchedWhileAdding ∧
      s'.appState.locations.map Location.id = [1, 7, 2] := by
  have hsome : (((catalogue ℚ).run (initial (some [hallway]) fun _ => none)
      [.selectAppear]).bind fun s => ((catalogue ℚ).run s fetchedWhileAdding).map
        fun s' => s'.appState.locations.map Location.id) = some [1, 7, 2] := by
    decide +kernel
  obtain ⟨s, hload, hrest⟩ := Option.bind_eq_some_iff.1 hsome
  obtain ⟨s', hrun, hids⟩ := Option.map_eq_some_iff.1 hrest
  have hlost := no_location_lost (by simp [fetchedWhileAdding]) hrun
  exact ⟨s, s', hload, hrun, hlost.1, hlost.2, hids⟩

/-! ## Listed once -/

section Keys

variable {α β : Type*} [BEq α] [LawfulBEq α] {l r : List α} {f : α → β}

/-- Merging two lists that each have pairwise different keys leaves the keys pairwise different
exactly if elements of the two with the same key are the same. -/
theorem nodup_keys_removeDuplicates_iff (hl : (l.map f).Nodup) (hr : (r.map f).Nodup) :
    ((removeDuplicates (l ++ r)).map f).Nodup ↔ ∀ a ∈ l, ∀ b ∈ r, f a = f b → a = b := by
  rw [List.nodup_map_iff_inj_on (nodup_removeDuplicates _)]
  simp only [mem_removeDuplicates, List.mem_append]
  constructor
  · intro h a ha b hb hab
    exact h a (.inl ha) b (.inr hb) hab
  · rintro h a (ha | ha) b (hb | hb) hab
    · exact List.inj_on_of_nodup_map hl ha hb hab
    · exact h a ha b hb hab
    · exact (h b hb a ha hab.symm).symm
    · exact List.inj_on_of_nodup_map hr ha hb hab

end Keys

/-- A list with pairwise different ids is loaded and a result with pairwise different ids fetched:
afterwards the ids are pairwise different exactly if no location has differing copies in the
two. -/
theorem listed_once_iff {L R : List (Location K)} (storedData : UUID → Option Data)
    (hL : (L.map Location.id).Nodup) (hR : (R.map Location.id).Nodup) :
    ∃ s, (catalogue K).run (initial (some L) storedData) [.selectAppear, .nearbyLoaded R] =
        some s ∧
      ((s.appState.locations.map Location.id).Nodup ↔
        ∀ l ∈ L, ∀ r ∈ R, l.id = r.id → l = r) :=
  ⟨_, rfl, nodup_keys_removeDuplicates_iff hL hR⟩

/-- The hallway after a direction has been added to it. -/
def editedHallway : Location ℚ := ContentView.pressLocation .turnLeft hallway

theorem edited_map_listed_twice :
    ¬ ∀ s ∈ (catalogue ℚ).run (initial (some [editedHallway]) fun _ => none)
        [.selectAppear, .nearbyLoaded [hallway]],
      (s.appState.locations.map Location.id).Nodup := by
  decide +kernel

/-- The unedited hallway is listed once. -/
theorem unedited_map_listed_once :
    ∃ s, (catalogue ℚ).run (initial (some [hallway]) fun _ => none)
        [.selectAppear, .nearbyLoaded [hallway, entrance]] = some s ∧
      (s.appState.locations.map Location.id).Nodup := by
  obtain ⟨s, hrun, hiff⟩ := listed_once_iff (L := [hallway]) (R := [hallway, entrance])
    (fun _ => none) (by decide) (by decide)
  exact ⟨s, hrun, hiff.2 (by decide)⟩

end Catalogue

end EyeMaps
