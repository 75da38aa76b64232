import EyeMaps.Model.Catalogue

/-!
# The opened row stays the opened location

A row sheet addresses its location as `$locations[i3]`, while the completion of `loadNearby` merges
the fetched locations into the list and deletes repeated entries.  A deletion in front of the
opened row moves it down by one, and the sheet then reads and writes the next entry, or an index
that is out of range.

`tapped` observes the id of the row that was tapped.  `opened_row_kept` shows that the sheet keeps
to that entry in every run in which a completion that arrives under an open row finds the entries
up to this row pairwise different (`KeepsRow`); what the fetch brings does not matter then, since
merging keeps the first occurrences in place.
-/

namespace EyeMaps

open Framework

namespace Catalogue

variable {K : Type} [Field K] [LinearOrder K] {s s' : Catalogue K} {e : CatalogueEvent K}
  {c : Option UUID}

/-- The observer of the id of the tapped row. -/
def tapped (c : Option UUID) (s : Catalogue K) (e : CatalogueEvent K) (_ : Catalogue K) :
    Option UUID :=
  match e with
  | .tapRow i => s.appState.idAt i
  | _ => c

/-- While a row is open, `i3` is in range and denotes the entry with the tapped id, and the map on
the sheet reads and writes through `i3`. -/
def ShowsTappedRow (c : Option UUID) (s : Catalogue K) : Prop :=
  match s.sheet with
  | .config =>
    s.i3 < s.appState.locations.length ∧ s.appState.idAt s.i3 = c ∧
      ∀ b ∈ s.appState.openBindings, b = (s.i3, s.i3)
  | _ => True

instance (c : Option UUID) (s : Catalogue K) : Decidable (ShowsTappedRow c s) := by
  obtain ⟨_, _, _, ⟨⟩, _⟩ := s <;> dsimp only [ShowsTappedRow] <;> infer_instance

/-- A completion under an open row finds no repeated entry up to that row. -/
def KeepsRow (s : Catalogue K) : CatalogueEvent K → Prop
  | .nearbyLoaded _ =>
    match s.sheet with
    | .config => (s.appState.locations.take (s.i3 + 1)).Nodup
    | _ => True
  | _ => True

instance (s : Catalogue K) : ∀ e, Decidable (KeepsRow s e) := by
  rintro ⟨⟩
  case nearbyLoaded userData =>
    obtain ⟨_, _, _, ⟨⟩, _⟩ := s <;> dsimp only [KeepsRow] <;> infer_instance
  all_goals
    dsimp only [KeepsRow]
    infer_instance

omit [LinearOrder K] in
theorem showsTappedRow_of_ne (h : s.sheet ≠ .config) : ShowsTappedRow c s := by
  unfold ShowsTappedRow
  split
  · contradiction
  · trivial

omit [LinearOrder K] in
/-- The open row does not depend on more than the ids, `i3`, the sheet and the bindings. -/
theorem ShowsTappedRow.congr (h : ShowsTappedRow c s) (hsheet : s'.sheet = s.sheet)
    (hi3 : s'.i3 = s.i3) (hids : s'.appState.locations.map Location.id =
      s.appState.locations.map Location.id)
    (hbindings : ∀ b ∈ s'.appState.openBindings, b ∈ s.appState.openBindings ∨ b = (s.i3, s.i3)) :
    ShowsTappedRow c s' := by
  unfold ShowsTappedRow at h ⊢
  rw [hsheet]
  split at h
  case h_2 => trivial
  case h_1 =>
    obtain ⟨hlt, hid, hb⟩ := h
    have hlen : s'.appState.locations.length = s.appState.locations.length := by
      simpa using congrArg List.length hids
    rw [hi3]
    exact ⟨by omega, by rw [AppState.idAt_congr hids, hid],
      fun b hb' => (hbindings b hb').elim (hb b) id⟩

theorem showsTappedRow_step (hcovered : s.Covered) (h : ShowsTappedRow c s)
    (hcond : KeepsRow s e) (hstep : (catalogue K).step s e = some s') :
    ShowsTappedRow (tapped c s e s') s' := by
  cases e with
  | selectAppear =>
    obtain ⟨hsheet, rfl⟩ := step_selectAppear hstep
    exact showsTappedRow_of_ne (by simp [hsheet])
  | tapRow i =>
    obtain ⟨hsheet, hi, rfl⟩ := step_tapRow hstep
    exact ⟨hi, rfl, by simp [hcovered hsheet]⟩
  | tapAdd id =>
    obtain ⟨-, rfl⟩ := step_tapAdd hstep
    trivial
  | edit field =>
    obtain ⟨_, -, rfl⟩ := step_edit hstep
    trivial
  | beginMapping userLatitude userLongitude =>
    obtain ⟨_, _, -, -, -, rfl⟩ := step_beginMapping hstep
    trivial
  | render written =>
    rcases step_render hstep with ⟨-, rfl⟩ | ⟨_, hsheet, hshow, rfl⟩ | ⟨_, _, _, _, -, -, -, rfl⟩
    · exact h
    · obtain ⟨hlocations, -, -, hbindings⟩ := AppState.showContentView_eq_some hshow
      refine h.congr rfl rfl (by rw [hlocations]) fun b hb => .inr ?_
      obtain ⟨hbinding, htimer⟩ := hbindings b hb
      obtain ⟨-, -, hold⟩ : s.i3 < s.appState.locations.length ∧ s.appState.idAt s.i3 = c ∧
          ∀ b ∈ s.appState.openBindings, b = (s.i3, s.i3) := by
        simpa [ShowsTappedRow, hsheet] using h
      rcases htimer with htimer | ⟨b', hb', htimer⟩
      · exact Prod.ext hbinding htimer
      · exact Prod.ext hbinding (htimer.trans (congrArg Prod.snd (hold b' hb')))
    · trivial
  | dismiss =>
    obtain ⟨_, -, -, rfl⟩ := step_dismiss hstep
    trivial
  | nearbyLoaded userData =>
    obtain ⟨-, rfl⟩ := step_nearbyLoaded hstep
    cases hsheet : s.sheet with
    | closed => exact showsTappedRow_of_ne (by simp)
    | add view => exact showsTappedRow_of_ne (by simp)
    | config =>
      simp only [ShowsTappedRow, KeepsRow, hsheet] at h hcond ⊢
      obtain ⟨hlt, hid, hb⟩ := h
      have hkept := getElem?_removeDuplicates_append hcond hlt userData
      obtain ⟨hlt', -⟩ := List.getElem?_eq_some_iff.1 (hkept.trans (List.getElem?_eq_getElem hlt))
      exact ⟨hlt', (congrArg (Option.map Location.id) hkept).trans hid, hb⟩
  | app e =>
    obtain ⟨_, hundriven, happ, rfl⟩ := step_app hstep
    obtain ⟨-, hbindings, hids, -⟩ := undriven_frame hundriven happ
    exact h.congr rfl rfl hids fun b hb => .inl (hbindings ▸ hb)

/-! ## The result -/

/-- In every run whose completions find the open row behind pairwise different entries, the sheet
of a row keeps to the entry that was tapped. -/
theorem opened_row_kept {file : Option (List (Location K))} {storedData : UUID → Option Data}
    {es : List (CatalogueEvent K)}
    (hmeets : (catalogue K).Meets KeepsRow (initial file storedData) es)
    (hrun : ((catalogue K).observe tapped).run (none, initial file storedData) es =
      some (c, s)) : ShowsTappedRow c s := by
  have hinit : (initial file storedData).Covered ∧
      ShowsTappedRow none (initial file storedData) := ⟨fun _ => rfl, trivial⟩
  have hfinal : s.Covered ∧ ShowsTappedRow c s :=
    Machine.invariant_of_observed (P := fun c s => s.Covered ∧ ShowsTappedRow c s)
      (C := fun _ => KeepsRow)
      (fun _ _ _ _ h hcond hstep =>
        ⟨covered_step h.1 hstep, showsTappedRow_step h.1 h.2 hcond hstep⟩)
      hinit (Machine.along_observe_iff.2 hmeets) hrun
  exact hfinal.2

/-! ### A repeated entry in front of the row

The file holds the hallway twice and then the entrance.  The entrance is tapped, and the completion
removes one of the two. -/

def tapEntrance : List (CatalogueEvent ℚ) := [.selectAppear, .tapRow 2, .render true]

theorem opened_row_out_of_range :
    ¬ ∀ p ∈ ((catalogue ℚ).observe tapped).run
        (none, initial (some [hallway, hallway, entrance]) fun _ => none)
        (tapEntrance ++ [.nearbyLoaded []]), ShowsTappedRow p.1 p.2 := by
  decide +kernel

/-- The hallway in front of them is there only once: the entrance stays open over a fetch. -/
theorem entrance_stays_opened :
    ∃ s, ((catalogue ℚ).observe tapped).run
        (none, initial (some [hallway, { hallway with subtitle := "Stairs" }, entrance])
          fun _ => none)
        (tapEntrance ++ [.nearbyLoaded [hallway], .app (.press .doorAhead)]) =
          some (some entrance.id, s) ∧
      ShowsTappedRow (some entrance.id) s ∧ s.appState.opened = some 0 := by
  have hsome : (((catalogue ℚ).observe tapped).run
      (none, initial (some [hallway, { hallway with subtitle := "Stairs" }, entrance])
        fun _ => none)
      (tapEntrance ++ [.nearbyLoaded [hallway], .app (.press .doorAhead)])).map
        (fun p => (p.1, p.2.appState.opened)) = some (some entrance.id, some 0) := by
    decide +kernel
  obtain ⟨⟨c, s⟩, hrun, hend⟩ := Option.map_eq_some_iff.1 hsome
  obtain ⟨rfl, hopened⟩ := Prod.mk.inj hend
  exact ⟨s, hrun, opened_row_kept (by decide +kernel) hrun, hopened⟩

end Catalogue

end EyeMaps
