import EyeMaps.Model.Catalogue

/-!
# A new map is recorded and published under its own id

`AddView` opens its `ContentView` when the shared list changes, whoever changes it, and addresses
its own entry as the last one of the list, at each rendering and once more when it publishes.  The
completion of `loadNearby` appends to the list and deletes from it, and the 0.1 s timers of maps
closed before write to it; either can open the map before "Begin Mapping", and a completion moves
the last entry away from the one that the new map was given.

`begun` observes whether "Begin Mapping" was pressed in this `AddView`.  `own_map_recorded` shows
that a run records and publishes every new map as its own if, while an `AddView` is on the screen,
each completion brings only entries that the list has and finds none repeated, and no timer changes
an entry before "Begin Mapping" (`LeavesAddView`).  In between, when the new entry is in the list
and its map not yet shown, only the new entry must not be a repetition.
-/

namespace EyeMaps

open Framework

namespace Catalogue

variable {K : Type} [Field K] [LinearOrder K] {s s' : Catalogue K} {e : CatalogueEvent K}
  {c : Bool} {view : AddView K}

/-- The observer of "Begin Mapping". -/
def begun (c : Bool) (_ : Catalogue K) (e : CatalogueEvent K) (_ : Catalogue K) : Bool :=
  match e with
  | .tapAdd _ => false
  | .beginMapping _ _ => true
  | _ => c

/-- `AddView` shows its map only after "Begin Mapping", the map reads and writes an entry with the
id of the new location, and every document published so far is a location with the id it is stored
under. -/
def RecordsOwnMap (c : Bool) (s : Catalogue K) : Prop :=
  (∀ view ∈ s.addView, (s.appState.opened.isSome = true → c = true) ∧
    ∀ b ∈ s.appState.openBindings, s.appState.idAt b.1 = some view.location.id ∧
      s.appState.idAt b.2 = some view.location.id) ∧
  ∀ p ∈ s.appState.documents, p.2.id = p.1

instance (c : Bool) (s : Catalogue K) : Decidable (RecordsOwnMap c s) :=
  inferInstanceAs (Decidable ((∀ view ∈ _, _ ∧ ∀ b ∈ _, _) ∧ ∀ p ∈ _, _))

/-- While an `AddView` is on the screen, a completion brings nothing new and has nothing to remove
(between "Begin Mapping" and the showing of the map: not the last entry), and before "Begin Mapping"
no timer changes the list. -/
def LeavesAddView (c : Bool) (s : Catalogue K) : CatalogueEvent K → Prop
  | .nearbyLoaded userData =>
    ∀ view ∈ s.addView, view.rendered.isSome = true →
      (∀ l ∈ userData, l ∈ s.appState.locations) ∧
        if c = true ∧ s.appState.opened = none then
          ∀ l ∈ s.appState.locations.getLast?, l ∉ s.appState.locations.dropLast
        else s.appState.locations.Nodup
  | .app (.contentTimer v) =>
    ∀ view ∈ s.addView, view.rendered.isSome = true → c = false →
      ∀ map ∈ s.appState.views[v]?, ∀ l ∈ s.appState.locations[map.timerBinding]?,
        ContentView.timer s.appState.globals map.worldMapData l = l
  | _ => True

instance (c : Bool) (s : Catalogue K) : ∀ e, Decidable (LeavesAddView c s e) := by
  rintro ⟨⟩
  case app e => obtain ⟨⟩ := e <;> dsimp only [LeavesAddView] <;> infer_instance
  all_goals
    dsimp only [LeavesAddView]
    infer_instance

/-! ## The invariant -/

/-- Before "Begin Mapping" the view waits for a change of the list it was rendered with; after it,
the last entry and the entries its map is bound to have the id of its location. -/
structure OwnSession (c : Bool) (s : AppState K) (view : AddView K) : Prop where
  waiting : c = false →
    view.next = false ∧ s.opened = none ∧ ∀ value ∈ view.rendered, value = s.locations
  rendered : c = true → view.rendered.isSome = true
  last : c = true → s.idAt s.lastIndex = some view.location.id
  bound : ∀ b ∈ s.openBindings,
    s.idAt b.1 = some view.location.id ∧ s.idAt b.2 = some view.location.id

structure OwnSessionKept (c : Bool) (s : Catalogue K) : Prop where
  covered : s.Covered
  session : ∀ view ∈ s.addView, OwnSession c s.appState view
  published : ∀ p ∈ s.appState.documents, p.2.id = p.1

omit [LinearOrder K] in
theorem OwnSessionKept.recordsOwnMap (h : OwnSessionKept c s) : RecordsOwnMap c s := by
  refine ⟨fun view hview => ⟨fun hopen => ?_, (h.session view hview).bound⟩, h.published⟩
  by_contra hc
  obtain ⟨-, hclosed, -⟩ := (h.session view hview).waiting (by simpa using hc)
  simp [hclosed] at hopen

omit [LinearOrder K] in
/-- Editing the form. -/
theorem OwnSession.edit {s : AppState K} (h : OwnSession c s view) (field : FormField) :
    OwnSession c s (view.edit field) := by
  refine ⟨?_, ?_, ?_, ?_⟩
  · simpa using h.waiting
  · simpa using h.rendered
  · simpa using h.last
  · simpa using h.bound

omit [LinearOrder K] in
/-- "Begin Mapping" makes the entry of the new location the last one. -/
theorem OwnSession.beginMapping {s : AppState K} {location : Location K}
    (h : OwnSession c s view) (hrendered : view.rendered.isSome = true)
    (hid : location.id = view.location.id) :
    OwnSession true { s with locations := s.locations ++ [location] }
      { view with location := location } := by
  have hkept {k : ℕ} (hk : s.idAt k = some view.location.id) :
      ((s.locations ++ [location])[k]?).map Location.id = some location.id := by
    obtain ⟨l, hl, hlid⟩ := Option.map_eq_some_iff.1 hk
    obtain ⟨hlt, -⟩ := List.getElem?_eq_some_iff.1 hl
    rw [List.getElem?_append_left hlt, hl, Option.map_some, hlid, hid]
  refine ⟨nofun, fun _ => hrendered, fun _ => ?_, fun b hb => ?_⟩
  · simp [AppState.idAt, AppState.lastIndex_eq]
  · exact ⟨hkept (h.bound b hb).1, hkept (h.bound b hb).2⟩

/-- Rendering `AddView`. -/
theorem OwnSession.render {s t : AppState K} {changed : Bool}
    {file : Option (List (Location K))} (h : OwnSession c s view)
    (hrender : s.renderNext view = some t)
    (hchanged : changed = view.rendered.any fun value => decide (value ≠ t.locations)) :
    OwnSession c { t with file := file }
      { view with next := view.next || changed, rendered := some t.locations } := by
  unfold AppState.renderNext at hrender
  split at hrender
  case isFalse hnext =>
    obtain rfl := Option.some.inj hrender
    refine ⟨fun hc => ?_, fun _ => rfl, h.last, h.bound⟩
    obtain ⟨hnext, hclosed, hvalue⟩ := h.waiting hc
    have hsame : changed = false := by
      rw [hchanged, Option.any_eq_false]
      intro value hmem
      simp [hvalue value hmem]
    exact ⟨by simp [hnext, hsame], hclosed, by simp⟩
  case isTrue hnext =>
    have hc : c = true := by
      by_contra hc
      simp [(h.waiting (by simpa using hc)).1] at hnext
    obtain ⟨hlocations, -, -, hbindings⟩ := AppState.showContentView_eq_some hrender
    have hids (k : ℕ) : t.idAt k = s.idAt k := AppState.idAt_congr (by rw [hlocations]) k
    refine ⟨fun hfalse => by simp [hc] at hfalse, fun _ => rfl, fun hc => ?_, fun b hb => ?_⟩
    · change t.idAt t.lastIndex = _
      rw [hids, AppState.lastIndex_eq, hlocations, ← AppState.lastIndex_eq]
      exact h.last hc
    · change t.idAt b.1 = _ ∧ t.idAt b.2 = _
      obtain ⟨hbinding, htimer⟩ := hbindings b hb
      rw [hids, hids, hbinding]
      refine ⟨h.last hc, ?_⟩
      rcases htimer with htimer | ⟨b', hb', htimer⟩
      · rw [htimer]
        exact h.last hc
      · rw [htimer]
        exact (h.bound b' hb').2

/-- A completion between "Begin Mapping" and the showing of the map keeps the new entry last. -/
theorem OwnSession.merge {s : AppState K} {userData : List (Location K)}
    (h : OwnSession c s view) (hc : c = true) (hclosed : s.opened = none)
    (hnew : ∀ l ∈ s.locations.getLast?, l ∉ s.locations.dropLast)
    (hsubset : userData ⊆ s.locations) :
    OwnSession c { s with locations := removeDuplicates (s.locations ++ userData) } view := by
  obtain ⟨l, hl, hid⟩ := Option.map_eq_some_iff.1 (h.last hc)
  rw [AppState.lastIndex_eq, ← List.getLast?_eq_getElem?] at hl
  obtain ⟨earlier, hlocations⟩ := List.getLast?_eq_some_iff.1 hl
  have hmerge : removeDuplicates (s.locations ++ userData) = removeDuplicates earlier ++ [l] := by
    have hnotMem : l ∉ earlier := by simpa [hlocations] using hnew l hl
    rw [hlocations] at hsubset ⊢
    exact removeDuplicates_append_singleton hnotMem hsubset
  refine ⟨fun hfalse => by simp [hc] at hfalse, h.rendered, fun _ => ?_, ?_⟩
  · simp [AppState.idAt, AppState.lastIndex_eq, hmerge, hid]
  · have hbindings : ({ s with
        locations := removeDuplicates (s.locations ++ userData) } : AppState K).openBindings =
          none := AppState.openBindings_of_closed hclosed
    simp [hbindings]

omit [LinearOrder K] in
/-- A step that keeps the ids and what is on the screen, and the list too before "Begin Mapping". -/
theorem OwnSession.congr {s t : AppState K} (h : OwnSession c s view)
    (hopened : t.opened = s.opened) (hbindings : t.openBindings = s.openBindings)
    (hids : t.locations.map Location.id = s.locations.map Location.id)
    (hlist : c = false → view.rendered.isSome = true → t.locations = s.locations) :
    OwnSession c t view := by
  have hlen : t.locations.length = s.locations.length := by
    simpa using congrArg List.length hids
  refine ⟨fun hc => ?_, h.rendered, fun hc => ?_, ?_⟩
  · obtain ⟨hnext, hclosed, hvalue⟩ := h.waiting hc
    refine ⟨hnext, hopened.trans hclosed, fun value hmem => ?_⟩
    rw [hvalue value hmem, hlist hc (Option.isSome_iff_exists.2 ⟨value, hmem⟩)]
  · rw [AppState.idAt_congr hids, AppState.lastIndex_eq, hlen, ← AppState.lastIndex_eq]
    exact h.last hc
  · rw [hbindings]
    simpa only [AppState.idAt_congr hids] using h.bound

omit [LinearOrder K] in
/-- With no `AddView` on the screen afterwards and nothing published, there is nothing to keep. -/
theorem OwnSessionKept.of_addView_eq_none (h : OwnSessionKept c s) {c' : Bool}
    (hcovered : s'.Covered) (hadd : s'.addView = none)
    (hdocuments : s'.appState.documents = s.appState.documents) : OwnSessionKept c' s' :=
  ⟨hcovered, by simp [hadd], hdocuments ▸ h.published⟩

/-- A completion that leaves the list to `AddView`. -/
theorem OwnSession.nearbyLoaded {userData : List (Location K)} (h : OwnSession c s.appState view)
    (hview : view ∈ s.addView) (hcond : LeavesAddView c s (.nearbyLoaded userData)) :
    OwnSession c
      { s.appState with locations := removeDuplicates (s.appState.locations ++ userData) } view := by
  cases hrendered : view.rendered with
  | none =>
    -- the map is not open yet, and the first rendering is still to come
    have hc : c = false := by
      by_contra hc
      simpa [hrendered] using h.rendered (by simpa using hc)
    obtain ⟨hnext, hclosed, -⟩ := h.waiting hc
    exact ⟨fun _ => ⟨hnext, hclosed, by simp [hrendered]⟩, by simp [hc], by simp [hc],
      by simp [hclosed]⟩
  | some value =>
    obtain ⟨hsubset, hkeep⟩ := hcond view hview (by simp [hrendered])
    by_cases hwaiting : c = true ∧ s.appState.opened = none
    · rw [if_pos hwaiting] at hkeep
      exact h.merge hwaiting.1 hwaiting.2 hkeep hsubset
    · rw [if_neg hwaiting] at hkeep
      have hsame : removeDuplicates (s.appState.locations ++ userData) = s.appState.locations :=
        removeDuplicates_append_of_subset hkeep hsubset
      rw [hsame]
      exact h

omit [LinearOrder K] in
/-- While the map of an `AddView` is open, the last entry is the one of its location. -/
theorem OwnSessionKept.id_of_last {l : Location K} (h : OwnSessionKept c s)
    (hview : view ∈ s.addView) (hopen : s.appState.opened.isSome = true)
    (hl : s.appState.locations[s.appState.lastIndex]? = some l) : l.id = view.location.id := by
  have hbegun : c = true := (h.recordsOwnMap.1 view hview).1 hopen
  have hlast := (h.session view hview).last hbegun
  simpa [AppState.idAt, hl] using hlast

theorem ownSessionKept_step (h : OwnSessionKept c s) (hcond : LeavesAddView c s e)
    (hstep : (catalogue K).step s e = some s') : OwnSessionKept (begun c s e s') s' := by
  have hcovered : s'.Covered := covered_step h.covered hstep
  cases e with
  | selectAppear =>
    obtain ⟨hsheet, rfl⟩ := step_selectAppear hstep
    exact h.of_addView_eq_none hcovered (by simp [addView, hsheet]) rfl
  | tapRow i =>
    obtain ⟨-, -, rfl⟩ := step_tapRow hstep
    exact h.of_addView_eq_none hcovered rfl rfl
  | tapAdd id =>
    obtain ⟨hsheet, rfl⟩ := step_tapAdd hstep
    refine ⟨hcovered, ?_, h.published⟩
    rintro _ ⟨⟩
    have hclosed : s.appState.opened = none := h.covered hsheet
    exact ⟨fun _ => ⟨rfl, hclosed, by simp [AddView.create]⟩, by simp [begun], by simp [begun],
      by simp [hclosed]⟩
  | edit field =>
    obtain ⟨view, hsheet, rfl⟩ := step_edit hstep
    refine ⟨hcovered, ?_, h.published⟩
    rintro _ ⟨⟩
    exact (h.session view (addView_of_sheet hsheet)).edit field
  | beginMapping userLatitude userLongitude =>
    obtain ⟨view, _, hsheet, hrendered, rfl, rfl⟩ := step_beginMapping hstep
    refine ⟨hcovered, ?_, h.published⟩
    rintro _ ⟨⟩
    exact (h.session view (addView_of_sheet hsheet)).beginMapping hrendered (by simp)
  | render written =>
    rcases step_render hstep with
        ⟨-, rfl⟩ | ⟨_, hsheet, hshow, rfl⟩
        | ⟨view, t, changed, file, hsheet, hrender, hchanged, rfl⟩
    · exact h
    · exact h.of_addView_eq_none hcovered (by simp [addView, hsheet])
        (AppState.showContentView_lists hshow).2.2
    · refine ⟨hcovered, ?_, ?_⟩
      · rintro _ ⟨⟩
        exact (h.session view (addView_of_sheet hsheet)).render hrender hchanged
      · change ∀ p ∈ t.documents, p.2.id = p.1
        rw [(AppState.renderNext_lists hrender).2.2]
        exact h.published
  | dismiss =>
    obtain ⟨t, -, hclose, rfl⟩ := step_dismiss hstep
    obtain ⟨-, hsame | ⟨view, l, hsheet, hopen, hl, hpublished⟩⟩ := closeContentView_eq_some hclose
    · exact h.of_addView_eq_none hcovered rfl hsame
    · refine ⟨hcovered, by simp [addView], ?_⟩
      change ∀ p ∈ t.documents, p.2.id = p.1
      have hid := h.id_of_last (addView_of_sheet hsheet) hopen hl
      intro p hp
      rw [hpublished, List.mem_append, List.mem_singleton] at hp
      rcases hp with hold | rfl
      · exact h.published p hold
      · exact hid
  | nearbyLoaded userData =>
    obtain ⟨-, rfl⟩ := step_nearbyLoaded hstep
    exact ⟨hcovered, fun view hview => (h.session view hview).nearbyLoaded hview hcond, h.published⟩
  | app e =>
    obtain ⟨t, hundriven, happ, rfl⟩ := step_app hstep
    obtain ⟨hopened, hbindings, hids, hdocuments⟩ := undriven_frame hundriven happ
    refine ⟨hcovered, fun view hview => ?_, hdocuments ▸ h.published⟩
    have hsession : OwnSession c s.appState view := h.session view hview
    refine hsession.congr hopened hbindings hids fun hc hrendered => ?_
    rcases AppState.step_locations happ with
        hsame | ⟨v, map, l, rfl, hmap, hl, hset⟩ | ⟨_, map, _, -, hopen, -, -⟩
    · exact hsame
    · rw [hset, set_eq_self_iff]
      intro b hb
      rw [hcond view hview hrendered hc map hmap l hl]
      exact Option.some.inj (hb.symm.trans hl)
    · simp [AppState.openView, (hsession.waiting hc).2.1] at hopen

/-! ## The result -/

/-- In every run that leaves the list to `AddView` while one is on the screen, each new map is
recorded and published as its own. -/
theorem own_map_recorded {file : Option (List (Location K))} {storedData : UUID → Option Data}
    {es : List (CatalogueEvent K)}
    (hmeets : ((catalogue K).observe begun).Meets (fun p e => LeavesAddView p.1 p.2 e)
      (false, initial file storedData) es)
    (hrun : ((catalogue K).observe begun).run (false, initial file storedData) es =
      some (c, s)) : RecordsOwnMap c s := by
  have hinit : OwnSessionKept false (initial file storedData) :=
    ⟨fun _ => rfl, by simp [initial, addView], by simp [initial, AppState.initial]⟩
  have hfinal : OwnSessionKept c s :=
    Machine.invariant_of_observed (fun _ _ _ _ => ownSessionKept_step) hinit hmeets hrun
  exact hfinal.recordsOwnMap

/-! ### A completion after "Begin Mapping"

A public map is begun over an empty list.  When the entrance arrives from `loadNearby` before the
map is shown, the map is the entrance's, and so is the document published on closing. -/

def beginNewMap : List (CatalogueEvent ℚ) :=
  [.selectAppear, .tapAdd 7, .render true, .edit (.title "Library"), .beginMapping 1 2]

def closeNewMap : List (CatalogueEvent ℚ) := [.render true, .render true, .dismiss]

theorem fetched_map_published :
    ¬ ∀ p ∈ ((catalogue ℚ).observe begun).run (false, initial none fun _ => none)
        (beginNewMap ++ [.nearbyLoaded [entrance]] ++ closeNewMap), RecordsOwnMap p.1 p.2 := by
  decide +kernel

/-- The completion comes first: the new map is published under its own id. -/
theorem new_map_published :
    ∃ c s, ((catalogue ℚ).observe begun).run (false, initial none fun _ => none)
        ([.selectAppear, .nearbyLoaded [entrance]] ++ beginNewMap.tail ++ closeNewMap) =
          some (c, s) ∧
      RecordsOwnMap c s ∧ s.appState.documents.map Prod.fst = [7] := by
  have hsome : (((catalogue ℚ).observe begun).run (false, initial none fun _ => none)
      ([.selectAppear, .nearbyLoaded [entrance]] ++ beginNewMap.tail ++ closeNewMap)).map
        (fun p => p.2.appState.documents.map Prod.fst) = some [7] := by
    decide +kernel
  obtain ⟨⟨c, s⟩, hrun, hdocuments⟩ := Option.map_eq_some_iff.1 hsome
  exact ⟨c, s, hrun, own_map_recorded (by decide +kernel) hrun, hdocuments⟩

end Catalogue

end EyeMaps
