import EyeMaps.Model.App

/-!
# The location list and the sheets over it

`SelectView` owns the list of locations and presents one sheet at a time over its rows: `AddView`
for a new map, or the `ContentView` of a tapped row.  `catalogue` is the machine of the list, the
sheets and everything that runs below them: it takes each event of `app` except opening, closing
and publishing, which the sheets drive, and adds the events that change the shape of the list, the
loading of `locations.txt`, "Begin Mapping" and the completion of `loadNearby`.

Bindings are positional.  A row sheet shows `$locations[i3]`; `AddView` shows
`$locations[locations.count - 1]`, evaluated anew at each rendering, so that the open view is bound
again while the timer it has started keeps its first binding.

Rendering is an event of its own: SwiftUI decides when it happens, and `onChange(of: locations)`
runs when the list differs from the one of the rendering before.  Tapping and presenting are
therefore separate steps, and so are the change of the list and what `AddView` makes of it.  The
sheet covers the rows, and `SelectView` appears only with no sheet over it.
-/

namespace EyeMaps

open Framework

/-! ## `removeDuplicates` -/

section RemoveDuplicates

variable {α : Type*} [BEq α]

/-- The body of the loop of `removeDuplicates`. -/
def appendNew (result : List α) (value : α) : List α :=
  if result.contains value = false then result ++ [value] else result

/-- `Array.removeDuplicates`. -/
def removeDuplicates (l : List α) : List α := l.foldl appendNew []

/-- No two elements of the list are equal. -/
def Distinct (l : List α) : Prop := l.Pairwise fun a b => (a == b) = false

variable {l r : List α} {a b : α}

theorem appendNew_of_contains (h : l.contains a = true) : appendNew l a = l := by
  rw [appendNew, h, if_neg (by simp)]

theorem appendNew_of_not_contains (h : l.contains a = false) : appendNew l a = l ++ [a] := by
  rw [appendNew, if_pos h]

theorem prefix_appendNew (l : List α) (a : α) : l <+: appendNew l a := by
  unfold appendNew
  split
  · exact List.prefix_append l [a]
  · exact List.prefix_rfl

/-- The loop only ever appends. -/
theorem prefix_foldl_appendNew (r l : List α) : l <+: r.foldl appendNew l := by
  induction r generalizing l with
  | nil => exact List.prefix_rfl
  | cons a r ih => exact (prefix_appendNew l a).trans (ih (appendNew l a))

theorem removeDuplicates_append (l r : List α) :
    removeDuplicates (l ++ r) = r.foldl appendNew (removeDuplicates l) :=
  List.foldl_append

/-- Elements already there are skipped. -/
theorem foldl_appendNew_of_contains (h : ∀ a ∈ r, l.contains a = true) :
    r.foldl appendNew l = l := by
  induction r with
  | nil => rfl
  | cons a r ih =>
    have ha : l.contains a = true := h a List.mem_cons_self
    rw [List.foldl_cons, appendNew_of_contains ha]
    exact ih fun b hb => h b (List.mem_cons_of_mem a hb)

/-! ### Up to equality

What the loop does where `==` is an equivalence. -/

section Equivalence

variable [EquivBEq α]

theorem contains_appendNew : (appendNew l a).contains b = (l.contains b || b == a) := by
  cases h : l.contains a with
  | false => rw [appendNew_of_not_contains h, List.contains_append, List.contains_cons,
      List.contains_nil, Bool.or_false]
  | true =>
    rw [appendNew_of_contains h]
    by_cases hba : (b == a) = true
    · rw [List.contains_congr hba, h, Bool.true_or]
    · simp [hba]

/-- What the result contains. -/
theorem contains_foldl_appendNew :
    (r.foldl appendNew l).contains b = (l.contains b || r.contains b) := by
  induction r generalizing l with
  | nil => simp
  | cons a r ih =>
    rw [List.foldl_cons, ih, contains_appendNew, List.contains_cons, Bool.or_assoc]

theorem contains_removeDuplicates : (removeDuplicates l).contains a = l.contains a := by
  rw [removeDuplicates, contains_foldl_appendNew, List.contains_nil, Bool.false_or]

theorem Distinct.appendNew (h : Distinct l) : Distinct (appendNew l a) := by
  cases ha : l.contains a with
  | true => rwa [appendNew_of_contains ha]
  | false =>
    rw [appendNew_of_not_contains ha]
    refine List.pairwise_append.2 ⟨h, List.pairwise_singleton _ _, fun b hb c hc => ?_⟩
    rw [List.mem_singleton.1 hc]
    by_contra hba
    have hcontains : l.contains a = true :=
      List.contains_iff_exists_mem_beq.2 ⟨b, hb, BEq.symm (by simpa using hba)⟩
    simp [ha] at hcontains

theorem Distinct.foldl_appendNew (h : Distinct l) : Distinct (r.foldl EyeMaps.appendNew l) := by
  induction r generalizing l with
  | nil => exact h
  | cons a r ih => exact ih h.appendNew

/-- No two elements of the result are equal. -/
theorem distinct_removeDuplicates (l : List α) : Distinct (removeDuplicates l) :=
  Distinct.foldl_appendNew List.Pairwise.nil

/-- Elements that are new and pairwise different are all appended. -/
theorem foldl_appendNew_of_distinct (h : Distinct (l ++ r)) : r.foldl appendNew l = l ++ r := by
  induction r generalizing l with
  | nil => simp
  | cons a r ih =>
    have ha : l.contains a = false := by
      by_contra hcontains
      obtain ⟨b, hb, hab⟩ := List.contains_iff_exists_mem_beq.1 (by simpa using hcontains)
      have hne := (List.pairwise_append.1 h).2.2 b hb a List.mem_cons_self
      simp [BEq.symm hab] at hne
    rw [List.foldl_cons, appendNew_of_not_contains ha, ih (by simpa using h)]
    simp

theorem removeDuplicates_of_distinct (h : Distinct l) : removeDuplicates l = l :=
  foldl_appendNew_of_distinct (l := []) h

/-- A list without repetitions is a prefix of what merging makes of it. -/
theorem prefix_removeDuplicates_append (h : Distinct l) (r : List α) :
    l <+: removeDuplicates (l ++ r) := by
  rw [removeDuplicates_append, removeDuplicates_of_distinct h]
  exact prefix_foldl_appendNew r l

/-- Merging elements that such a list already contains changes nothing. -/
theorem removeDuplicates_append_of_contains (h : Distinct l) (hr : ∀ a ∈ r, l.contains a = true) :
    removeDuplicates (l ++ r) = l := by
  rw [removeDuplicates_append, removeDuplicates_of_distinct h, foldl_appendNew_of_contains hr]

end Equivalence

/-! ### Up to identity -/

variable [LawfulBEq α]

theorem distinct_iff_nodup : Distinct l ↔ l.Nodup := by
  simp [Distinct, List.Nodup]

theorem mem_foldl_appendNew : a ∈ r.foldl appendNew l ↔ a ∈ l ∨ a ∈ r := by
  simpa using Bool.eq_iff_iff.1 (contains_foldl_appendNew (l := l) (r := r) (b := a))

theorem foldl_appendNew_of_subset (h : r ⊆ l) : r.foldl appendNew l = l :=
  foldl_appendNew_of_contains fun a ha => by simpa using h ha

/-- No entry is repeated after merging. -/
theorem nodup_removeDuplicates (l : List α) : (removeDuplicates l).Nodup :=
  distinct_iff_nodup.1 (distinct_removeDuplicates l)

/-- Only repetitions are removed. -/
@[simp] theorem mem_removeDuplicates : a ∈ removeDuplicates l ↔ a ∈ l := by
  simp [removeDuplicates, mem_foldl_appendNew]

theorem removeDuplicates_append_of_subset (h : l.Nodup) (hr : r ⊆ l) :
    removeDuplicates (l ++ r) = l :=
  removeDuplicates_append_of_contains (distinct_iff_nodup.2 h) fun a ha => by simpa using hr ha

/-- Merging elements that are already there leaves a new last element last. -/
theorem removeDuplicates_append_singleton (ha : a ∉ l) (hr : r ⊆ l ++ [a]) :
    removeDuplicates (l ++ [a] ++ r) = removeDuplicates l ++ [a] := by
  have hlast : removeDuplicates (l ++ [a]) = removeDuplicates l ++ [a] := by
    rw [removeDuplicates_append, List.foldl_cons, List.foldl_nil,
      appendNew_of_not_contains (by simpa)]
  rw [removeDuplicates_append, foldl_appendNew_of_subset, hlast]
  intro b hb
  rw [mem_removeDuplicates]
  exact hr hb

/-- An entry at the end of a duplicate-free part of the list keeps its index. -/
theorem getElem?_removeDuplicates_append {i : ℕ} (h : (l.take (i + 1)).Nodup)
    (hi : i < l.length) (r : List α) : (removeDuplicates (l ++ r))[i]? = l[i]? := by
  have hmerge : l ++ r = l.take (i + 1) ++ (l.drop (i + 1) ++ r) := by
    rw [← List.append_assoc, List.take_append_drop]
  obtain ⟨rest, hrest⟩ :=
    prefix_removeDuplicates_append (distinct_iff_nodup.2 h) (l.drop (i + 1) ++ r)
  rw [hmerge, ← hrest, List.getElem?_append_left (by simp; omega)]
  simp

end RemoveDuplicates

/-! ## Views and events -/

/-- The state variables of `AddView`; `rendered` is the list at its last rendering. -/
structure AddView (K : Type) where
  location : Location K
  next : Bool
  isPublic : Bool
  rendered : Option (List (Location K))

/-- A new `AddView`, whose location gets the given fresh id. -/
def AddView.create {K : Type} [Zero K] (id : UUID) : AddView K where
  location :=
    { id := id
      lat := 0
      long := 0
      title := ""
      subtitle := ""
      directions := []
      worldData := []
      transformationsX := []
      transformationsY := []
      transformationsZ := []
      location := ⟨0, 0⟩ }
  next := false
  isPublic := true
  rendered := none

/-- What the form of `AddView` writes through `$location.title`, `$location.subtitle` and
`$isPublic`. -/
inductive FormField
  | title (title : String)
  | subtitle (subtitle : String)
  | isPublic (isPublic : Bool)

def AddView.edit {K : Type} (view : AddView K) : FormField → AddView K
  | .title title => { view with location := { view.location with title := title } }
  | .subtitle subtitle => { view with location := { view.location with subtitle := subtitle } }
  | .isPublic isPublic => { view with isPublic := isPublic }

@[simp] theorem AddView.edit_id {K : Type} (view : AddView K) (field : FormField) :
    (view.edit field).location.id = view.location.id := by
  cases field <;> rfl

@[simp] theorem AddView.edit_next {K : Type} (view : AddView K) (field : FormField) :
    (view.edit field).next = view.next := by
  cases field <;> rfl

@[simp] theorem AddView.edit_rendered {K : Type} (view : AddView K) (field : FormField) :
    (view.edit field).rendered = view.rendered := by
  cases field <;> rfl

/-- The location of the view as "Begin Mapping" adds it to the list. -/
def AddView.begun {K : Type} (userLatitude userLongitude : K) (view : AddView K) : Location K :=
  if view.isPublic then
    { view.location with
      lat := userLatitude
      long := userLongitude
      location := ⟨userLatitude, userLongitude⟩ }
  else view.location

@[simp] theorem AddView.begun_id {K : Type} (userLatitude userLongitude : K) (view : AddView K) :
    (view.begun userLatitude userLongitude).id = view.location.id := by
  unfold AddView.begun
  split <;> rfl

/-- The sheet of `SelectView`: what `open`, `add` and `config` stand for. -/
inductive Sheet (K : Type)
  | closed
  | config
  | add (view : AddView K)

structure Catalogue (K : Type) [CommRing K] where
  appState : AppState K
  ready : Bool
  i3 : ℕ
  sheet : Sheet K
  /-- `loadNearby` requests that have not completed yet -/
  requests : ℕ

inductive CatalogueEvent (K : Type) [CommRing K]
  | selectAppear
  | tapRow (i : ℕ)
  | tapAdd (id : UUID)
  | edit (field : FormField)
  | beginMapping (userLatitude userLongitude : K)
  | render (written : Bool)
  | dismiss
  | nearbyLoaded (userData : List (Location K))
  | app (e : AppEvent K)

/-- The events of `app` that no sheet drives. -/
def AppEvent.undriven {K : Type} [CommRing K] : AppEvent K → Bool
  | .appear _ | .disappear | .publish _ _ => false
  | _ => true

namespace AppState

variable {K : Type} [CommRing K]

/-- Render `ContentView(location: $locations[k])`: create the view, or bind the open one again. -/
def showContentView (k : ℕ) (s : AppState K) : Option (AppState K) :=
  match s.opened with
  | none => s.appear k
  | some v => do
    let view ← s.views[v]?
    let _ ← s.locations[k]?
    some { s with views := s.views.set v { view with binding := k } }

/-- The index at which `AddView` binds its `ContentView`; on an empty list it is out of range. -/
def lastIndex (s : AppState K) : ℕ :=
  if s.locations.isEmpty then s.locations.length else s.locations.length - 1

theorem lastIndex_eq (s : AppState K) : s.lastIndex = s.locations.length - 1 := by
  unfold lastIndex
  split
  case isTrue hempty => simp [List.isEmpty_iff.1 hempty]
  case isFalse => rfl

/-- The id of entry `k` of the list. -/
def idAt (s : AppState K) (k : ℕ) : Option UUID := (s.locations[k]?).map Location.id

theorem idAt_congr {s s' : AppState K}
    (h : s'.locations.map Location.id = s.locations.map Location.id) (k : ℕ) :
    s'.idAt k = s.idAt k := by
  simpa [idAt] using congrArg (fun ids => ids[k]?) h

/-- The part of the body of `AddView` under `if next`. -/
def renderNext (view : AddView K) (s : AppState K) : Option (AppState K) :=
  if view.next then s.showContentView s.lastIndex else some s

end AppState

namespace Catalogue

variable {K : Type}

section CommRing

variable [CommRing K]

/-- The app after launch, with the given `locations.txt` and stored maps. -/
def initial (file : Option (List (Location K))) (storedData : UUID → Option Data) :
    Catalogue K where
  appState := { AppState.initial [] storedData with file := file }
  ready := false
  i3 := 0
  sheet := .closed
  requests := 0

/-- The `AddView` on the sheet, if it is one. -/
def addView (s : Catalogue K) : Option (AddView K) :=
  match s.sheet with
  | .add view => some view
  | _ => none

theorem addView_of_sheet {s : Catalogue K} {view : AddView K} (h : s.sheet = .add view) :
    s.addView = some view := by
  simp [addView, h]

/-! ## SelectView.swift -/

/-- `onAppear` of `SelectView`; without a file the list stays as it is.  A file that exists is read:
that reading it fails, which the source catches, is no event of the machine. -/
def selectAppear (s : Catalogue K) : Option (Catalogue K) :=
  match s.sheet with
  | .closed =>
    some { s with
      appState := { s.appState with locations := s.appState.file.getD s.appState.locations }
      requests := s.requests + 1
      ready := true }
  | _ => none

/-- A tap on row `i`. -/
def tapRow (i : ℕ) (s : Catalogue K) : Option (Catalogue K) :=
  match s.sheet with
  | .closed =>
    if s.ready && decide (i < s.appState.locations.length) then
      some { s with sheet := .config, i3 := i }
    else none
  | _ => none

/-- A tap on the plus button. -/
def tapAdd (id : UUID) (s : Catalogue K) : Option (Catalogue K) :=
  match s.sheet with
  | .closed => if s.ready then some { s with sheet := .add (AddView.create id) } else none
  | _ => none

/-! ## AddView.swift -/

/-- An edit of the form of `AddView`, which is there once the view has been rendered. -/
def edit (field : FormField) (s : Catalogue K) : Option (Catalogue K) :=
  match s.sheet with
  | .add view =>
    if view.rendered.isSome then some { s with sheet := .add (view.edit field) } else none
  | _ => none

/-- "Begin Mapping". -/
def beginMapping (userLatitude userLongitude : K) (s : Catalogue K) : Option (Catalogue K) :=
  match s.sheet with
  | .add view =>
    if view.rendered.isSome then
      let location := view.begun userLatitude userLongitude
      some { s with
        appState := { s.appState with locations := s.appState.locations ++ [location] }
        sheet := .add { view with location := location } }
    else none
  | _ => none

/-- `onDisappear` of the `ContentView` on the sheet, if there is one: `AddView` publishes the last
entry of the list under the id of its own location. -/
def closeContentView (s : Catalogue K) : Option (AppState K) :=
  if s.appState.opened.isSome then do
    let appState ← s.appState.disappear
    match s.sheet with
    | .add view =>
      if view.isPublic then appState.publish view.location.id appState.lastIndex
      else some appState
    | _ => some appState
  else some s.appState

/-- The sheet is dismissed. -/
def dismiss (s : Catalogue K) : Option (Catalogue K) :=
  match s.sheet with
  | .closed => none
  | _ => do
    let appState ← s.closeContentView
    some { s with appState := appState, sheet := .closed }

end CommRing

variable [Field K] [LinearOrder K]

/-- The sheet is rendered.  For `AddView` the body comes first, with `next` as it is, then
`onChange(of: locations)`, whose write to the file may fail. -/
def render (written : Bool) (s : Catalogue K) : Option (Catalogue K) :=
  match s.sheet with
  | .closed => some s
  | .config => do
    let appState ← s.appState.showContentView s.i3
    some { s with appState := appState }
  | .add view => do
    let appState ← s.appState.renderNext view
    let changed := view.rendered.any fun value => decide (value ≠ appState.locations)
    some { s with
      appState :=
        { appState with
          file := if changed && written then some appState.locations else appState.file }
      sheet :=
        .add { view with next := view.next || changed, rendered := some appState.locations } }

/-- The completion of `loadNearby` in `onAppear` of `SelectView`. -/
def nearbyLoaded (userData : List (Location K)) (s : Catalogue K) : Option (Catalogue K) :=
  if 0 < s.requests then
    some { s with
      appState :=
        { s.appState with locations := removeDuplicates (s.appState.locations ++ userData) }
      requests := s.requests - 1 }
  else none

/-- An event below the sheets. -/
def nextApp (e : AppEvent K) (s : Catalogue K) : Option (Catalogue K) :=
  if e.undriven then do
    let appState ← (EyeMaps.app K).step s.appState e
    some { s with appState := appState }
  else none

def next (s : Catalogue K) : CatalogueEvent K → Option (Catalogue K)
  | .selectAppear => s.selectAppear
  | .tapRow i => s.tapRow i
  | .tapAdd id => s.tapAdd id
  | .edit field => s.edit field
  | .beginMapping userLatitude userLongitude => s.beginMapping userLatitude userLongitude
  | .render written => s.render written
  | .dismiss => s.dismiss
  | .nearbyLoaded userData => s.nearbyLoaded userData
  | .app e => s.nextApp e

end Catalogue

/-- The machine of the list, the sheets and the app below them. -/
def catalogue (K : Type) [Field K] [LinearOrder K] : Machine (Catalogue K) (CatalogueEvent K) where
  step := Catalogue.next

/-! ## What one step can do -/

namespace AppState

section CommRing

variable {K : Type} [CommRing K] {s s' : AppState K}

/-- Rendering a `ContentView` reads and changes no entry; the open view is then bound to `k`, and
its timer to `k` if the view is new. -/
theorem showContentView_eq_some {k : ℕ} (h : s.showContentView k = some s') :
    s'.locations = s.locations ∧ s'.documents = s.documents ∧ (s.locations[k]?).isSome = true ∧
      ∀ b ∈ s'.openBindings, b.1 = k ∧ (b.2 = k ∨ ∃ b' ∈ s.openBindings, b.2 = b'.2) := by
  unfold showContentView at h
  split at h
  case h_1 hclosed =>
    simp only [appear, hclosed, if_true] at h
    obtain ⟨l, hl, h⟩ := Option.bind_eq_some_iff.1 h
    obtain ⟨globals, -, h⟩ := Option.bind_eq_some_iff.1 h
    obtain rfl := Option.some.inj h
    refine ⟨rfl, rfl, by simp [hl], fun b hb => ?_⟩
    obtain rfl : (k, k) = b := by simpa [openBindings, openView, MapView.bindings] using hb
    exact ⟨rfl, .inl rfl⟩
  case h_2 v hopen =>
    obtain ⟨view, hview, h⟩ := Option.bind_eq_some_iff.1 h
    obtain ⟨l, hl, h⟩ := Option.bind_eq_some_iff.1 h
    obtain rfl := Option.some.inj h
    have hold : s.openBindings = some view.bindings := by
      simp [openBindings, openView, hopen, hview]
    refine ⟨rfl, rfl, by simp [hl], fun b hb => ?_⟩
    obtain rfl : (k, view.timerBinding) = b := by
      simpa [openBindings, openView, hopen, getElem?_set_self' hview, MapView.bindings] using hb
    exact ⟨rfl, .inr ⟨_, hold, rfl⟩⟩

/-- Neither the list nor the file nor Firestore is written. -/
theorem showContentView_lists {k : ℕ} (h : s.showContentView k = some s') :
    s'.locations = s.locations ∧ s'.file = s.file ∧ s'.documents = s.documents := by
  have hkept := showContentView_eq_some h
  unfold showContentView at h
  split at h
  case h_1 hclosed =>
    simp only [appear, hclosed, if_true] at h
    obtain ⟨_, -, h⟩ := Option.bind_eq_some_iff.1 h
    obtain ⟨_, -, h⟩ := Option.bind_eq_some_iff.1 h
    exact ⟨hkept.1, by rw [← Option.some.inj h], hkept.2.1⟩
  case h_2 =>
    obtain ⟨_, -, h⟩ := Option.bind_eq_some_iff.1 h
    obtain ⟨_, -, h⟩ := Option.bind_eq_some_iff.1 h
    exact ⟨hkept.1, by rw [← Option.some.inj h], hkept.2.1⟩

theorem renderNext_lists {view : AddView K} (h : s.renderNext view = some s') :
    s'.locations = s.locations ∧ s'.file = s.file ∧ s'.documents = s.documents := by
  unfold renderNext at h
  split at h
  case isTrue => exact showContentView_lists h
  case isFalse =>
    rw [Option.some.inj h]
    exact ⟨rfl, rfl, rfl⟩

end CommRing

end AppState

namespace Catalogue

section Inversion

variable {K : Type} [Field K] [LinearOrder K] {s s' : Catalogue K}

theorem step_selectAppear (h : (catalogue K).step s .selectAppear = some s') :
    s.sheet = .closed ∧ s' = { s with
      appState := { s.appState with locations := s.appState.file.getD s.appState.locations }
      requests := s.requests + 1
      ready := true } := by
  simp only [catalogue, next, selectAppear] at h
  split at h
  case h_1 hsheet => exact ⟨hsheet, (Option.some.inj h).symm⟩
  case h_2 => cases h

theorem step_tapRow {i : ℕ} (h : (catalogue K).step s (.tapRow i) = some s') :
    s.sheet = .closed ∧ i < s.appState.locations.length ∧
      s' = { s with sheet := .config, i3 := i } := by
  simp only [catalogue, next, tapRow] at h
  split at h
  case h_2 => cases h
  case h_1 hsheet =>
    split at h
    case isFalse => cases h
    case isTrue hcond =>
      simp only [Bool.and_eq_true, decide_eq_true_eq] at hcond
      exact ⟨hsheet, hcond.2, (Option.some.inj h).symm⟩

theorem step_tapAdd {id : UUID} (h : (catalogue K).step s (.tapAdd id) = some s') :
    s.sheet = .closed ∧ s' = { s with sheet := .add (AddView.create id) } := by
  simp only [catalogue, next, tapAdd] at h
  split at h
  case h_2 => cases h
  case h_1 hsheet =>
    split at h
    case isFalse => cases h
    case isTrue => exact ⟨hsheet, (Option.some.inj h).symm⟩

theorem step_edit {field : FormField} (h : (catalogue K).step s (.edit field) = some s') :
    ∃ view, s.sheet = .add view ∧ s' = { s with sheet := .add (view.edit field) } := by
  simp only [catalogue, next, edit] at h
  split at h
  case h_2 => cases h
  case h_1 view hsheet =>
    split at h
    case isFalse => cases h
    case isTrue => exact ⟨view, hsheet, (Option.some.inj h).symm⟩

theorem step_beginMapping {userLatitude userLongitude : K}
    (h : (catalogue K).step s (.beginMapping userLatitude userLongitude) = some s') :
    ∃ view location, s.sheet = .add view ∧ view.rendered.isSome = true ∧
      location = view.begun userLatitude userLongitude ∧
      s' = { s with
        appState := { s.appState with locations := s.appState.locations ++ [location] }
        sheet := .add { view with location := location } } := by
  simp only [catalogue, next, beginMapping] at h
  split at h
  case h_2 => cases h
  case h_1 view hsheet =>
    split at h
    case isFalse => cases h
    case isTrue hrendered =>
      exact ⟨view, _, hsheet, hrendered, rfl, (Option.some.inj h).symm⟩

theorem step_render {written : Bool} (h : (catalogue K).step s (.render written) = some s') :
    (s.sheet = .closed ∧ s' = s) ∨
      (∃ appState, s.sheet = .config ∧ s.appState.showContentView s.i3 = some appState ∧
        s' = { s with appState := appState }) ∨
      ∃ view appState changed file, s.sheet = .add view ∧
        s.appState.renderNext view = some appState ∧
        changed = view.rendered.any (fun value => decide (value ≠ appState.locations)) ∧
        s' = { s with
          appState := { appState with file := file }
          sheet :=
            .add { view with
              next := view.next || changed, rendered := some appState.locations } } := by
  simp only [catalogue, next, render] at h
  split at h
  case h_1 hsheet => exact .inl ⟨hsheet, (Option.some.inj h).symm⟩
  case h_2 hsheet =>
    obtain ⟨appState, hshow, h⟩ := Option.bind_eq_some_iff.1 h
    exact .inr (.inl ⟨appState, hsheet, hshow, (Option.some.inj h).symm⟩)
  case h_3 view hsheet =>
    obtain ⟨appState, hshow, h⟩ := Option.bind_eq_some_iff.1 h
    exact .inr (.inr ⟨view, appState, _, _, hsheet, hshow, rfl, (Option.some.inj h).symm⟩)

theorem step_dismiss (h : (catalogue K).step s .dismiss = some s') :
    ∃ appState, s.sheet ≠ .closed ∧ s.closeContentView = some appState ∧
      s' = { s with appState := appState, sheet := .closed } := by
  simp only [catalogue, next, dismiss] at h
  split at h
  case h_1 => cases h
  case h_2 hsheet =>
    obtain ⟨appState, hclose, h⟩ := Option.bind_eq_some_iff.1 h
    exact ⟨appState, hsheet, hclose, (Option.some.inj h).symm⟩

theorem step_nearbyLoaded {userData : List (Location K)}
    (h : (catalogue K).step s (.nearbyLoaded userData) = some s') :
    0 < s.requests ∧ s' = { s with
      appState :=
        { s.appState with locations := removeDuplicates (s.appState.locations ++ userData) }
      requests := s.requests - 1 } := by
  simp only [catalogue, next, nearbyLoaded] at h
  split at h
  case isFalse => cases h
  case isTrue hpending => exact ⟨hpending, (Option.some.inj h).symm⟩

theorem step_app {e : AppEvent K} (h : (catalogue K).step s (.app e) = some s') :
    ∃ appState, e.undriven = true ∧ (EyeMaps.app K).step s.appState e = some appState ∧
      s' = { s with appState := appState } := by
  simp only [catalogue, next, nextApp] at h
  split at h
  case isFalse => cases h
  case isTrue hundriven =>
    obtain ⟨appState, hstep, h⟩ := Option.bind_eq_some_iff.1 h
    exact ⟨appState, hundriven, hstep, (Option.some.inj h).symm⟩

end Inversion

/-! ## What one step leaves alone -/

section Frame

variable {K : Type} [Field K] [LinearOrder K] {s s' : Catalogue K} {e : CatalogueEvent K}

/-- What an event below the sheets leaves alone. -/
theorem undriven_frame {t t' : AppState K} {e : AppEvent K} (he : e.undriven = true)
    (h : (EyeMaps.app K).step t e = some t') :
    t'.opened = t.opened ∧ t'.openBindings = t.openBindings ∧
      t'.locations.map Location.id = t.locations.map Location.id ∧
      t'.documents = t.documents := by
  have hstays : e.staysOpen = true := by cases e <;> first | rfl | cases he
  obtain ⟨hopened, hbindings⟩ := AppState.step_stays h hstays
  refine ⟨hopened, AppState.openBindings_congr hopened hbindings, AppState.step_ids h, ?_⟩
  rcases AppState.step_documents h with hsame | ⟨_, _, _, rfl, -, -⟩
  · exact hsame
  · cases he

omit [LinearOrder K] in
/-- Closing the map of a sheet: the list stays, and `AddView` may publish its last entry. -/
theorem closeContentView_eq_some {t : AppState K} (h : s.closeContentView = some t) :
    t.opened = none ∧
      (t.documents = s.appState.documents ∨
        ∃ view l, s.sheet = .add view ∧ s.appState.opened.isSome = true ∧
          s.appState.locations[s.appState.lastIndex]? = some l ∧
          t.documents = s.appState.documents ++ [(view.location.id, l)]) := by
  unfold closeContentView at h
  split at h
  case isFalse hclosed =>
    cases h
    exact ⟨by simpa using hclosed, .inl rfl⟩
  case isTrue hopen =>
    obtain ⟨t₁, hdisappear, h⟩ := Option.bind_eq_some_iff.1 h
    obtain ⟨v, -, hdisappear⟩ := Option.bind_eq_some_iff.1 hdisappear
    obtain ⟨_, -, hdisappear⟩ := Option.bind_eq_some_iff.1 hdisappear
    obtain rfl := Option.some.inj hdisappear
    split at h
    case h_2 =>
      cases h
      exact ⟨rfl, .inl rfl⟩
    case h_1 view hsheet =>
      split at h
      case isFalse =>
        cases h
        exact ⟨rfl, .inl rfl⟩
      case isTrue =>
        obtain ⟨l, hl, h⟩ := Option.bind_eq_some_iff.1 h
        cases h
        exact ⟨rfl, .inr ⟨view, l, hsheet, hopen, hl, rfl⟩⟩

omit [LinearOrder K] in
theorem closeContentView_lists {t : AppState K} (h : s.closeContentView = some t) :
    t.locations = s.appState.locations ∧ t.file = s.appState.file := by
  unfold closeContentView at h
  split at h
  case isFalse =>
    rw [← Option.some.inj h]
    exact ⟨rfl, rfl⟩
  case isTrue =>
    obtain ⟨t₁, hdisappear, h⟩ := Option.bind_eq_some_iff.1 h
    obtain ⟨_, -, hdisappear⟩ := Option.bind_eq_some_iff.1 hdisappear
    obtain ⟨_, -, hdisappear⟩ := Option.bind_eq_some_iff.1 hdisappear
    obtain rfl := Option.some.inj hdisappear
    split at h
    case h_2 =>
      rw [← Option.some.inj h]
      exact ⟨rfl, rfl⟩
    case h_1 =>
      split at h
      case isFalse =>
        rw [← Option.some.inj h]
        exact ⟨rfl, rfl⟩
      case isTrue =>
        obtain ⟨_, -, h⟩ := Option.bind_eq_some_iff.1 h
        rw [← Option.some.inj h]
        exact ⟨rfl, rfl⟩

/-- What an event does to the list, the file and the documents, in six cases. -/
theorem step_lists (h : (catalogue K).step s e = some s') :
    -- Opening and rendering sheets: nothing, but the file may get the list.
    (s'.appState.locations = s.appState.locations ∧
        (s'.appState.file = s.appState.file ∨ s'.appState.file = some s'.appState.locations) ∧
        s'.appState.documents = s.appState.documents) ∨
      -- Loading, "Begin Mapping" and a completed fetch: the list only.
      (e = .selectAppear ∧ s'.appState = { s.appState with
        locations := s.appState.file.getD s.appState.locations }) ∨
      (∃ userLatitude userLongitude view, e = .beginMapping userLatitude userLongitude ∧
        s.addView = some view ∧ s'.appState = { s.appState with
          locations := s.appState.locations ++ [view.begun userLatitude userLongitude] }) ∨
      (∃ userData, e = .nearbyLoaded userData ∧ s'.appState = { s.appState with
        locations := removeDuplicates (s.appState.locations ++ userData) }) ∨
      -- Closing a sheet: the documents only.
      (s'.appState.locations = s.appState.locations ∧ s'.appState.file = s.appState.file ∧
        (s'.appState.documents = s.appState.documents ∨ ∃ key, ∃ l ∈ s.appState.locations,
          s'.appState.documents = s.appState.documents ++ [(key, l)])) ∨
      (∃ e', e = .app e' ∧ e'.undriven = true ∧
        (EyeMaps.app K).step s.appState e' = some s'.appState) := by
  cases e with
  | selectAppear =>
    obtain ⟨-, rfl⟩ := step_selectAppear h
    exact .inr (.inl ⟨rfl, rfl⟩)
  | tapRow i =>
    obtain ⟨-, -, rfl⟩ := step_tapRow h
    exact .inl ⟨rfl, .inl rfl, rfl⟩
  | tapAdd id =>
    obtain ⟨-, rfl⟩ := step_tapAdd h
    exact .inl ⟨rfl, .inl rfl, rfl⟩
  | edit field =>
    obtain ⟨_, -, rfl⟩ := step_edit h
    exact .inl ⟨rfl, .inl rfl, rfl⟩
  | beginMapping userLatitude userLongitude =>
    obtain ⟨view, _, hsheet, -, rfl, rfl⟩ := step_beginMapping h
    exact .inr (.inr (.inl ⟨_, _, view, rfl, addView_of_sheet hsheet, rfl⟩))
  | render written =>
    simp only [catalogue, next, render] at h
    split at h
    case h_1 =>
      rw [← Option.some.inj h]
      exact .inl ⟨rfl, .inl rfl, rfl⟩
    case h_2 =>
      obtain ⟨t, hshow, h⟩ := Option.bind_eq_some_iff.1 h
      obtain ⟨hlocations, hfile, hdocuments⟩ := AppState.showContentView_lists hshow
      rw [← Option.some.inj h]
      exact .inl ⟨hlocations, .inl hfile, hdocuments⟩
    case h_3 =>
      obtain ⟨t, hshow, h⟩ := Option.bind_eq_some_iff.1 h
      obtain ⟨hlocations, hfile, hdocuments⟩ := AppState.renderNext_lists hshow
      rw [← Option.some.inj h]
      refine .inl ⟨hlocations, ?_, hdocuments⟩
      dsimp only
      split
      · exact .inr rfl
      · exact .inl hfile
  | dismiss =>
    obtain ⟨_, -, hclose, rfl⟩ := step_dismiss h
    obtain ⟨hlocations, hfile⟩ := closeContentView_lists hclose
    refine .inr (.inr (.inr (.inr (.inl ⟨hlocations, hfile, ?_⟩))))
    rcases (closeContentView_eq_some hclose).2 with hsame | ⟨view, l, -, -, hl, hpublished⟩
    · exact .inl hsame
    · exact .inr ⟨view.location.id, l, List.mem_of_getElem? hl, hpublished⟩
  | nearbyLoaded userData =>
    obtain ⟨-, rfl⟩ := step_nearbyLoaded h
    exact .inr (.inr (.inr (.inl ⟨userData, rfl, rfl⟩)))
  | app e' =>
    obtain ⟨_, hundriven, happ, rfl⟩ := step_app h
    exact .inr (.inr (.inr (.inr (.inr ⟨e', rfl, hundriven, happ⟩))))

/-- What any event does to the list. -/
theorem step_list (h : (catalogue K).step s e = some s') :
    s'.appState.locations = s.appState.locations ∨
      (e = .selectAppear ∧
        s'.appState.locations = s.appState.file.getD s.appState.locations) ∨
      (∃ userLatitude userLongitude view, e = .beginMapping userLatitude userLongitude ∧
        s.addView = some view ∧ s'.appState.locations =
          s.appState.locations ++ [view.begun userLatitude userLongitude]) ∨
      (∃ userData, e = .nearbyLoaded userData ∧
        s'.appState.locations = removeDuplicates (s.appState.locations ++ userData)) ∨
      (∃ e', e = .app e' ∧ (EyeMaps.app K).step s.appState e' = some s'.appState) := by
  rcases step_lists h with ⟨hsame, -⟩ | ⟨he, hload⟩ | ⟨_, _, view, he, hview, hadd⟩ |
      ⟨userData, he, hmerge⟩ | ⟨hsame, -⟩ | ⟨e', he, -, happ⟩
  · exact .inl hsame
  · exact .inr (.inl ⟨he, by rw [hload]⟩)
  · exact .inr (.inr (.inl ⟨_, _, view, he, hview, by rw [hadd]⟩))
  · exact .inr (.inr (.inr (.inl ⟨userData, he, by rw [hmerge]⟩)))
  · exact .inl hsame
  · exact .inr (.inr (.inr (.inr ⟨e', he, happ⟩)))

/-- The file only ever gets the list as it is. -/
theorem step_file (h : (catalogue K).step s e = some s') :
    s'.appState.file = s.appState.file ∨ s'.appState.file = some s'.appState.locations := by
  rcases step_lists h with ⟨-, hfile, -⟩ | ⟨-, hload⟩ | ⟨_, _, _, -, -, hadd⟩ | ⟨_, -, hmerge⟩ |
      ⟨-, hsame, -⟩ | ⟨_, -, -, happ⟩
  · exact hfile
  · exact .inl (by rw [hload])
  · exact .inl (by rw [hadd])
  · exact .inl (by rw [hmerge])
  · exact .inl hsame
  · exact AppState.step_file happ

/-- A document is published when `AddView` is closed, and it is an entry of the list. -/
theorem step_documents (h : (catalogue K).step s e = some s') :
    s'.appState.documents = s.appState.documents ∨
      ∃ key, ∃ l ∈ s.appState.locations,
        s'.appState.documents = s.appState.documents ++ [(key, l)] := by
  rcases step_lists h with ⟨-, -, hsame⟩ | ⟨-, hload⟩ | ⟨_, _, _, -, -, hadd⟩ | ⟨_, -, hmerge⟩ |
      ⟨-, -, hpublished⟩ | ⟨_, -, hundriven, happ⟩
  · exact .inl hsame
  · exact .inl (by rw [hload])
  · exact .inl (by rw [hadd])
  · exact .inl (by rw [hmerge])
  · exact hpublished
  · exact .inl (undriven_frame hundriven happ).2.2.2

/-- No map is on the screen without a sheet. -/
def Covered (s : Catalogue K) : Prop := s.sheet = .closed → s.appState.opened = none

theorem covered_step (h : s.Covered) (hstep : (catalogue K).step s e = some s') : s'.Covered := by
  cases e with
  | selectAppear =>
    obtain ⟨-, rfl⟩ := step_selectAppear hstep
    exact h
  | tapRow i =>
    obtain ⟨-, -, rfl⟩ := step_tapRow hstep
    exact nofun
  | tapAdd id =>
    obtain ⟨-, rfl⟩ := step_tapAdd hstep
    exact nofun
  | edit field =>
    obtain ⟨_, -, rfl⟩ := step_edit hstep
    exact nofun
  | beginMapping userLatitude userLongitude =>
    obtain ⟨_, _, -, -, -, rfl⟩ := step_beginMapping hstep
    exact nofun
  | render written =>
    rcases step_render hstep with ⟨hsheet, rfl⟩ | ⟨_, hsheet, -, rfl⟩ | ⟨_, _, _, _, -, -, -, rfl⟩
    · exact h
    · exact fun hclosed => by simp [hsheet] at hclosed
    · exact nofun
  | dismiss =>
    obtain ⟨_, -, hclose, rfl⟩ := step_dismiss hstep
    exact fun _ => (closeContentView_eq_some hclose).1
  | nearbyLoaded userData =>
    obtain ⟨-, rfl⟩ := step_nearbyLoaded hstep
    exact h
  | app e =>
    obtain ⟨_, hundriven, happ, rfl⟩ := step_app hstep
    exact fun hclosed => (undriven_frame hundriven happ).1.trans (h hclosed)

end Frame

end Catalogue

end EyeMaps
