import EyeMaps.Model.Fleet
import EyeMaps.Properties.DocumentRoundTrip

/-!
# Where the maps on a device come from

The card of a location is what is said about it when it is added: its id, its titles and its place.
Recording, merging, the file and the collection all leave cards alone, so that every map on any
device carries the card with which "Begin Mapping" was pressed on some device, unless it was there
at the start or someone else wrote it to the collection (`card_introduced`).
-/

namespace EyeMaps

open Framework

variable {K : Type}

/-! ## Cards -/

/-- What is said about a location when it is added. -/
structure Card (K : Type) where
  id : UUID
  title : String
  subtitle : String
  lat : K
  long : K
  location : GeoPoint K
  deriving DecidableEq

def Location.card (l : Location K) : Card K :=
  ⟨l.id, l.title, l.subtitle, l.lat, l.long, l.location⟩

@[simp] theorem Location.rounded_card (runtime : Runtime K) (l : Location K) :
    (l.rounded runtime).card = l.card := rfl

namespace ContentView

@[simp] theorem pressLocation_card (item : MenuItem) (l : Location K) :
    (pressLocation item l).card = l.card := rfl

@[simp] theorem timer_card [CommRing K] (g : Globals K) (worldMapData : Option Data)
    (l : Location K) : (timer g worldMapData l).card = l.card := by
  rw [timer_eq]
  rfl

end ContentView

section Order

variable [Field K] [LinearOrder K]

/-- The outcome of decoding a document holds the location that it is a document of. -/
theorem DocumentSnapshot.user_of_result {runtime : Runtime K} {d : DocumentSnapshot K}
    {result : Decoded K} {l : Location K} (h : d.result runtime = some result) :
    result.user = some l ↔ IsDocumentOf runtime d.data l := by
  rw [← decode_eq_ok_iff]
  unfold DocumentSnapshot.result at h
  cases hdecode : FirestoreDecoder.decode "Location" (.location runtime) d.data with
  | ok user =>
    rw [hdecode] at h
    obtain rfl : Decoded.success (some user) = result := Option.some.inj h
    simp [Decoded.user]
  | error failure =>
    rw [hdecode] at h
    cases failure with
    | thrown error =>
      obtain rfl : Decoded.failure = result := Option.some.inj h
      simp [Decoded.user]
    | trap => cases h

/-- No event below the sheets changes the card of an entry. -/
theorem AppState.step_cards {s s' : AppState K} {e : AppEvent K}
    (h : (app K).step s e = some s') :
    s'.locations.map Location.card = s.locations.map Location.card := by
  rcases step_locations h with hsame | ⟨_, _, _, -, -, hl, hset⟩ | ⟨_, _, _, -, -, hl, hset⟩
  · rw [hsame]
  · rw [hset, map_set_eq_map hl (ContentView.timer_card _ _ _)]
  · rw [hset, map_set_eq_map hl (ContentView.pressLocation_card _ _)]

namespace Catalogue

variable {s s' : Catalogue K} {e : CatalogueEvent K} {c : Card K}

/-- The cards of the list. -/
def listed (s : Catalogue K) : Set (Card K) := {c | c ∈ s.appState.locations.map Location.card}

/-- The cards of the file. -/
def filed (s : Catalogue K) : Set (Card K) :=
  {c | c ∈ (s.appState.file.getD []).map Location.card}

/-- The event adds a location with the card `c`. -/
def Begins (s : Catalogue K) (e : CatalogueEvent K) (c : Card K) : Prop :=
  ∃ userLatitude userLongitude view, e = .beginMapping userLatitude userLongitude ∧
    s.addView = some view ∧ (view.begun userLatitude userLongitude).card = c

/-- A card of the list was in the list or in the file, or is just being added. -/
theorem listed_of_step (htakes : s.takes e = true) (h : (catalogue K).step s e = some s')
    (hc : c ∈ s'.listed) : c ∈ s.listed ∨ c ∈ s.filed ∨ s.Begins e c := by
  show c ∈ s.appState.locations.map Location.card ∨
    c ∈ (s.appState.file.getD []).map Location.card ∨ _
  have hc' : c ∈ s'.appState.locations.map Location.card := hc
  rcases step_list h with hsame | ⟨-, hload⟩ | ⟨lat, long, view, rfl, hview, hadd⟩ |
      ⟨userData, rfl, -⟩ | ⟨e', -, happ⟩
  · rw [hsame] at hc'
    exact .inl hc'
  · rw [hload] at hc'
    cases hfile : s.appState.file with
    | none =>
      rw [hfile] at hc'
      exact .inl hc'
    | some locations =>
      rw [hfile] at hc'
      exact .inr (.inl hc')
  · rw [hadd, List.map_append, List.mem_append] at hc'
    rcases hc' with hold | hnew
    · exact .inl hold
    · exact .inr (.inr ⟨lat, long, view, rfl, hview, (List.mem_singleton.1 hnew).symm⟩)
  · cases htakes
  · rw [AppState.step_cards happ] at hc'
    exact .inl hc'

/-- A card of the file was in the file, or the list was written to it. -/
theorem filed_of_step (h : (catalogue K).step s e = some s') (hc : c ∈ s'.filed) :
    c ∈ s.filed ∨ c ∈ s'.listed := by
  have hc' : c ∈ (s'.appState.file.getD []).map Location.card := hc
  rcases step_file h with hsame | hwritten
  · rw [hsame] at hc'
    exact .inl hc'
  · rw [hwritten] at hc'
    exact .inr hc'

/-- The list after a fetch: what was there, and what the documents are documents of. -/
theorem mem_receive {runtime : Runtime K} {documents : List (DocumentSnapshot K)} {l : Location K}
    (h : s.receive runtime documents = some s') :
    l ∈ s'.appState.locations ↔
      l ∈ s.appState.locations ∨ ∃ d ∈ documents, IsDocumentOf runtime d.data l := by
  obtain ⟨results, hresults, -, rfl⟩ := receive_eq_some h
  rw [mem_removeDuplicates, List.mem_append, List.mem_filterMap]
  refine or_congr_right ?_
  constructor
  · rintro ⟨result, hresult, huser⟩
    obtain ⟨d, hd, hdresult⟩ := (mem_of_mapM_eq_some hresults).1 hresult
    exact ⟨d, hd, (DocumentSnapshot.user_of_result hdresult).1 huser⟩
  · rintro ⟨d, hd, hl⟩
    obtain ⟨result, hdresult⟩ := exists_mapM_eq_some_iff.1 ⟨results, hresults⟩ d hd
    exact ⟨result, (mem_of_mapM_eq_some hresults).2 ⟨d, hd, hdresult⟩,
      (DocumentSnapshot.user_of_result hdresult).2 hl⟩

/-- The cards on the device, in the list and in the file. -/
def cards (s : Catalogue K) : Set (Card K) := s.listed ∪ s.filed

end Catalogue

/-! ## The fleet -/

section Fleet

variable (runtime : Runtime K)

/-- The document is one of a location with the card `c`. -/
def DocumentSnapshot.Carries (d : DocumentSnapshot K) (c : Card K) : Prop :=
  ∃ l, IsDocumentOf runtime d.data l ∧ l.card = c

/-- The document that a device writes carries the card of its location. -/
theorem DocumentSnapshot.carries_entriesOf {key : String} {l : Location K} {c : Card K}
    (h : DocumentSnapshot.Carries runtime ⟨key, EncodableType.entriesOf l⟩ c) : c = l.card := by
  obtain ⟨l', hl', rfl⟩ := h
  obtain ⟨-, rfl⟩ := (isDocumentOf_entriesOf_iff runtime).1 hl'
  rfl

/-- A device whose maps have cards in `C`, and begins only such maps, passes on cards in `C` if it
receives only such. -/
theorem keeps_cards (ι : Type) (C : Set (Card K)) :
    (device runtime).Keeps (fun (_ : ι) s e => ∀ c, s.Begins e c → c ∈ C) (fun _ => True)
      (fun _ s => s.cards ⊆ C) (fun d => ∀ c, d.Carries runtime c → c ∈ C) where
  act := by
    rintro - s e s' documents hs hbegins hact
    obtain ⟨htakes, hstep, hdocuments⟩ := Catalogue.act_eq_some hact
    have hlisted : s'.listed ⊆ C := by
      intro c hc
      rcases Catalogue.listed_of_step htakes hstep hc with hold | hold | hnew
      · exact hs (.inl hold)
      · exact hs (.inr hold)
      · exact hbegins c hnew
    refine ⟨Set.union_subset hlisted fun c hc => ?_, fun d hd c hc => ?_⟩
    · rcases Catalogue.filed_of_step hstep hc with hold | hnew
      · exact hs (.inr hold)
      · exact hlisted hnew
    · rcases hdocuments with ⟨-, rfl⟩ | ⟨key, l, hl, -, rfl⟩
      · cases hd
      · rw [List.mem_singleton.1 hd] at hc
        rw [DocumentSnapshot.carries_entriesOf runtime hc]
        exact hs (.inl (List.mem_map_of_mem hl))
  receive := by
    rintro - s documents s' hs hdocuments hreceive
    have hlisted : s'.listed ⊆ C := by
      intro c hc
      obtain ⟨l, hl, rfl⟩ := List.mem_map.1 hc
      rcases (Catalogue.mem_receive hreceive).1 hl with hold | ⟨d, hd, hdl⟩
      · exact hs (.inl (List.mem_map_of_mem hold))
      · exact hdocuments d hd l.card ⟨l, hdl, rfl⟩
    refine Set.union_subset hlisted fun c hc => hs (.inr ?_)
    obtain ⟨_, -, -, rfl⟩ := Catalogue.receive_eq_some hreceive
    exact hc
  restart := by
    rintro - s - hs
    refine Set.union_subset (fun c hc => by cases hc) fun c hc => hs (.inr hc)

/-- The event brings the card `c` into the system: a device begins a map with it, or someone else
writes it. -/
def Introduces {ι : Type} (s : Network ι (Catalogue K) (DocumentSnapshot K)) (c : Card K) :
    Network.Event ι (CatalogueEvent K) (DocumentSnapshot K) → Prop
  | .act i e => (s.nodes i).Begins e c
  | .inject d => d.Carries runtime c
  | _ => False

variable {runtime} {ι : Type} [DecidableEq ι]

/-- Every map on a device carries a card that was on some device or in the collection at the start,
with which "Begin Mapping" was pressed on some device, or that someone else wrote. -/
theorem card_introduced {s s' : Network ι (Catalogue K) (DocumentSnapshot K)}
    {es : List (Network.Event ι (CatalogueEvent K) (DocumentSnapshot K))}
    (hrun : (fleet runtime ι).run s es = some s') {i : ι} {c : Card K}
    (hc : c ∈ (s'.nodes i).cards) :
    (∃ j, c ∈ (s.nodes j).cards) ∨ (∃ d ∈ s.log, d.Carries runtime c) ∨
      ∃ pre e post t, es = pre ++ e :: post ∧ (fleet runtime ι).run s pre = some t ∧
        Introduces runtime t c e := by
  let C : Set (Card K) := {c | (∃ j, c ∈ (s.nodes j).cards) ∨ (∃ d ∈ s.log, d.Carries runtime c) ∨
    ∃ pre e post t, es = pre ++ e :: post ∧ (fleet runtime ι).run s pre = some t ∧
      Introduces runtime t c e}
  have hadmits : (fleet runtime ι).Meets (Node.Admits (fun _ s e => ∀ c, s.Begins e c → c ∈ C)
      (fun _ => True) fun d => ∀ c, d.Carries runtime c → c ∈ C) s es := by
    refine Machine.meets_of_forall_split fun pre e post t hsplit hpre => ?_
    cases e with
    | act i e => exact fun c hc => .inr (.inr ⟨pre, _, post, t, hsplit, hpre, hc⟩)
    | deliver i picks => trivial
    | restart i => trivial
    | inject d => exact fun c hc => .inr (.inr ⟨pre, _, post, t, hsplit, hpre, hc⟩)
  have hkept := (keeps_cards runtime ι C).run (fun j c hc => .inl ⟨j, hc⟩)
    (fun d hd c hc => .inr (.inl ⟨d, hd, hc⟩)) hadmits hrun
  exact hkept.1 i hc

/-- The map that one device shares, on the other. -/
theorem card_introduced_shared :
    ∃ s', (fleet .exact Bool).run launched shared = some s' ∧
      ∃ c ∈ (s'.nodes true).cards, c.id = 7 ∧
        ((∃ j, c ∈ (launched.nodes j).cards) ∨ (∃ d ∈ launched.log, d.Carries .exact c) ∨
          ∃ pre e post t, shared = pre ++ e :: post ∧
            (fleet .exact Bool).run launched pre = some t ∧ Introduces .exact t c e) := by
  have hsome : ((fleet .exact Bool).run launched shared).map
      (fun s' => (s'.nodes true).appState.locations.map Location.card) =
        some [⟨7, "", "", 1, 1, ⟨1, 1⟩⟩] := by
    decide +kernel
  obtain ⟨s', hrun, hcards⟩ := Option.map_eq_some_iff.1 hsome
  have hc : ⟨7, "", "", 1, 1, ⟨1, 1⟩⟩ ∈ (s'.nodes true).cards :=
    .inl (show _ ∈ (s'.nodes true).appState.locations.map Location.card by rw [hcards]; simp)
  exact ⟨s', hrun, _, hc, rfl, card_introduced hrun hc⟩

end Fleet

end Order

end EyeMaps
