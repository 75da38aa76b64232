import EyeMaps.Framework.Network
import EyeMaps.Model.Catalogue
import EyeMaps.Model.FirestoreDecoder

/-!
# Devices that share the collection

Everyone who runs the app writes to one collection of Firestore, `locations`, and fetches all of it.
`device` is the program of one device: the machine `catalogue`, the documents that its steps write,
the completion of `loadNearby` with the documents that are delivered, and the launch of the app from
what the last one left on the device.  `fleet` is the network of any number of devices.

Of Firestore the network keeps only that a delivered document was written once.  A write replaces
the document of its id, so that fewer documents can be delivered than the network allows.
-/

namespace EyeMaps

open Framework

variable {K : Type}

/-! ## Documents -/

/-- A document of the collection. -/
structure DocumentSnapshot (K : Type) where
  documentID : String
  data : List (String × NSObject K)

/-- `try setData(from:)` of the document `key`; an error is caught and nothing is written. -/
def setData (key : UUID) (l : Location K) : Option (List (DocumentSnapshot K)) :=
  (FirestoreEncoder.encode .location l).map fun data =>
    (data.map fun data => ⟨key.uuidString, data⟩).toList

theorem setData_eq (key : UUID) (l : Location K) :
    setData key l = some [⟨key.uuidString, EncodableType.entriesOf l⟩] := by
  rw [setData, FirestoreEncoder.encode_location]
  rfl

section Order

variable [Field K] [LinearOrder K] (runtime : Runtime K)

/-- `Result { try document.data(as: Location.self) }`; `none` where the program stops. -/
def DocumentSnapshot.result (document : DocumentSnapshot K) : Option (Decoded K) :=
  match FirestoreDecoder.decode "Location" (.location runtime) document.data with
  | .ok user => some (.success (some user))
  | .error (.thrown _) => some .failure
  | .error .trap => none

/-! ## One device -/

namespace Catalogue

/-- The events that a device takes of its own.  The list is written to the file when its rows
disappear, which are there only if `ready`; a fetch completes by a delivery. -/
def takes (s : Catalogue K) : CatalogueEvent K → Bool
  | .nearbyLoaded _ => false
  | .app .writeFile => s.ready
  | _ => true

/-- An event on the device, and the documents that it writes. -/
def act (s : Catalogue K) (e : CatalogueEvent K) :
    Option (Catalogue K × List (DocumentSnapshot K)) :=
  if s.takes e then do
    let s' ← (catalogue K).step s e
    let documents ← (s'.appState.documents.drop s.appState.documents.length).mapM
      fun p => setData p.1 p.2
    some (s', documents.flatten)
  else none

/-- A fetch completes with the documents that `getDocuments` delivers. -/
def receive (s : Catalogue K) (documents : List (DocumentSnapshot K)) : Option (Catalogue K) := do
  let results ← documents.mapM (DocumentSnapshot.result runtime)
  s.nearbyLoaded (SelectView.userList results)

/-- The app is launched again, with the file and the stored maps of before. -/
def relaunch (s : Catalogue K) : Catalogue K := initial s.appState.file s.appState.storedData

end Catalogue

/-- The program of a device. -/
def device : Node (Catalogue K) (CatalogueEvent K) (DocumentSnapshot K) where
  act := Catalogue.act
  receive := Catalogue.receive runtime
  restart := Catalogue.relaunch

/-- The machine of the devices `ι` and the collection. -/
def fleet (ι : Type) [DecidableEq ι] :
    Machine (Network ι (Catalogue K) (DocumentSnapshot K))
      (Network.Event ι (CatalogueEvent K) (DocumentSnapshot K)) :=
  (device runtime).network ι

/-! ## What one device can do -/

namespace Catalogue

variable {runtime} {s s' : Catalogue K} {e : CatalogueEvent K}
  {documents : List (DocumentSnapshot K)}

/-- An event writes no document, or the one of an entry of the list. -/
theorem act_eq_some (h : s.act e = some (s', documents)) :
    s.takes e = true ∧ (catalogue K).step s e = some s' ∧
      ((s'.appState.documents = s.appState.documents ∧ documents = []) ∨
        ∃ key, ∃ l ∈ s.appState.locations,
          s'.appState.documents = s.appState.documents ++ [(key, l)] ∧
            documents = [⟨key.uuidString, EncodableType.entriesOf l⟩]) := by
  unfold act at h
  split at h
  case isFalse => cases h
  case isTrue htakes =>
    obtain ⟨t, hstep, h⟩ := Option.bind_eq_some_iff.1 h
    obtain ⟨written, hwritten, h⟩ := Option.bind_eq_some_iff.1 h
    cases h
    refine ⟨htakes, hstep, ?_⟩
    rcases step_documents hstep with hsame | ⟨key, l, hl, hpublished⟩
    · rw [hsame, List.drop_length, List.mapM_nil] at hwritten
      cases hwritten
      exact .inl ⟨hsame, rfl⟩
    · rw [hpublished, List.drop_left, List.mapM_cons, List.mapM_nil, setData_eq] at hwritten
      cases hwritten
      exact .inr ⟨key, l, hl, hpublished, rfl⟩

/-- A fetch completes with what its documents decode to, none of which stops the program. -/
theorem receive_eq_some (h : s.receive runtime documents = some s') :
    ∃ results, documents.mapM (DocumentSnapshot.result runtime) = some results ∧
      0 < s.requests ∧ s' = { s with
        appState :=
          { s.appState with
            locations := removeDuplicates (s.appState.locations ++ results.filterMap Decoded.user) }
        requests := s.requests - 1 } := by
  obtain ⟨results, hresults, h⟩ := Option.bind_eq_some_iff.1 h
  rw [SelectView.userList_eq_filterMap] at h
  obtain ⟨hrequests, hs'⟩ := step_nearbyLoaded (show (catalogue K).step s _ = some s' from h)
  exact ⟨results, hresults, hrequests, hs'⟩

end Catalogue

end Order

/-! ## Two devices

The runs on fixed maps in the later modules start here. -/

/-- Two devices with the app just launched, and an empty collection. -/
def launched : Network Bool (Catalogue ℚ) (DocumentSnapshot ℚ) where
  nodes := fun _ => Catalogue.initial none fun _ => none
  log := []

/-- A map is begun on one of the devices and its view opened. -/
def begun : List (Network.Event Bool (CatalogueEvent ℚ) (DocumentSnapshot ℚ)) :=
  [.act false .selectAppear, .act false (.tapAdd 7), .act false (.render true),
    .act false (.beginMapping 1 1), .act false (.render true), .act false (.render true)]

/-- The map is published and fetched by the other device. -/
def shared : List (Network.Event Bool (CatalogueEvent ℚ) (DocumentSnapshot ℚ)) :=
  begun ++ [.act false .dismiss, .act true .selectAppear, .deliver true [0]]

end EyeMaps
