import EyeMaps.Model.Fleet
import EyeMaps.Model.UserDataConverter

/-!
# Devices over a collection of values

In `fleet` a device reads the very dictionaries that devices write.  Between the two there is
Firestore: `setData` has a dictionary converted to the values of a document, and the dictionary of a
snapshot is made from the values again.  `storedFleet` is the network of the same devices over a
collection of such documents.
-/

namespace EyeMaps

open Framework

variable {K : Type}

/-- A document of the collection as Firestore keeps it. -/
structure StoredDocument (K : Type) where
  documentID : String
  data : ObjectValue K

namespace StoredDocument

variable (database : DatabaseId)

/-- `setData(_:)` of a dictionary; an exception of the converter stops the program (`none`).  What
transforms there are is computed by the server, and is written from outside. -/
def setData (document : DocumentSnapshot K) : Option (StoredDocument K) :=
  match UserDataConverter.parsedSetData database document.data with
  | .ok parsed => some ⟨document.documentID, parsed.data⟩
  | .error _ => none

/-- The snapshot of a document that is fetched, with what `data()` gives for it. -/
def snapshot (document : StoredDocument K) : DocumentSnapshot K :=
  ⟨document.documentID, convertedObject database document.data⟩

end StoredDocument

variable [Field K] [LinearOrder K] (runtime : Runtime K) (database : DatabaseId)

/-- The program of a device, with what Firestore does of it. -/
def storedDevice : Node (Catalogue K) (CatalogueEvent K) (StoredDocument K) where
  act s e := do
    let (s', documents) ← s.act e
    let stored ← documents.mapM (StoredDocument.setData database)
    some (s', stored)
  receive s documents := s.receive runtime (documents.map (StoredDocument.snapshot database))
  restart := Catalogue.relaunch

/-- The machine of the devices `ι` and the collection of values. -/
def storedFleet (ι : Type) [DecidableEq ι] :
    Machine (Network ι (Catalogue K) (StoredDocument K))
      (Network.Event ι (CatalogueEvent K) (StoredDocument K)) :=
  (storedDevice runtime database).network ι

end EyeMaps
