import EyeMaps.Model.StoredFleet
import EyeMaps.Properties.ReadBack

/-!
# The collection of dictionaries is enough

What Firestore makes of a document on the way makes no difference to a device: the fleet over the
values of the documents and the fleet over their dictionaries run in step
(`storedFleet_run`).  So what holds of every run of `fleet` holds of the devices over Firestore.
-/

namespace EyeMaps

open Framework Document FirestoreDecoder UserDataConverter

variable {K : Type} [Field K] [LinearOrder K] (runtime : Runtime K) (database : DatabaseId)

/-! ## One document -/

/-- A document in the two collections: the decoder makes the same of both. -/
structure StoredDocument.Shows (stored : StoredDocument K) (document : DocumentSnapshot K) :
    Prop where
  documentID : stored.documentID = document.documentID
  result : (stored.snapshot database).result runtime = document.result runtime

variable {runtime} {database}

/-- Documents that decode to the same locations, and stop the program alike, have the same
outcome. -/
theorem DocumentSnapshot.result_congr {d d' : DocumentSnapshot K}
    (hok : ∀ l, IsDocumentOf runtime d.data l ↔ IsDocumentOf runtime d'.data l)
    (htrap : IsTrap runtime d.data ↔ IsTrap runtime d'.data) :
    d.result runtime = d'.result runtime := by
  simp only [← decode_eq_ok_iff] at hok
  simp only [← decode_eq_trap_iff] at htrap
  unfold result
  split
  next user huser => rw [(hok user).1 huser]
  next error herror =>
    split
    next user huser => cases herror.symm.trans ((hok user).2 huser)
    next => rfl
    next htrap' => cases herror.symm.trans (htrap.2 htrap')
  next htrap' => rw [htrap.1 htrap']

variable (runtime) (database) in
/-- A location that is written shows the same as its dictionary. -/
theorem setData_entriesOf (key : String) (l : Location K) :
    ∃ stored, StoredDocument.setData database ⟨key, EncodableType.entriesOf l⟩ = some stored ∧
      stored.Shows runtime database ⟨key, EncodableType.entriesOf l⟩ := by
  obtain ⟨parsed, hok, -⟩ := parsedSetData_entriesOf database l
  have hfaithful : Faithful (readBack (K := K) database) := faithful_readBack database
  have himage := imageEntry_readBack (wellKeyed_entriesOf l) hok
  have hnumbers := numbersKept_entriesOf l
  refine ⟨⟨key, parsed.data⟩, by rw [StoredDocument.setData, hok], rfl, ?_⟩
  refine DocumentSnapshot.result_congr (fun l' => ?_) ?_
  · exact (hfaithful.isDocumentOf_iff himage l').trans (and_iff_left hnumbers)
  · exact (hfaithful.isTrap_iff himage).trans (and_iff_left hnumbers)

/-! ## One device -/

theorem mapM_result_eq {stored : List (StoredDocument K)} {documents : List (DocumentSnapshot K)}
    (h : List.Forall₂ (StoredDocument.Shows runtime database) stored documents) :
    (stored.map (StoredDocument.snapshot database)).mapM (DocumentSnapshot.result runtime) =
      documents.mapM (DocumentSnapshot.result runtime) := by
  induction h with
  | nil => rfl
  | cons hhead _ ih => rw [List.map_cons, List.mapM_cons, List.mapM_cons, hhead.result, ih]

theorem storedDevice_matches :
    (storedDevice runtime database).Matches (StoredDocument.Shows runtime database)
      (device runtime) where
  act := by
    intro s e
    show Option.Rel _ ((s.act e).bind _) (s.act e)
    cases hact : s.act e with
    | none => exact .none
    | some p =>
      obtain ⟨s', documents⟩ := p
      obtain ⟨-, -, ⟨-, rfl⟩ | ⟨key, l, -, -, rfl⟩⟩ := Catalogue.act_eq_some hact
      · exact .some ⟨rfl, .nil⟩
      -- The one document that an event can write is that of a location.
      · obtain ⟨stored, hstored, hshows⟩ := setData_entriesOf runtime database key.uuidString l
        show Option.Rel _ ((List.mapM (StoredDocument.setData database) [_]).bind _) _
        rw [List.mapM_cons, List.mapM_nil, hstored]
        exact .some ⟨rfl, .cons hshows .nil⟩
  receive := by
    intro s stored documents h
    show s.receive runtime _ = s.receive runtime _
    rw [Catalogue.receive, Catalogue.receive, mapM_result_eq h]
  restart := fun _ => rfl

/-! ## All devices -/

variable {ι : Type} [DecidableEq ι]

/-- The fleet over the values of the documents runs in step with the fleet over the dictionaries
that their snapshots show: an event can happen in both or in none, the devices are always in the
same states, and the decoder makes the same of the documents in both collections. -/
theorem storedFleet_run (runtime : Runtime K) (database : DatabaseId)
    (s : Network ι (Catalogue K) (StoredDocument K))
    (es : List (Network.Event ι (CatalogueEvent K) (StoredDocument K))) :
    Option.Rel (Network.Matches (StoredDocument.Shows runtime database))
      ((storedFleet runtime database ι).run s es)
      ((fleet runtime ι).run (s.map (StoredDocument.snapshot database))
        (es.map (Network.Event.map (StoredDocument.snapshot database)))) :=
  storedDevice_matches.run_map (fun _ => ⟨rfl, rfl⟩) s es

end EyeMaps
