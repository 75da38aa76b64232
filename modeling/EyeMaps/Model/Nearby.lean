import Mathlib.Algebra.Field.Rat
import Mathlib.Algebra.Order.Field.Basic
import EyeMaps.Model.Location

/-!
# Fetching the nearby locations

`loadNearby` of `SelectView.swift`.  The function computes the corners of a box of some ten miles
around the user, builds a query from them and then asks the whole collection for its documents.
Firestore enters as data: what `getDocuments` delivers for the collection, and for each document
the outcome of decoding it, which stops the program where the document holds a point off the Earth.
-/

namespace EyeMaps

variable {K : Type}

/-- The outcome of `document.data(as: Location.self)` where it returns or throws.  It can also stop
the program, so that a document has an `Option` of it. -/
inductive Decoded (K : Type)
  | success (user : Option (Location K))
  | failure
  deriving DecidableEq

/-- The location of a document that decodes to one. -/
def Decoded.user : Decoded K → Option (Location K)
  | .success user => user
  | .failure => none

section Comparison

variable [Field K] [LinearOrder K]

/-- `GeoPoint(latitude:longitude:)`; out of range it throws. -/
def GeoPoint.create (latitude longitude : K) : Option (GeoPoint K) :=
  if latitude < -90 ∨ latitude > 90 then none
  else if longitude < -180 ∨ longitude > 180 then none
  else some ⟨latitude, longitude⟩

/-- The range of latitudes and longitudes. -/
def OnEarth (latitude longitude : K) : Prop :=
  (-90 ≤ latitude ∧ latitude ≤ 90) ∧ (-180 ≤ longitude ∧ longitude ≤ 180)

instance (latitude longitude : K) : Decidable (OnEarth latitude longitude) :=
  inferInstanceAs (Decidable ((_ ∧ _) ∧ (_ ∧ _)))

theorem GeoPoint.create_eq_some_iff {latitude longitude : K} {p : GeoPoint K} :
    GeoPoint.create latitude longitude = some p ↔
      OnEarth latitude longitude ∧ p = ⟨latitude, longitude⟩ := by
  unfold GeoPoint.create OnEarth
  by_cases hlat : latitude < -90 ∨ latitude > 90
  · rw [if_pos hlat]
    have hout : ¬ (-90 ≤ latitude ∧ latitude ≤ 90) := by
      rwa [not_and_or, not_le, not_le]
    simp only [hout, false_and, reduceCtorEq]
  · rw [if_neg hlat]
    have hlat' : -90 ≤ latitude ∧ latitude ≤ 90 := by
      rwa [not_or, not_lt, gt_iff_lt, not_lt] at hlat
    by_cases hlon : longitude < -180 ∨ longitude > 180
    · rw [if_pos hlon]
      have hout : ¬ (-180 ≤ longitude ∧ longitude ≤ 180) := by
        rwa [not_and_or, not_le, not_le]
      simp only [hout, and_false, false_and, reduceCtorEq]
    · rw [if_neg hlon]
      have hlon' : -180 ≤ longitude ∧ longitude ≤ 180 := by
        rwa [not_or, not_lt, gt_iff_lt, not_lt] at hlon
      simp only [hlat', hlon', and_self, true_and, Option.some.injEq, eq_comm]

namespace SelectView

/-! ## The box -/

def lat : K := 0.0144927536231884

def lon : K := 0.0181818181818182

def lowerLat (userLatitude : K) : K := userLatitude - lat * 10.0

def lowerLon (userLongitude : K) : K := userLongitude - lon * 10.0

def greaterLat (userLatitude : K) : K := userLatitude + lat * 10.0

def greaterLon (userLongitude : K) : K := userLongitude + lon * 10.0

/-- The corners `lesserGeopoint` and `greaterGeopoint` of the box around the user. -/
def corners (userLatitude userLongitude : K) : Option (GeoPoint K × GeoPoint K) := do
  let lesserGeopoint ← GeoPoint.create (lowerLat userLatitude) (lowerLon userLongitude)
  let greaterGeopoint ← GeoPoint.create (greaterLat userLatitude) (greaterLon userLongitude)
  some (lesserGeopoint, greaterGeopoint)

/-! ## The documents -/

/-- The loop over the documents. -/
def userList (documents : List (Decoded K)) : List (Location K) :=
  documents.foldl
    (fun userList document =>
      match document with
      | .success (some user) => userList ++ [user]
      | .success none => userList
      | .failure => userList) []

omit [Field K] [LinearOrder K] in
/-- The loop keeps the documents that decode, in order. -/
theorem userList_eq_filterMap (documents : List (Decoded K)) :
    userList documents = documents.filterMap Decoded.user := by
  have hloop (acc : List (Location K)) : documents.foldl
      (fun userList document =>
        match document with
        | .success (some user) => userList ++ [user]
        | .success none => userList
        | .failure => userList) acc = acc ++ documents.filterMap Decoded.user := by
    induction documents generalizing acc with
    | nil => simp
    | cons document documents ih =>
      rw [List.foldl_cons, ih]
      rcases document with (_ | user) | _ <;> simp [Decoded.user, List.filterMap_cons]
  exact hloop []

/-- What `loadNearby` hands to `performAction`, `documents` being what the collection delivers, or
`nil` with an error; a document at which decoding stops the program is `none`, and so is the result.
The query between the two corners is built and not asked. -/
def loadNearby (userLatitude userLongitude : K) (documents : Option (List (Option (Decoded K)))) :
    Option (List (Location K)) := do
  let _query ← corners userLatitude userLongitude
  let results ← (documents.getD []).mapM id
  some (userList results)

end SelectView

end Comparison

end EyeMaps
