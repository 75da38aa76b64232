import EyeMaps.Model.Catalogue

/-!
# The merge is stable

What `removeDuplicates` returns is the list of first occurrences, and merging a fetch into a list
without repetitions leaves every index of that list where it was, however the two overlap and
whatever repeats within the fetch.  Merging the same fetch again changes nothing.  All this needs
of `==` is that it is an equivalence: equal elements need not be the same, as with the two zeros
of a coordinate.
-/

namespace EyeMaps

section RemoveDuplicates

variable {α : Type*} [BEq α]

/-- The elements of the list that equal none before them, in order. -/
def firstOccurrences (l : List α) : List α :=
  (l.zipIdx.filter fun p => !(l.take p.2).contains p.1).map Prod.fst

theorem firstOccurrences_append_singleton (l : List α) (a : α) :
    firstOccurrences (l ++ [a]) =
      firstOccurrences l ++ if l.contains a = false then [a] else [] := by
  have hearlier : l.zipIdx.filter (fun p => !((l ++ [a]).take p.2).contains p.1) =
      l.zipIdx.filter (fun p => !(l.take p.2).contains p.1) := by
    refine List.filter_congr fun p hp => ?_
    have hlt : p.2 < l.length := by
      obtain ⟨hlt, -⟩ := List.getElem?_eq_some_iff.1 (List.mk_mem_zipIdx_iff_getElem?.1 hp)
      exact hlt
    rw [List.take_append_of_le_length hlt.le]
  rw [firstOccurrences, List.zipIdx_append, List.filter_append, hearlier, List.map_append]
  cases hcontains : l.contains a <;> simp [firstOccurrences, hcontains]

variable [EquivBEq α]

/-- The loop keeps the first occurrences. -/
theorem removeDuplicates_eq_firstOccurrences (l : List α) :
    removeDuplicates l = firstOccurrences l := by
  induction l using List.reverseRecOn with
  | nil => rfl
  | append_singleton l a ih =>
    have hcontains : (firstOccurrences l).contains a = l.contains a := by
      rw [← ih, contains_removeDuplicates]
    rw [removeDuplicates_append, List.foldl_cons, List.foldl_nil, ih,
      firstOccurrences_append_singleton, appendNew, hcontains]
    split
    · rfl
    · rw [List.append_nil]

theorem removeDuplicates_subset (l : List α) : removeDuplicates l ⊆ l := by
  rw [removeDuplicates_eq_firstOccurrences]
  intro a ha
  obtain ⟨p, hp, rfl⟩ := List.mem_map.1 ha
  have hmem : p ∈ l.zipIdx := (List.mem_filter.1 hp).1
  exact List.mem_of_getElem? (List.mk_mem_zipIdx_iff_getElem?.1 hmem)

/-- `removeDuplicates` keeps the first occurrence of each element and nothing else; merging into a
list without repetitions keeps its indices; and merging the same elements again changes
nothing. -/
theorem removeDuplicates_stable_merge :
    (∀ l : List α, Distinct (removeDuplicates l) ∧ removeDuplicates l ⊆ l ∧
        (∀ a, (removeDuplicates l).contains a = l.contains a) ∧
        removeDuplicates l = firstOccurrences l) ∧
      (∀ l r : List α, Distinct l → l <+: removeDuplicates (l ++ r) ∧
        ∀ i < l.length, (removeDuplicates (l ++ r))[i]? = l[i]?) ∧
      ∀ l r : List α,
        removeDuplicates (removeDuplicates (l ++ r) ++ r) = removeDuplicates (l ++ r) := by
  refine ⟨fun l => ?_, fun l r hl => ?_, fun l r => ?_⟩
  · exact ⟨distinct_removeDuplicates l, removeDuplicates_subset l,
      fun a => contains_removeDuplicates, removeDuplicates_eq_firstOccurrences l⟩
  · have hinitial := prefix_removeDuplicates_append hl r
    refine ⟨hinitial, fun i hi => ?_⟩
    obtain ⟨rest, hrest⟩ := hinitial
    rw [← hrest, List.getElem?_append_left hi]
  · refine removeDuplicates_append_of_contains (distinct_removeDuplicates _) fun a ha => ?_
    have hr : r.contains a = true := List.contains_iff_exists_mem_beq.2 ⟨a, ha, BEq.rfl⟩
    rw [contains_removeDuplicates, List.contains_append, hr, Bool.or_true]

end RemoveDuplicates

/-- The hallway keeps its index when the entrance is fetched with it, twice. -/
theorem hallway_keeps_index :
    (removeDuplicates [hallway, entrance, hallway, entrance])[0]? = some hallway ∧
      removeDuplicates (removeDuplicates [hallway, entrance, hallway] ++ [entrance, hallway]) =
        removeDuplicates [hallway, entrance, hallway] := by
  obtain ⟨-, hmerge, hagain⟩ := removeDuplicates_stable_merge (α := Location ℚ)
  have hindex := (hmerge [hallway] [entrance, hallway, entrance] (List.pairwise_singleton _ _)).2
  exact ⟨hindex 0 (by decide), hagain [hallway] [entrance, hallway]⟩

end EyeMaps
