import Mathlib.Data.List.Basic

/-!
# Updating one entry of a list

Objects are kept in lists and written in place with `List.set`.  The lemmas here say what such a
write leaves alone: every other entry (`getElem?_set_cases`), and every attribute that the new
object shares with the old one (`map_set_eq_map`).  New objects are appended
(`getElem?_append_cases`).  The last lemmas are about loops over the entries that may fail at each.
-/

namespace Framework

variable {α β : Type*} {l : List α} {i j : ℕ} {a a' b : α}

/-- Writing an object that agrees with the old one on the attribute `f` keeps the attribute of
every entry. -/
theorem map_set_eq_map {f : α → β} (h : l[i]? = some a) (hf : f a' = f a) :
    (l.set i a').map f = l.map f := by
  have hi : (l.map f)[i]? = some (f a) := by simp [h]
  rw [List.map_set, hf]
  obtain ⟨hlt, hget⟩ := List.getElem?_eq_some_iff.1 hi
  rw [← hget, List.set_getElem_self]

/-- An entry of the updated list is the written object or an entry of the old list. -/
theorem getElem?_set_cases (h : (l.set i a')[j]? = some b) :
    (j = i ∧ b = a') ∨ (j ≠ i ∧ l[j]? = some b) := by
  by_cases hij : i = j
  · subst hij
    obtain ⟨hlt, hget⟩ := List.getElem?_eq_some_iff.1 h
    exact .inl ⟨rfl, by simpa using hget.symm⟩
  · rw [List.getElem?_set_ne hij] at h
    exact .inr ⟨fun h => hij h.symm, h⟩

/-- An entry of a longer list is an entry of the list or one of the appended objects. -/
theorem getElem?_append_cases {r : List α} (h : (l ++ r)[i]? = some b) :
    l[i]? = some b ∨ (l.length ≤ i ∧ b ∈ r) := by
  by_cases hi : i < l.length
  · rw [List.getElem?_append_left hi] at h
    exact .inl h
  · have hle : l.length ≤ i := Nat.le_of_not_lt hi
    rw [List.getElem?_append_right hle] at h
    exact .inr ⟨hle, List.mem_of_getElem? h⟩

/-- Reading back what was written. -/
theorem getElem?_set_self' (h : l[i]? = some a) : (l.set i a')[i]? = some a' := by
  obtain ⟨hlt, -⟩ := List.getElem?_eq_some_iff.1 h
  simp [hlt]

/-- Writing an entry changes nothing exactly when the entry held that value. -/
theorem set_eq_self_iff : l.set i a = l ↔ ∀ b ∈ l[i]?, b = a := by
  constructor
  · intro h b hb
    have hset : (l.set i a)[i]? = some a := getElem?_set_self' hb
    rw [h, hb] at hset
    exact Option.some.inj hset
  · intro h
    refine List.ext_getElem? fun j => ?_
    by_cases hij : i = j
    · subst hij
      cases hget : l[i]? with
      | none => simpa using hget
      | some b =>
        rw [getElem?_set_self' hget, h b hget]
    · rw [List.getElem?_set_ne hij]

/-! ## Loops that may fail -/

/-- The results of a loop are those at its entries. -/
theorem mem_of_mapM_eq_some {f : α → Option β} {l' : List β} {b : β} (h : l.mapM f = some l') :
    b ∈ l' ↔ ∃ a ∈ l, f a = some b := by
  induction l generalizing l' with
  | nil =>
    cases h
    simp
  | cons a l ih =>
    rw [List.mapM_cons] at h
    obtain ⟨b', hb', h⟩ := Option.bind_eq_some_iff.1 h
    obtain ⟨rest, hrest, h⟩ := Option.bind_eq_some_iff.1 h
    cases h
    rw [List.mem_cons, ih hrest, List.exists_mem_cons_iff, hb', Option.some.injEq, eq_comm]

/-- A loop goes through if it does at each entry. -/
theorem exists_mapM_eq_some_iff {f : α → Option β} :
    (∃ l', l.mapM f = some l') ↔ ∀ a ∈ l, ∃ b, f a = some b := by
  induction l with
  | nil => simp
  | cons a l ih =>
    rw [List.forall_mem_cons, ← ih]
    simp only [List.mapM_cons, Option.bind_eq_bind, Option.bind_eq_some_iff, Option.pure_def,
      Option.some.injEq]
    constructor
    · rintro ⟨_, b, hb, rest, hrest, rfl⟩
      exact ⟨⟨b, hb⟩, rest, hrest⟩
    · rintro ⟨⟨b, hb⟩, rest, hrest⟩
      exact ⟨_, b, hb, rest, hrest, rfl⟩

end Framework
