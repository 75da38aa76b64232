import Mathlib.Data.List.Forall2
import Mathlib.Data.List.Nodup
import Mathlib.Data.String.Basic

/-!
# Documents

The trees that structured data is written to and read from: scalars, arrays, and dictionaries keyed
by strings.  A dictionary is the list of its entries, of which `setEntry` and `insertEntry` keep one
for each key, in the order of writing or of the keys.  A path leads from a tree to one of its parts,
one step at a time (`Document.at?`, `Document.HasPart`).

`Document.Image f t t'` says that `t'` holds, at every path, the image under `f` of what `t` holds
there, however the entries of their dictionaries are ordered; a scalar without an image is left out.
Of the images of a tree at most one is sorted (`Document.Image.unique`).
-/

namespace Framework

/-! ## Entries -/

section Entries

variable {β γ : Type*}

/-- The keys of the entries are different. -/
def DistinctKeys (entries : List (String × β)) : Prop := (entries.map Prod.fst).Nodup

instance (entries : List (String × β)) : Decidable (DistinctKeys entries) :=
  inferInstanceAs (Decidable (entries.map Prod.fst).Nodup)

/-- The keys of the entries increase. -/
def SortedKeys (entries : List (String × β)) : Prop := entries.Pairwise fun p q => p.1 < q.1

/-- Write the entry of a key: in its place if there is one, at the end otherwise. -/
def setEntry (key : String) (b : β) : List (String × β) → List (String × β)
  | [] => [(key, b)]
  | (k, b') :: entries =>
    if k = key then (key, b) :: entries else (k, b') :: setEntry key b entries

/-- Write the entry of a key among entries that are sorted. -/
def insertEntry (key : String) (b : β) : List (String × β) → List (String × β)
  | [] => [(key, b)]
  | (k, b') :: entries =>
    if k < key then (k, b') :: insertEntry key b entries
    else if k = key then (key, b) :: entries
    else (key, b) :: (k, b') :: entries

theorem setEntry_of_forall_ne {key : String} {b : β} {entries : List (String × β)}
    (h : ∀ p ∈ entries, p.1 ≠ key) : setEntry key b entries = entries ++ [(key, b)] := by
  induction entries with
  | nil => rfl
  | cons p entries ih =>
    have hp : p.1 ≠ key := h p List.mem_cons_self
    rw [setEntry, if_neg hp, ih fun p hp => h p (List.mem_cons_of_mem _ hp), List.cons_append]

theorem lookup_insertEntry_self (key : String) (b : β) (entries : List (String × β)) :
    (insertEntry key b entries).lookup key = some b := by
  induction entries with
  | nil => simp [insertEntry]
  | cons p entries ih =>
    by_cases hlt : p.1 < key
    · have hne : (key == p.1) = false := by simpa using hlt.ne'
      rw [insertEntry, if_pos hlt, List.lookup_cons, hne, ih]
    · rw [insertEntry, if_neg hlt]
      split <;> simp

theorem lookup_insertEntry_of_ne {key key' : String} (h : key' ≠ key) (b : β)
    (entries : List (String × β)) :
    (insertEntry key b entries).lookup key' = entries.lookup key' := by
  have hne : (key' == key) = false := by simpa using h
  induction entries with
  | nil => simp [insertEntry, List.lookup_cons, hne]
  | cons p entries ih =>
    by_cases hlt : p.1 < key
    · rw [insertEntry, if_pos hlt, List.lookup_cons, List.lookup_cons, ih]
    · rw [insertEntry, if_neg hlt]
      by_cases heq : p.1 = key
      · rw [if_pos heq, List.lookup_cons, List.lookup_cons, heq, hne]
      · rw [if_neg heq, List.lookup_cons, hne]

theorem mem_insertEntry {key : String} {b : β} {entries : List (String × β)} {p : String × β}
    (h : p ∈ insertEntry key b entries) : p = (key, b) ∨ p ∈ entries := by
  induction entries with
  | nil => exact .inl (List.mem_singleton.1 h)
  | cons q entries ih =>
    rw [insertEntry] at h
    split at h
    · rcases List.mem_cons.1 h with rfl | h
      · exact .inr List.mem_cons_self
      · exact (ih h).imp_right (List.mem_cons_of_mem _)
    · split at h
      · exact (List.mem_cons.1 h).imp_right (List.mem_cons_of_mem _)
      · exact List.mem_cons.1 h

theorem sortedKeys_insertEntry {entries : List (String × β)} (h : SortedKeys entries)
    (key : String) (b : β) : SortedKeys (insertEntry key b entries) := by
  induction entries with
  | nil => exact List.pairwise_singleton _ _
  | cons p entries ih =>
    obtain ⟨hp, hentries⟩ := List.pairwise_cons.1 h
    rw [insertEntry]
    split
    next hlt =>
      refine List.pairwise_cons.2 ⟨fun q hq => ?_, ih hentries⟩
      rcases mem_insertEntry hq with rfl | hq
      · exact hlt
      · exact hp q hq
    next hge =>
      split
      next heq => exact List.pairwise_cons.2 ⟨fun q hq => heq ▸ hp q hq, hentries⟩
      next hne =>
        have hkey : key < p.1 := lt_of_le_of_ne (not_lt.1 hge) (Ne.symm hne)
        refine List.pairwise_cons.2 ⟨fun q hq => ?_, h⟩
        rcases List.mem_cons.1 hq with rfl | hq
        · exact hkey
        · exact hkey.trans (hp q hq)

theorem SortedKeys.distinctKeys {entries : List (String × β)} (h : SortedKeys entries) :
    DistinctKeys entries :=
  List.pairwise_map.2 (List.Pairwise.imp (fun hlt => ne_of_lt hlt) h)

theorem mem_of_lookup_eq_some {entries : List (String × β)} {key : String} {b : β}
    (h : entries.lookup key = some b) : (key, b) ∈ entries := by
  induction entries with
  | nil => cases h
  | cons p entries ih =>
    rw [List.lookup_cons] at h
    split at h
    next heq =>
      obtain rfl : p.2 = b := Option.some.inj h
      obtain rfl : key = p.1 := beq_iff_eq.1 heq
      exact List.mem_cons_self
    next => exact List.mem_cons_of_mem _ (ih h)

theorem lookup_eq_some_of_mem {entries : List (String × β)} (h : DistinctKeys entries)
    {key : String} {b : β} (hmem : (key, b) ∈ entries) : entries.lookup key = some b := by
  induction entries with
  | nil => cases hmem
  | cons p entries ih =>
    obtain ⟨hp, hentries⟩ := List.nodup_cons.1 h
    rcases List.mem_cons.1 hmem with rfl | hmem
    · rw [List.lookup_cons_self]
    · have hne : (key == p.1) = false := by
        rw [beq_eq_false_iff_ne]
        rintro rfl
        exact hp (List.mem_map.2 ⟨(p.1, b), hmem, rfl⟩)
      rw [List.lookup_cons, hne, ih hentries hmem]

/-- Sorted entries are determined by what is under each key. -/
theorem SortedKeys.eq_of_lookup {entries entries' : List (String × β)} (h : SortedKeys entries)
    (h' : SortedKeys entries') (hlookup : ∀ key, entries.lookup key = entries'.lookup key) :
    entries = entries' := by
  have hperm : entries.Perm entries' := by
    refine (List.perm_ext_iff_of_nodup (List.Nodup.of_map Prod.fst h.distinctKeys)
      (List.Nodup.of_map Prod.fst h'.distinctKeys)).2
        fun ⟨key, b⟩ => ⟨fun hmem => ?_, fun hmem => ?_⟩
    · exact mem_of_lookup_eq_some
        ((hlookup key).symm.trans (lookup_eq_some_of_mem h.distinctKeys hmem))
    · exact mem_of_lookup_eq_some
        ((hlookup key).trans (lookup_eq_some_of_mem h'.distinctKeys hmem))
  exact hperm.eq_of_pairwise (fun p q _ _ hpq hqp => absurd hqp hpq.not_gt) h h'

theorem lookup_map_snd (f : β → γ) (entries : List (String × β)) (key : String) :
    (entries.map fun p => (p.1, f p.2)).lookup key = (entries.lookup key).map f := by
  induction entries with
  | nil => rfl
  | cons p entries ih =>
    rw [List.map_cons, List.lookup_cons, List.lookup_cons, ih]
    split <;> rfl

end Entries

/-! ## Trees and paths -/

inductive Document (α : Type*)
  | leaf (a : α)
  | array (elements : List (Document α))
  | dictionary (entries : List (String × Document α))

namespace Document

variable {α β : Type*}

/-- Induction on a tree, through the elements of its arrays and the entries of its dictionaries. -/
@[elab_as_elim]
theorem induction {motive : Document α → Prop} (leaf : ∀ a, motive (.leaf a))
    (array : ∀ elements, (∀ t ∈ elements, motive t) → motive (.array elements))
    (dictionary : ∀ entries, (∀ p ∈ entries, motive p.2) → motive (.dictionary entries)) :
    ∀ t, motive t
  | .leaf a => leaf a
  | .array elements => array elements fun t _ => induction leaf array dictionary t
  | .dictionary entries => dictionary entries fun p hp =>
    have : sizeOf p.2 < 1 + sizeOf entries := by
      have hp := List.sizeOf_lt_of_mem hp
      rcases p with ⟨key, t⟩
      show sizeOf t < 1 + sizeOf entries
      simp only [Prod.mk.sizeOf_spec] at hp
      omega
    induction leaf array dictionary p.2

/-- One step of a path. -/
inductive Step
  | key (key : String)
  | index (i : ℕ)
  deriving DecidableEq

/-- The part of a tree that one step leads to. -/
def child? : Document α → Step → Option (Document α)
  | .dictionary entries, .key key => entries.lookup key
  | .array elements, .index i => elements[i]?
  | _, _ => none

/-- The part of a tree that a path leads to. -/
def at? (t : Document α) (path : List Step) : Option (Document α) := path.foldlM child? t

@[simp] theorem at?_nil (t : Document α) : t.at? [] = some t := rfl

theorem at?_cons (t : Document α) (step : Step) (path : List Step) :
    t.at? (step :: path) = (t.child? step).bind fun t' => t'.at? path := rfl

/-- The tree has the part at the path; of entries with the same key each counts. -/
inductive HasPart : Document α → List Step → Document α → Prop
  | here (t) : HasPart t [] t
  | key {entries key t path part} (hmem : (key, t) ∈ entries) (h : HasPart t path part) :
    HasPart (.dictionary entries) (.key key :: path) part
  | index {elements i t path part} (hi : elements[i]? = some t) (h : HasPart t path part) :
    HasPart (.array elements) (.index i :: path) part

/-- `P` holds of all parts of the tree, with the paths to them. -/
def Everywhere (P : List Step → Document α → Prop) (t : Document α) : Prop :=
  ∀ path part, t.HasPart path part → P path part

section Everywhere

variable {P Q : List Step → Document α → Prop}

theorem everywhere_leaf_iff {a : α} : Everywhere P (.leaf a) ↔ P [] (.leaf a) := by
  constructor
  · exact fun h => h [] _ (.here _)
  · rintro h path part hpart
    cases hpart with
    | here => exact h

theorem everywhere_array_iff {elements : List (Document α)} :
    Everywhere P (.array elements) ↔ P [] (.array elements) ∧
      ∀ i (t : Document α), elements[i]? = some t →
        t.Everywhere fun path => P (.index i :: path) := by
  constructor
  · exact fun h => ⟨h [] _ (.here _), fun i t hi path part hpart => h _ _ (.index hi hpart)⟩
  · rintro ⟨hhere, h⟩ path part hpart
    cases hpart with
    | here => exact hhere
    | index hi hpart => exact h _ _ hi _ _ hpart

theorem everywhere_dictionary_iff {entries : List (String × Document α)} :
    Everywhere P (.dictionary entries) ↔ P [] (.dictionary entries) ∧
      ∀ key (t : Document α), (key, t) ∈ entries →
        t.Everywhere fun path => P (.key key :: path) := by
  constructor
  · exact fun h => ⟨h [] _ (.here _), fun key t hmem path part hpart => h _ _ (.key hmem hpart)⟩
  · rintro ⟨hhere, h⟩ path part hpart
    cases hpart with
    | here => exact hhere
    | key hmem hpart => exact h _ _ hmem _ _ hpart

theorem Everywhere.mono {t : Document α} (h : t.Everywhere P)
    (hPQ : ∀ path part, P path part → Q path part) : t.Everywhere Q :=
  fun path part hpart => hPQ path part (h path part hpart)

end Everywhere

/-- `P` holds of a part of the tree, with the path to it. -/
def Somewhere (P : List Step → Document α → Prop) (t : Document α) : Prop :=
  ∃ path part, t.HasPart path part ∧ P path part

section Somewhere

variable {P : List Step → Document α → Prop}

theorem somewhere_leaf_iff {a : α} : Somewhere P (.leaf a) ↔ P [] (.leaf a) := by
  constructor
  · rintro ⟨path, part, hpart, h⟩
    cases hpart with
    | here => exact h
  · exact fun h => ⟨[], _, .here _, h⟩

theorem somewhere_array_iff {elements : List (Document α)} :
    Somewhere P (.array elements) ↔ P [] (.array elements) ∨
      ∃ i, ∃ t : Document α, elements[i]? = some t ∧
        t.Somewhere fun path => P (.index i :: path) := by
  constructor
  · rintro ⟨path, part, hpart, h⟩
    cases hpart with
    | here => exact .inl h
    | index hi hpart => exact .inr ⟨_, _, hi, _, _, hpart, h⟩
  · rintro (h | ⟨i, t, hi, path, part, hpart, h⟩)
    · exact ⟨[], _, .here _, h⟩
    · exact ⟨_, part, .index hi hpart, h⟩

theorem somewhere_dictionary_iff {entries : List (String × Document α)} :
    Somewhere P (.dictionary entries) ↔ P [] (.dictionary entries) ∨
      ∃ key, ∃ t : Document α, (key, t) ∈ entries ∧
        t.Somewhere fun path => P (.key key :: path) := by
  constructor
  · rintro ⟨path, part, hpart, h⟩
    cases hpart with
    | here => exact .inl h
    | key hmem hpart => exact .inr ⟨_, _, hmem, _, _, hpart, h⟩
  · rintro (h | ⟨key, t, hmem, path, part, hpart, h⟩)
    · exact ⟨[], _, .here _, h⟩
    · exact ⟨_, part, .key hmem hpart, h⟩

end Somewhere

/-- `R` holds of the entries of every dictionary of the tree. -/
def Dictionaries (R : List (String × Document α) → Prop) (t : Document α) : Prop :=
  t.Everywhere fun _ part => ∀ entries, part = .dictionary entries → R entries

section Dictionaries

variable {R : List (String × Document α) → Prop}

theorem dictionaries_leaf (a : α) : (leaf a).Dictionaries R :=
  everywhere_leaf_iff.2 fun _ hentries => by cases hentries

theorem dictionaries_array_iff {elements : List (Document α)} :
    (array elements).Dictionaries R ↔ ∀ t ∈ elements, t.Dictionaries R := by
  refine everywhere_array_iff.trans ⟨fun h t ht => ?_, fun h => ⟨?_, fun i t hi => ?_⟩⟩
  · obtain ⟨i, hi⟩ := List.mem_iff_getElem?.1 ht
    exact h.2 i t hi
  · exact fun _ hentries => by cases hentries
  · exact h t (List.mem_of_getElem? hi)

theorem dictionaries_dictionary_iff {entries : List (String × Document α)} :
    (dictionary entries).Dictionaries R ↔ R entries ∧ ∀ p ∈ entries, p.2.Dictionaries R := by
  refine everywhere_dictionary_iff.trans (and_congr ⟨fun h => h entries rfl, ?_⟩ ?_)
  · rintro h _ ⟨⟩
    exact h
  · exact ⟨fun h p hp => h p.1 p.2 hp, fun h key t hmem => h (key, t) hmem⟩

end Dictionaries

/-- Every dictionary of the tree has different keys. -/
abbrev Proper (t : Document α) : Prop := t.Dictionaries DistinctKeys

/-- The keys of every dictionary of the tree increase. -/
abbrev Sorted (t : Document α) : Prop := t.Dictionaries SortedKeys

theorem Sorted.proper {t : Document α} (h : t.Sorted) : t.Proper :=
  h.mono fun _ _ hpart entries hentries => (hpart entries hentries).distinctKeys

/-! ## Images -/

/-- What a part of a tree is, without its own parts. -/
inductive Head (α : Type*)
  | leaf (a : α)
  | array (length : ℕ)
  | dictionary

def head : Document α → Head α
  | .leaf a => .leaf a
  | .array elements => .array elements.length
  | .dictionary _ => .dictionary

/-- The image of a head under a partial map of the scalars. -/
def Head.image (f : α → Option β) : Head α → Option (Head β)
  | .leaf a => (f a).map .leaf
  | .array length => some (.array length)
  | .dictionary => some .dictionary

/-- At every path `t'` holds the image of what `t` holds. -/
def Image (f : α → Option β) (t : Document α) (t' : Document β) : Prop :=
  ∀ path, (t'.at? path).map head = (t.at? path).bind fun part => part.head.image f

/-- What may be under a key, and what is there in the image. -/
inductive ImageEntry (f : α → Option β) : Option (Document α) → Option (Document β) → Prop
  | absent : ImageEntry f none none
  | dropped {a} (ha : f a = none) : ImageEntry f (some (.leaf a)) none
  | kept {t t'} (h : Image f t t') : ImageEntry f (some t) (some t')

section Image

variable {f : α → Option β}

theorem image_head {t : Document α} {t' : Document β} (h : Image f t t') :
    t.head.image f = some t'.head := (h []).symm

/-- Where a tree has no image its head has none, which only a scalar can lack. -/
theorem eq_leaf_of_image_eq_none {t : Document α} (h : t.head.image f = none) :
    ∃ a, t = .leaf a ∧ f a = none := by
  cases t with
  | leaf a => exact ⟨a, rfl, Option.map_eq_none_iff.1 h⟩
  | array elements => cases h
  | dictionary entries => cases h

/-- The two trees at the end of a step agree along every path from there. -/
theorem imageEntry_of_forall {o : Option (Document α)} {o' : Option (Document β)}
    (h : ∀ path, (o'.bind fun t' => t'.at? path).map head =
      (o.bind fun t => t.at? path).bind fun part => part.head.image f) : ImageEntry f o o' := by
  have hhere := h []
  cases o with
  | none =>
    obtain rfl : o' = none := by simpa using hhere
    exact .absent
  | some t =>
    cases o' with
    | none =>
      obtain ⟨a, rfl, ha⟩ := eq_leaf_of_image_eq_none (f := f) (t := t) hhere.symm
      exact .dropped ha
    | some t' => exact .kept h

theorem ImageEntry.forall {o : Option (Document α)} {o' : Option (Document β)}
    (h : ImageEntry f o o') (path : List Step) :
    (o'.bind fun t' => t'.at? path).map head =
      (o.bind fun t => t.at? path).bind fun part => part.head.image f := by
  cases h with
  | absent => rfl
  | @dropped a ha =>
    cases path with
    | nil =>
      show none = (f a).map Head.leaf
      rw [ha]
      rfl
    | cons step path => cases step <;> rfl
  | kept h => exact h path

theorem imageEntry_some_iff {t : Document α} {t' : Document β} :
    ImageEntry f (some t) (some t') ↔ Image f t t' := by
  constructor
  · intro h
    cases h with
    | kept h => exact h
  · exact .kept

/-- Trees agree where their heads and the ends of all their steps do. -/
theorem image_iff {t : Document α} {t' : Document β} :
    Image f t t' ↔ t.head.image f = some t'.head ∧
      ∀ step, ImageEntry f (t.child? step) (t'.child? step) := by
  constructor
  · exact fun h => ⟨image_head h, fun step => imageEntry_of_forall fun path => h (step :: path)⟩
  · rintro ⟨hhead, hsteps⟩ path
    cases path with
    | nil => exact hhead.symm
    | cons step path => exact (hsteps step).forall path

theorem image_leaf_iff {a : α} {t' : Document β} :
    Image f (.leaf a) t' ↔ ∃ b, f a = some b ∧ t' = .leaf b := by
  constructor
  · intro h
    obtain ⟨b, hb, hhead⟩ := Option.map_eq_some_iff.1 (image_head h)
    cases t' with
    | leaf b' => cases hhead; exact ⟨b, hb, rfl⟩
    | array elements => cases hhead
    | dictionary entries => cases hhead
  · rintro ⟨b, hb, rfl⟩
    refine image_iff.2 ⟨Option.map_eq_some_iff.2 ⟨b, hb, rfl⟩, fun step => ?_⟩
    cases step <;> exact .absent

theorem image_array_iff {elements : List (Document α)} {t' : Document β} :
    Image f (.array elements) t' ↔
      ∃ elements', t' = .array elements' ∧ List.Forall₂ (Image f) elements elements' := by
  constructor
  · intro h
    obtain ⟨hhead, hsteps⟩ := image_iff.1 h
    cases t' with
    | leaf b => cases hhead
    | dictionary entries => cases hhead
    | array elements' =>
      have hlength : elements.length = elements'.length := Head.array.inj (Option.some.inj hhead)
      refine ⟨elements', rfl, List.forall₂_iff_get.2 ⟨hlength, fun i hi hi' => ?_⟩⟩
      have hstep : ImageEntry f elements[i]? elements'[i]? := hsteps (.index i)
      rw [List.getElem?_eq_getElem hi, List.getElem?_eq_getElem hi'] at hstep
      exact imageEntry_some_iff.1 hstep
  · rintro ⟨elements', rfl, h⟩
    refine image_iff.2 ⟨by rw [head, head, h.length_eq]; rfl, fun step => ?_⟩
    cases step with
    | key key => exact .absent
    | index i =>
      show ImageEntry f elements[i]? elements'[i]?
      by_cases hi : i < elements.length
      · have hi' : i < elements'.length := h.length_eq ▸ hi
        rw [List.getElem?_eq_getElem hi, List.getElem?_eq_getElem hi']
        exact .kept ((List.forall₂_iff_get.1 h).2 i hi hi')
      · have hlength : elements.length ≤ i := not_lt.1 hi
        rw [List.getElem?_eq_none hlength, List.getElem?_eq_none (h.length_eq ▸ hlength)]
        exact .absent

theorem image_dictionary_iff {entries : List (String × Document α)} {t' : Document β} :
    Image f (.dictionary entries) t' ↔ ∃ entries', t' = .dictionary entries' ∧
      ∀ key, ImageEntry f (entries.lookup key) (entries'.lookup key) := by
  constructor
  · intro h
    obtain ⟨hhead, hsteps⟩ := image_iff.1 h
    cases t' with
    | leaf b => cases hhead
    | array elements => cases hhead
    | dictionary entries' => exact ⟨entries', rfl, fun key => hsteps (.key key)⟩
  · rintro ⟨entries', rfl, h⟩
    refine image_iff.2 ⟨rfl, fun step => ?_⟩
    cases step with
    | key key => exact h key
    | index i => exact .absent

end Image

/-- A scalar that is the image of itself and of no other is in the same places. -/
theorem Image.eq_leaf_iff {f : α → Option α} {b : α} (hb : ∀ a, f a = some b ↔ a = b)
    {t t' : Document α} (h : Image f t t') : t' = .leaf b ↔ t = .leaf b := by
  cases t with
  | leaf a =>
    obtain ⟨a', ha', rfl⟩ := image_leaf_iff.1 h
    constructor
    · rintro ⟨⟩
      rw [(hb a).1 ha']
    · rintro ⟨⟩
      rw [Option.some.inj (ha'.symm.trans ((hb _).2 rfl))]
  | array elements =>
    obtain ⟨elements', rfl, -⟩ := image_array_iff.1 h
    constructor <;> rintro ⟨⟩
  | dictionary entries =>
    obtain ⟨entries', rfl, -⟩ := image_dictionary_iff.1 h
    constructor <;> rintro ⟨⟩

/-! ### Images of images -/

section Compose

variable {γ : Type*} {f : α → Option β} {g : β → Option γ}

theorem Head.image_image (o : Head α) :
    (o.image f).bind (Head.image g) = o.image fun a => (f a).bind g := by
  cases o with
  | leaf a =>
    show ((f a).map Head.leaf).bind _ = ((f a).bind g).map Head.leaf
    cases f a <;> rfl
  | array length => rfl
  | dictionary => rfl

theorem Image.trans {t : Document α} {t' : Document β} {t'' : Document γ} (h : Image f t t')
    (h' : Image g t' t'') : Image (fun a => (f a).bind g) t t'' := by
  intro path
  calc (t''.at? path).map head
      = ((t'.at? path).map head).bind (Head.image g) := by
        rw [h' path, Option.bind_map]
        rfl
    _ = (t.at? path).bind fun part => part.head.image fun a => (f a).bind g := by
        rw [h path, Option.bind_assoc]
        simp only [Head.image_image]

end Compose

/-! ### Sorted images -/

section Unique

theorem Head.image_some (o : Head α) : o.image some = some o := by
  cases o <;> rfl

/-- What is under a key of two sorted trees with the same contents. -/
theorem imageEntry_some_lookup {entries entries' : List (String × Document α)}
    (heq : ∀ p ∈ entries, ∀ t', p.2.Sorted → t'.Sorted → Image some p.2 t' → p.2 = t')
    (hentries : ∀ p ∈ entries, p.2.Sorted) (hentries' : ∀ p ∈ entries', p.2.Sorted) {key : String}
    (h : ImageEntry some (entries.lookup key) (entries'.lookup key)) :
    entries.lookup key = entries'.lookup key := by
  generalize ho : entries.lookup key = o at h ⊢
  generalize ho' : entries'.lookup key = o' at h ⊢
  cases h with
  | absent => rfl
  | dropped ha => cases ha
  | @kept t t' himage =>
    have hmem := mem_of_lookup_eq_some ho
    have hmem' := mem_of_lookup_eq_some ho'
    exact congrArg some (heq _ hmem t' (hentries _ hmem) (hentries' _ hmem') himage)

/-- A sorted tree is determined by what it holds at its paths. -/
theorem Sorted.eq_of_image {t t' : Document α} (h : t.Sorted) (h' : t'.Sorted)
    (himage : Image some t t') : t = t' := by
  induction t using Document.induction generalizing t' with
  | leaf a =>
    obtain ⟨b, hb, rfl⟩ := image_leaf_iff.1 himage
    rw [Option.some.inj hb]
  | array elements ih =>
    obtain ⟨elements', rfl, helements⟩ := image_array_iff.1 himage
    have hsorted := dictionaries_array_iff.1 h
    have hsorted' := dictionaries_array_iff.1 h'
    congr 1
    clear himage h h'
    induction helements with
    | nil => rfl
    | cons hhead _ ihl =>
      obtain ⟨hih, hihs⟩ := List.forall_mem_cons.1 ih
      obtain ⟨hs, hss⟩ := List.forall_mem_cons.1 hsorted
      obtain ⟨hs', hss'⟩ := List.forall_mem_cons.1 hsorted'
      rw [hih hs hs' hhead, ihl hihs hss hss']
  | dictionary entries ih =>
    obtain ⟨entries', rfl, hkeys⟩ := image_dictionary_iff.1 himage
    obtain ⟨hsorted, hentries⟩ := dictionaries_dictionary_iff.1 h
    obtain ⟨hsorted', hentries'⟩ := dictionaries_dictionary_iff.1 h'
    congr 1
    refine hsorted.eq_of_lookup hsorted' fun key => ?_
    exact imageEntry_some_lookup (fun p hp t' hp' ht' => ih p hp hp' ht') hentries hentries'
      (hkeys key)

/-- A tree has at most one sorted image. -/
theorem Image.unique {f : α → Option β} {t : Document α} {t₁ t₂ : Document β} (h₁ : Image f t t₁)
    (h₂ : Image f t t₂) (hs₁ : t₁.Sorted) (hs₂ : t₂.Sorted) : t₁ = t₂ := by
  refine hs₁.eq_of_image hs₂ fun path => ?_
  simp only [Head.image_some]
  rw [h₂ path, ← h₁ path]
  exact Option.map_eq_bind

end Unique

end Document

end Framework
