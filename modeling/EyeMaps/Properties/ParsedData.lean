import EyeMaps.Model.UserDataConverter

/-!
# What `setData` accepts

A description of the faults of a dictionary that knows nothing of the order in which it is parsed:
`Faulty` says what can be wrong with one part, in the context that the path to it gives, and with
which message.  The converter accepts the data without faults, and otherwise ends with a fault of
some part (`parsedSetData_outcome`).  What it writes is the image of the data at every path, where
a sentinel has none.

The elements of an array transform are parsed as arguments, where no sentinel may stand.  So what
can be parsed is first known of arguments (`parses_argument`), and from them of all data (`parses`).
-/

namespace EyeMaps

open Framework Document UserDataConverter

variable {K : Type}

/-! ## Faults -/

/-- The context of the part at a path. -/
def ParseContext.descend (context : ParseContext) (path : List Document.Step) : ParseContext :=
  path.foldl ParseContext.child context

theorem ParseContext.dataSource_descend (context : ParseContext) (path : List Document.Step) :
    (context.descend path).dataSource = context.dataSource := by
  induction path generalizing context with
  | nil => rfl
  | cons step path ih =>
    refine (ih (context.child step)).trans ?_
    cases step <;> rfl

theorem ParseContext.write_child (context : ParseContext) (step : Document.Step) :
    (context.child step).write = context.write := by
  cases step <;> rfl

theorem ParseContext.write_descend (context : ParseContext) (path : List Document.Step) :
    (context.descend path).write = context.write := by
  induction path generalizing context with
  | nil => rfl
  | cons step path ih => exact (ih (context.child step)).trans (context.write_child step)

/-- The elements of an array transform. -/
def FIRFieldValue.elements : FIRFieldValue K → List (NSObject K)
  | .arrayUnion elements => elements
  | .arrayRemove elements => elements
  | _ => []

/-- The context of the elements of an array transform. -/
def elementContext : ParseContext := (ParseContext.root .argument).child (.index 0)

section Faults

variable (database : DatabaseId)

/-- What is wrong with one part of the data, apart from its own parts.  The elements of an array
transform are no parts of the data; what is wrong with a part of them is wrong with the sentinel. -/
inductive Faulty : ParseContext → NSObject K → ParseFailure → Prop
  | emptyName {context entries t} (hmem : ("", t) ∈ entries) :
    Faulty context (.dictionary entries) (.invalidArgument
      ("Invalid data. Document fields must not be empty" ++
        (context.child (.key "")).fieldDescription))
  | reservedName {context entries name t} (hmem : (name, t) ∈ entries)
    (hwrite : context.write = true) (hname : ParseContext.isReserved name = true) :
    Faulty context (.dictionary entries) (.invalidArgument
      ("Invalid data. Document fields cannot begin and end with \"__\"" ++
        (context.child (.key name)).fieldDescription))
  | nestedArray {context elements} (helement : context.arrayElement = true)
    (hsource : context.dataSource ≠ .arrayArgument) :
    Faulty context (.array elements) (.invalidArgument "Nested arrays are not supported")
  | tooLarge {context value} (hvalue : llongMax < value) :
    Faulty context (.leaf (.number (.integer value))) (.invalidArgument
      ("NSNumber (" ++ toString value ++ ") is too large" ++ context.fieldDescription))
  | invalidDate {context date message} (hdate : date.invalid = some message) :
    Faulty context (.leaf (.date date)) (.invalidTimestamp message)
  | otherDatabase {context other key} (hother : other ≠ database) :
    Faulty context (.leaf (.reference other key)) (.invalidArgument
      ("Document Reference is for database " ++ other.projectId ++ "/" ++ other.databaseId ++
        " but should be for database " ++ database.projectId ++ "/" ++ database.databaseId ++
        context.fieldDescription))
  | unsupported {context className} :
    Faulty context (.leaf (.other className))
      (.invalidArgument ("Unsupported type: " ++ className ++ context.fieldDescription))
  | sentinelNotWritten {context fieldValue} (hwrite : context.write = false) :
    Faulty context (.leaf (.fieldValue fieldValue)) (.invalidArgument
      (fieldValue.methodName ++ " can only be used with updateData() and setData()" ++
        context.fieldDescription))
  | sentinelInArray {context fieldValue} (hwrite : context.write = true)
    (hpath : context.path = none) :
    Faulty context (.leaf (.fieldValue fieldValue)) (.invalidArgument
      (fieldValue.methodName ++ " is not currently supported inside arrays"))
  | deleteUpdate {context} (hsource : context.dataSource = .update)
    (hpath : context.path = some []) :
    Faulty context (.leaf (.fieldValue .delete)) .hardAssert
  | deleteInUpdate {context path} (hsource : context.dataSource = .update)
    (hpath : context.path = some path) (hne : path ≠ []) :
    Faulty context (.leaf (.fieldValue .delete)) (.invalidArgument
      ("FieldValue.delete() can only appear at the top level of your update data" ++
        context.fieldDescription))
  | deleteInSet {context path} (hsource : context.dataSource = .set)
    (hpath : context.path = some path) :
    Faulty context (.leaf (.fieldValue .delete)) (.invalidArgument
      ("FieldValue.delete() can only be used with updateData() and setData() with " ++
        "merge:true" ++ context.fieldDescription))
  | operandTooLarge {context path value} (hwrite : context.write = true)
    (hpath : context.path = some path) (hvalue : llongMax < value) :
    Faulty context (.leaf (.fieldValue (.increment (.integer value)))) (.invalidArgument
      ("NSNumber (" ++ toString value ++ ") is too large"))
  | element {context path fieldValue t steps part failure} (hwrite : context.write = true)
    (hpath : context.path = some path) (ht : t ∈ FIRFieldValue.elements fieldValue)
    (hpart : t.HasPart steps part) (h : Faulty (elementContext.descend steps) part failure) :
    Faulty context (.leaf (.fieldValue fieldValue)) failure

/-- No part of the object, in the context that the path to it gives, is faulty. -/
def Clean (context : ParseContext) (t : NSObject K) : Prop :=
  t.Everywhere fun path part => ∀ failure, ¬ Faulty database (context.descend path) part failure

/-- The failure is that of a faulty part of the object. -/
def Blamed (context : ParseContext) (t : NSObject K) (failure : ParseFailure) : Prop :=
  t.Somewhere fun path part => Faulty database (context.descend path) part failure

end Faults

/-! ## What is written and accumulated -/

/-- The value that is written for a scalar. -/
def stored : Scalar K → Option (FieldScalar K)
  | .null => some .null
  | .bool b => some (.boolean b)
  | .number (.integer value) => some (.integer value)
  | .number (.double value) => some (.double value)
  | .number (.char value) => some (.boolean (value != 0))
  | .string string => some (.string string)
  | .data data => some (.blob data)
  | .geoPoint geoPoint => some (.geoPoint geoPoint)
  | .date date => some (.timestamp date.timestamp)
  | .timestamp timestamp => some (.timestamp timestamp.truncate)
  | .reference database key => some (.reference database key)
  | .fieldValue _ => none
  | .other _ => none

/-- What an accumulator can hold. -/
inductive Note (K : Type)
  | field (path : FieldPath)
  | transform (path : FieldPath) (operation : TransformOperation K)

def ParseAccumulator.Holds (accumulator : ParseAccumulator K) : Note K → Prop
  | .field path => path ∈ accumulator.fieldMask
  | .transform path operation => (path, operation) ∈ accumulator.fieldTransforms

/-- The values are the images of the elements of an array transform. -/
def Elements (elements : List (NSObject K)) (values : List (FieldValue K)) : Prop :=
  List.Forall₂ (Image stored) elements (values.map FieldValue.tree)

/-- The transform that a sentinel stands for; a delete stands for none. -/
inductive StandsFor : FIRFieldValue K → TransformOperation K → Prop
  | serverTimestamp : StandsFor .serverTimestamp .serverTimestamp
  | arrayUnion {elements values} (hvalues : Elements elements values) :
    StandsFor (.arrayUnion elements) (.arrayUnion values)
  | arrayRemove {elements values} (hvalues : Elements elements values) :
    StandsFor (.arrayRemove elements) (.arrayRemove values)
  | increment {operand b} (hb : stored (.number operand.number) = some b) :
    StandsFor (.increment operand) (.numericIncrement (.scalar b))

/-- What one part of the data leaves in the accumulator: the path of a value that is not a map with
fields, or the transform of a sentinel.  Within an array there are no paths. -/
inductive Leaves (context : ParseContext) : NSObject K → Note K → Prop
  | scalar {a path} (ha : ∀ fieldValue, a ≠ .fieldValue fieldValue)
    (hpath : context.path = some path) : Leaves context (.leaf a) (.field path)
  | array {elements path} (hpath : context.path = some path) :
    Leaves context (.array elements) (.field path)
  | empty {path} (hpath : context.path = some path) (hne : path ≠ []) :
    Leaves context (.dictionary []) (.field path)
  | delete {path} (hsource : context.dataSource = .mergeSet) (hpath : context.path = some path) :
    Leaves context (.leaf (.fieldValue .delete)) (.field path)
  | transform {fieldValue operation path} (hoperation : StandsFor fieldValue operation)
    (hpath : context.path = some path) :
    Leaves context (.leaf (.fieldValue fieldValue)) (.transform path operation)

/-- The accumulator has grown by what the parts of the object leave in it. -/
def Collected (context : ParseContext) (t : NSObject K)
    (accumulator accumulator' : ParseAccumulator K) : Prop :=
  ∀ note, accumulator'.Holds note ↔ accumulator.Holds note ∨
    t.Somewhere fun path part => Leaves (context.descend path) part note

/-! ### Keys -/

/-- No dictionary of the object has two entries of one key, and neither has one within the elements
of an array transform. -/
def WellKeyed (t : NSObject K) : Prop :=
  t.Proper ∧ t.Everywhere fun _ part => ∀ fieldValue, part = .leaf (.fieldValue fieldValue) →
    ∀ element ∈ fieldValue.elements, element.Proper

theorem wellKeyed_leaf_iff {a : Scalar K} : WellKeyed (.leaf a) ↔
    ∀ fieldValue, a = .fieldValue fieldValue → ∀ element ∈ fieldValue.elements,
      element.Proper := by
  rw [WellKeyed, everywhere_leaf_iff]
  constructor
  · rintro ⟨-, h⟩ fieldValue rfl
    exact h fieldValue rfl
  · refine fun h => ⟨dictionaries_leaf a, fun fieldValue ha => ?_⟩
    exact h fieldValue (Document.leaf.inj ha)

theorem wellKeyed_array_iff {elements : List (NSObject K)} :
    WellKeyed (.array elements) ↔ ∀ t ∈ elements, WellKeyed t := by
  rw [WellKeyed, Proper, dictionaries_array_iff, everywhere_array_iff]
  constructor
  · rintro ⟨hproper, -, h⟩ t ht
    obtain ⟨i, hi⟩ := List.mem_iff_getElem?.1 ht
    exact ⟨hproper t ht, h i t hi⟩
  · intro h
    refine ⟨fun t ht => (h t ht).1, fun _ hpart => (by cases hpart), fun i t hi => ?_⟩
    exact (h t (List.mem_of_getElem? hi)).2

theorem wellKeyed_dictionary_iff {entries : List (String × NSObject K)} :
    WellKeyed (.dictionary entries) ↔ DistinctKeys entries ∧ ∀ p ∈ entries, WellKeyed p.2 := by
  rw [WellKeyed, Proper, dictionaries_dictionary_iff, everywhere_dictionary_iff]
  constructor
  · rintro ⟨⟨hdistinct, hproper⟩, -, h⟩
    exact ⟨hdistinct, fun p hp => ⟨hproper p hp, h p.1 p.2 hp⟩⟩
  · rintro ⟨hdistinct, h⟩
    refine ⟨⟨hdistinct, fun p hp => (h p hp).1⟩, fun _ hpart => (by cases hpart), ?_⟩
    exact fun key t hmem => (h (key, t) hmem).2

/-- Where nothing is written a sentinel is faulty, so that there are no array transforms. -/
theorem wellKeyed_of_clean {database : DatabaseId} {context : ParseContext} {t : NSObject K}
    (hclean : Clean database context t) (hwrite : context.write = false) (hproper : t.Proper) :
    WellKeyed t := by
  refine ⟨hproper, fun path part hpart fieldValue hsentinel => ?_⟩
  subst hsentinel
  exact absurd (.sentinelNotWritten ((context.write_descend path).trans hwrite))
    (hclean path _ hpart _)

/-- The values of the elements are determined by the elements. -/
theorem Elements.unique {elements : List (NSObject K)} {values values' : List (FieldValue K)}
    (h : Elements elements values) (h' : Elements elements values') : values = values' := by
  unfold Elements at h h'
  induction elements generalizing values values' with
  | nil =>
    rw [List.forall₂_nil_left_iff, List.map_eq_nil_iff] at h h'
    rw [h, h']
  | cons t elements ih =>
    rcases values with _ | ⟨⟨tree, hsorted⟩, values⟩
    · cases h
    rcases values' with _ | ⟨⟨tree', hsorted'⟩, values'⟩
    · cases h'
    rw [List.map_cons, List.forall₂_cons] at h h'
    obtain rfl : tree = tree' := h.1.unique h'.1 hsorted hsorted'
    rw [ih h.2 h'.2]

/-- A sentinel stands for one transform. -/
theorem StandsFor.unique {fieldValue : FIRFieldValue K}
    {operation operation' : TransformOperation K} (h : StandsFor fieldValue operation)
    (h' : StandsFor fieldValue operation') : operation = operation' := by
  cases h with
  | serverTimestamp =>
    cases h'
    rfl
  | arrayUnion hvalues =>
    cases h' with
    | arrayUnion hvalues' => rw [hvalues.unique hvalues']
  | arrayRemove hvalues =>
    cases h' with
    | arrayRemove hvalues' => rw [hvalues.unique hvalues']
  | increment hb =>
    cases h' with
    | increment hb' => rw [Option.some.inj (hb.symm.trans hb')]

/-! ## Parsing -/

section Parse

variable {database : DatabaseId} {context : ParseContext} {accumulator : ParseAccumulator K}
  {P : ParseContext → Prop}

/-- What the converter may give for an object: it is clean, there is no value only for a sentinel,
the value is the image of the object, and the accumulator has grown by what is left in it.  Without
a path nothing is. -/
structure Parsed (database : DatabaseId) (context : ParseContext) (t : NSObject K)
    (accumulator : ParseAccumulator K) (r : Option (FieldValue K))
    (accumulator' : ParseAccumulator K) : Prop where
  clean : Clean database context t
  sentinel : r = none → ∃ fieldValue, t = .leaf (.fieldValue fieldValue)
  image : WellKeyed t → ImageEntry stored (some t) (r.map FieldValue.tree)
  quiet : context.path = none → accumulator' = accumulator
  collected : WellKeyed t → Collected context t accumulator accumulator'

/-- What has been proved of an object, in the contexts `P`, for the proof of those that it is part
of. -/
def Parses (database : DatabaseId) (P : ParseContext → Prop) (t : NSObject K) : Prop :=
  ∀ context accumulator, P context → Ends (parseData database context t) accumulator
    (Parsed database context t accumulator) (Blamed database context t)

/-! ### Scalars -/

theorem holds_addToFieldMask (path : FieldPath) (accumulator : ParseAccumulator K) :
    ∃ t, ParseAccumulator.addToFieldMask path accumulator = .ok ((), t) ∧
      ∀ note, t.Holds note ↔ accumulator.Holds note ∨ note = .field path := by
  refine ⟨_, rfl, fun note => ?_⟩
  cases note with
  | field path' =>
    show path' ∈ insert path accumulator.fieldMask ↔ path' ∈ accumulator.fieldMask ∨ _
    rw [Finset.mem_insert, Note.field.injEq, or_comm]
  | transform path' operation => simp [ParseAccumulator.Holds]

theorem holds_addToFieldTransforms (path : FieldPath) (operation : TransformOperation K)
    (accumulator : ParseAccumulator K) :
    ∃ t, ParseAccumulator.addToFieldTransforms path operation accumulator = .ok ((), t) ∧
      ∀ note, t.Holds note ↔ accumulator.Holds note ∨ note = .transform path operation := by
  refine ⟨_, rfl, fun note => ?_⟩
  cases note with
  | field path' => simp [ParseAccumulator.Holds]
  | transform path' operation' =>
    show (path', operation') ∈ accumulator.fieldTransforms ++ [(path, operation)] ↔ _
    rw [List.mem_append, List.mem_singleton, Prod.mk.injEq, Note.transform.injEq]
    rfl

/-- The path of an object, if there is one, joins the field mask. -/
theorem holds_addPathToFieldMask (context : ParseContext) (accumulator : ParseAccumulator K) :
    ∃ t, addPathToFieldMask context accumulator = .ok ((), t) ∧
      (context.path = none → t = accumulator) ∧
      ∀ note, t.Holds note ↔ accumulator.Holds note ∨
        ∃ path, context.path = some path ∧ note = .field path := by
  unfold addPathToFieldMask
  cases hpath : context.path with
  | none => exact ⟨accumulator, rfl, fun _ => rfl, fun note => by simp⟩
  | some path =>
    obtain ⟨t, ht, hnote⟩ := holds_addToFieldMask path accumulator
    exact ⟨t, ht, fun hnone => (by cases hnone), fun note => by simp [hnote]⟩

/-- A scalar is written as its value unless it is faulty. -/
theorem yields_parseScalarValue {a : Scalar K} (ha : ∀ fieldValue, a ≠ .fieldValue fieldValue) :
    Yields (parseScalarValue database context a) accumulator
      (fun value => (∀ failure, ¬ Faulty database context (.leaf a) failure) ∧
        ∃ b, stored a = some b ∧ value = .scalar b)
      fun failure => Faulty database context (.leaf a) failure := by
  cases a with
  | null => exact .pure ⟨fun _ h => (by cases h), _, rfl, rfl⟩
  | bool b => exact .pure ⟨fun _ h => (by cases h), _, rfl, rfl⟩
  | string string => exact .pure ⟨fun _ h => (by cases h), _, rfl, rfl⟩
  | data data => exact .pure ⟨fun _ h => (by cases h), _, rfl, rfl⟩
  | geoPoint geoPoint => exact .pure ⟨fun _ h => (by cases h), _, rfl, rfl⟩
  | timestamp timestamp => exact .pure ⟨fun _ h => (by cases h), _, rfl, rfl⟩
  | fieldValue fieldValue => exact absurd rfl (ha fieldValue)
  | other className => exact .throw .unsupported
  | number number =>
    cases number with
    | double value => exact .pure ⟨fun _ h => (by cases h), _, rfl, rfl⟩
    | char value => exact .pure ⟨fun _ h => (by cases h), _, rfl, rfl⟩
    | integer value =>
      by_cases hvalue : llongMax < value
      · rw [parseScalarValue, if_pos hvalue]
        exact .throw (.tooLarge hvalue)
      · rw [parseScalarValue, if_neg hvalue]
        refine .pure ⟨fun _ h => ?_, _, rfl, rfl⟩
        cases h with
        | tooLarge h => exact hvalue h
  | date date =>
    rw [parseScalarValue]
    cases hdate : date.invalid with
    | some message => exact .throw (.invalidDate hdate)
    | none =>
      refine .pure ⟨fun _ h => ?_, _, rfl, rfl⟩
      cases h with
      | invalidDate h => exact Option.some_ne_none _ (h.symm.trans hdate)
  | reference other key =>
    by_cases hother : other = database
    · rw [parseScalarValue, if_neg (not_not.2 hother), ← hother]
      refine .pure ⟨fun _ h => ?_, _, rfl, rfl⟩
      cases h with
      | otherDatabase h => exact h rfl
    · rw [parseScalarValue, if_pos hother]
      exact .throw (.otherDatabase hother)

theorem parses_scalar {a : Scalar K} (ha : ∀ fieldValue, a ≠ .fieldValue fieldValue) :
    Parses database P (.leaf a) := by
  intro context accumulator _
  obtain ⟨t, hmask, hquiet, hnote⟩ := holds_addPathToFieldMask context accumulator
  rw [parseData.eq_4 _ _ _ ha]
  refine Ends.bind_ok hmask
    (Ends.bind (Yields.mono (yields_parseScalarValue ha) (fun _ => id) ?_) ?_)
  · exact fun failure h => somewhere_leaf_iff.2 h
  rintro _ s ⟨⟨hclean, b, hb, rfl⟩, rfl⟩
  refine .pure ⟨everywhere_leaf_iff.2 hclean, fun h => (by cases h),
    fun _ => .kept (image_leaf_iff.2 ⟨b, hb, rfl⟩), hquiet, fun _ note => ?_⟩
  rw [hnote, somewhere_leaf_iff]
  refine or_congr_right ⟨?_, fun h => ?_⟩
  · rintro ⟨path, hpath, rfl⟩
    exact .scalar ha hpath
  · cases h with
    | scalar _ hpath => exact ⟨_, hpath, rfl⟩
    | delete => exact absurd rfl (ha _)
    | transform => exact absurd rfl (ha _)

/-! ### Arrays -/

/-- Within an array every object has a value, for sentinels are faulty there. -/
theorem Parsed.exists_value {t : NSObject K} {r : Option (FieldValue K)}
    {accumulator' : ParseAccumulator K} (h : Parsed database context t accumulator r accumulator')
    (hpath : context.path = none) : ∃ value, r = some value := by
  cases r with
  | some value => exact ⟨value, rfl⟩
  | none =>
    obtain ⟨fieldValue, rfl⟩ := h.sentinel rfl
    have hclean := everywhere_leaf_iff.1 h.clean
    cases hwrite : context.write with
    | false => exact absurd (.sentinelNotWritten hwrite) (hclean _)
    | true => exact absurd (.sentinelInArray hwrite hpath) (hclean _)

/-- Below an object without a path nothing is left in the accumulator. -/
theorem not_leaves_of_path_eq_none (hpath : context.path = none) (path : List Document.Step)
    (part : NSObject K) (note : Note K) : ¬ Leaves (context.descend path) part note := by
  -- Below an index or a key of it the path stays unset.
  have hdescend : (context.descend path).path = none := by
    induction path generalizing context with
    | nil => exact hpath
    | cons step path ih =>
      refine ih ?_
      cases step with
      | key name => simp [ParseContext.child, hpath]
      | index i => rfl
  intro h
  have hsome : ∃ fieldPath, (context.descend path).path = some fieldPath := by
    cases h with
    | array hpath | empty hpath | scalar _ hpath | delete _ hpath | transform _ hpath =>
      exact ⟨_, hpath⟩
  obtain ⟨fieldPath, hsome⟩ := hsome
  rw [hdescend] at hsome
  cases hsome

theorem ends_parseElements {elements : List (NSObject K)} (hP : P (context.child (.index 0)))
    (ih : ∀ t ∈ elements, Parses database P t) (i : ℕ) (accumulator : ParseAccumulator K) :
    Yields (parseElements database context i elements) accumulator
      (fun values => (∀ t ∈ elements, Clean database (context.child (.index i)) t) ∧
        ((∀ t ∈ elements, WellKeyed t) →
          List.Forall₂ (Image stored) elements (values.map FieldValue.tree)))
      fun failure => ∃ t ∈ elements, Blamed database (context.child (.index i)) t failure := by
  induction elements generalizing i accumulator with
  | nil => exact .pure ⟨fun t ht => (by cases ht), fun _ => .nil⟩
  | cons t elements ihl =>
    have ht := ih t List.mem_cons_self (context.child (.index i)) accumulator hP
    have hrest := ihl fun t ht => ih t (List.mem_cons_of_mem _ ht)
    rw [parseElements]
    refine Ends.bind (ht.mono (fun _ _ => id) fun failure h => ⟨t, List.mem_cons_self, h⟩) ?_
    intro r s hparsed
    obtain rfl : s = accumulator := hparsed.quiet rfl
    refine Yields.bind ((hrest (i + 1) s).mono (fun _ => id) ?_) ?_
    · rintro failure ⟨t', ht', hblamed⟩
      exact ⟨t', List.mem_cons_of_mem _ ht', hblamed⟩
    rintro values ⟨hclean, himage⟩
    -- The null that stands for a sentinel is never needed: a sentinel here is faulty.
    obtain ⟨value, rfl⟩ := hparsed.exists_value rfl
    refine .pure ⟨List.forall_mem_cons.2 ⟨hparsed.clean, hclean⟩, fun hkeyed => ?_⟩
    obtain ⟨hkeyedt, hkeyed⟩ := List.forall_mem_cons.1 hkeyed
    exact .cons (imageEntry_some_iff.1 (hparsed.image hkeyedt)) (himage hkeyed)

theorem parses_array {elements : List (NSObject K)}
    (hP : ∀ context step, P context → P (context.child step))
    (ih : ∀ t ∈ elements, Parses database P t) : Parses database P (.array elements) := by
  intro context accumulator hcontext
  obtain ⟨t, hmask, hquiet, hnote⟩ := holds_addPathToFieldMask context accumulator
  rw [parseData]
  refine Ends.bind_ok hmask ?_
  -- The path joins the field mask before the check, as in the source; the exception drops it.
  by_cases hnested : context.arrayElement = true ∧ context.dataSource ≠ .arrayArgument
  · rw [if_pos (by simpa using hnested)]
    exact .throw (somewhere_array_iff.2 (.inl (.nestedArray hnested.1 hnested.2)))
  rw [if_neg (by simpa using hnested)]
  refine Ends.bind ((ends_parseElements (hP context _ hcontext) ih 0 t).mono (fun _ => id) ?_) ?_
  · rintro failure ⟨t, ht, hblamed⟩
    obtain ⟨i, hi⟩ := List.mem_iff_getElem?.1 ht
    exact somewhere_array_iff.2 (.inr ⟨i, t, hi, hblamed⟩)
  rintro values s ⟨⟨hclean, himage⟩, rfl⟩
  refine .pure ⟨everywhere_array_iff.2 ⟨fun failure h => ?_, fun i t hi => ?_⟩,
    fun h => (by cases h), fun hkeyed => .kept (image_array_iff.2 ⟨_, rfl, himage ?_⟩), hquiet,
    fun _ note => ?_⟩
  · cases h with
    | nestedArray helement hsource => exact hnested ⟨helement, hsource⟩
  · exact hclean t (List.mem_of_getElem? hi)
  · exact wellKeyed_array_iff.1 hkeyed
  · rw [hnote, somewhere_array_iff]
    refine or_congr_right ⟨?_, ?_⟩
    · rintro ⟨path, hpath, rfl⟩
      exact .inl (.array hpath)
    · rintro (h | ⟨i, t, -, path, part, -, h⟩)
      · cases h with
        | array hpath => exact ⟨_, hpath, rfl⟩
      · exact (not_leaves_of_path_eq_none rfl path part note h).elim

/-! ### Dictionaries -/

/-- The name may be that of a field. -/
def Nameable (context : ParseContext) (name : String) : Prop :=
  name ≠ "" ∧ ¬ (context.write = true ∧ ParseContext.isReserved name = true)

theorem yields_childContext {entries : List (String × NSObject K)} {name : String} {t : NSObject K}
    (hmem : (name, t) ∈ entries) :
    Yields (context.childContext name) accumulator
      (fun childContext => Nameable context name ∧ childContext = context.child (.key name))
      (Blamed database context (.dictionary entries)) := by
  have hwrite : (context.child (.key name)).write = context.write := rfl
  have hvalidate : Yields ((context.child (.key name)).validatePathSegment name) accumulator
      (fun _ => Nameable context name) (Blamed database context (.dictionary entries)) := by
    rw [ParseContext.validatePathSegment, hwrite]
    by_cases hempty : name = ""
    · rw [if_pos hempty]
      subst hempty
      exact .throw (somewhere_dictionary_iff.2 (.inl (.emptyName hmem)))
    rw [if_neg hempty]
    by_cases hreserved : context.write = true ∧ ParseContext.isReserved name = true
    · rw [if_pos (Bool.and_eq_true_iff.2 hreserved)]
      exact .throw (somewhere_dictionary_iff.2
        (.inl (.reservedName hmem hreserved.1 hreserved.2)))
    · rw [if_neg fun h => hreserved (Bool.and_eq_true_iff.1 h)]
      exact .pure ⟨hempty, hreserved⟩
  exact hvalidate.bind fun _ hname => .pure ⟨hname, rfl⟩

/-- What the loop over the entries of a dictionary adds to the map so far. -/
def Added (entries : List (String × NSObject K)) (result object : ObjectValue K) : Prop :=
  ∀ key, ∃ r, ImageEntry stored (entries.lookup key) r ∧
    object.entries.lookup key = r.or (result.entries.lookup key)

theorem Added.cons {entries : List (String × NSObject K)} {name : String} {t : NSObject K}
    {result result' object : ObjectValue K} {r : Option (FieldValue K)}
    (hname : name ∉ entries.map Prod.fst) (ht : ImageEntry stored (some t) (r.map FieldValue.tree))
    (hself : result'.entries.lookup name = (r.map FieldValue.tree).or (result.entries.lookup name))
    (hother : ∀ key ≠ name, result'.entries.lookup key = result.entries.lookup key)
    (h : Added entries result' object) : Added ((name, t) :: entries) result object := by
  intro key
  obtain ⟨r', hr', hobject⟩ := h key
  by_cases hkey : key = name
  · subst hkey
    have hnone : entries.lookup key = none := by
      cases hlookup : entries.lookup key with
      | none => rfl
      | some t' =>
        exact absurd (List.mem_map_of_mem (mem_of_lookup_eq_some hlookup)) hname
    rw [hnone] at hr'
    cases hr'
    exact ⟨_, by rwa [List.lookup_cons_self], hobject.trans hself⟩
  · have hne : (key == name) = false := beq_eq_false_iff_ne.2 hkey
    exact ⟨r', by rwa [List.lookup_cons, hne], by rw [hobject, hother key hkey]⟩

/-- One more entry is set, or left out for a sentinel. -/
def withEntry (result : ObjectValue K) (name : String) : Option (FieldValue K) → ObjectValue K
  | some value => result.setChild name value
  | none => result

theorem Added.withEntry {entries : List (String × NSObject K)} {name : String} {t : NSObject K}
    {result object : ObjectValue K} {r : Option (FieldValue K)}
    (hname : name ∉ entries.map Prod.fst) (ht : ImageEntry stored (some t) (r.map FieldValue.tree))
    (h : Added entries (EyeMaps.withEntry result name r) object) :
    Added ((name, t) :: entries) result object := by
  cases r with
  | some value =>
    exact Added.cons hname ht (lookup_insertEntry_self name value.tree result.entries)
      (fun key hkey => lookup_insertEntry_of_ne hkey value.tree result.entries) h
  | none => exact Added.cons hname ht rfl (fun _ _ => rfl) h

/-- What has been proved of a loop over entries. -/
structure ParsedEntries (database : DatabaseId) (context : ParseContext)
    (entries : List (String × NSObject K)) (result : ObjectValue K)
    (accumulator : ParseAccumulator K) (object : ObjectValue K)
    (accumulator' : ParseAccumulator K) : Prop where
  clean : ∀ p ∈ entries, Nameable context p.1 ∧ Clean database (context.child (.key p.1)) p.2
  added : DistinctKeys entries → (∀ p ∈ entries, WellKeyed p.2) → Added entries result object
  quiet : context.path = none → accumulator' = accumulator
  collected : (∀ p ∈ entries, WellKeyed p.2) → ∀ note, accumulator'.Holds note ↔
    accumulator.Holds note ∨ ∃ p ∈ entries,
      p.2.Somewhere fun path part => Leaves ((context.child (.key p.1)).descend path) part note

theorem ends_parseEntries {entries : List (String × NSObject K)}
    (all : List (String × NSObject K)) (hall : ∀ p ∈ entries, p ∈ all)
    (hP : ∀ name, P (context.child (.key name))) (ih : ∀ p ∈ entries, Parses database P p.2)
    (result : ObjectValue K) (accumulator : ParseAccumulator K) :
    Ends (parseEntries database context entries result) accumulator
      (ParsedEntries database context entries result accumulator)
      (Blamed database context (.dictionary all)) := by
  induction entries generalizing result accumulator with
  | nil =>
    refine .pure ⟨fun p hp => (by cases hp), fun _ _ key => ⟨none, .absent, ?_⟩, fun _ => rfl,
      fun _ note => ?_⟩
    · rw [Option.none_or]
    · simp
  | cons p entries ihl =>
    obtain ⟨name, t⟩ := p
    have hmem : (name, t) ∈ all := hall _ List.mem_cons_self
    have hrest := ihl (fun p hp => hall p (List.mem_cons_of_mem _ hp))
      fun p hp => ih p (List.mem_cons_of_mem _ hp)
    rw [parseEntries]
    refine Ends.bind (yields_childContext hmem) ?_
    rintro _ s ⟨⟨hname, rfl⟩, rfl⟩
    refine ((ih _ List.mem_cons_self _ s (hP name)).mono (fun _ _ => id) ?_).bind ?_
    · exact fun failure h => somewhere_dictionary_iff.2 (.inr ⟨name, t, hmem, h⟩)
    intro r s' hparsed
    have hloop : Ends (parseEntries database context entries (withEntry result name r)) s'
        (ParsedEntries database context ((name, t) :: entries) result s)
        (Blamed database context (.dictionary all)) := by
      refine (hrest (withEntry result name r) s').mono ?_ fun _ => id
      intro object t' h
      refine ⟨List.forall_mem_cons.2 ⟨⟨hname, hparsed.clean⟩, h.clean⟩,
        fun hdistinct hkeyed => ?_, fun hpath => ?_, fun hkeyed note => ?_⟩
      · obtain ⟨hnew, hdistinct⟩ := List.nodup_cons.1 hdistinct
        obtain ⟨hkeyedt, hkeyed⟩ := List.forall_mem_cons.1 hkeyed
        exact (h.added hdistinct hkeyed).withEntry hnew (hparsed.image hkeyedt)
      · refine (h.quiet hpath).trans (hparsed.quiet ?_)
        rw [ParseContext.child, hpath]
        rfl
      · obtain ⟨hkeyedt, hkeyed⟩ := List.forall_mem_cons.1 hkeyed
        rw [h.collected hkeyed, hparsed.collected hkeyedt, List.exists_mem_cons_iff, or_assoc]
    -- With a value the loop goes on with one more entry, without one with the map as it is.
    cases r with
    | some value => exact hloop
    | none => exact hloop

theorem parsed_dictionary {entries : List (String × NSObject K)} {object : ObjectValue K}
    {accumulator' : ParseAccumulator K} (hne : entries ≠ [])
    (h : ParsedEntries database context entries .empty accumulator object accumulator') :
    Parsed database context (.dictionary entries) accumulator (some object.asFieldValue)
      accumulator' where
  clean := by
    refine everywhere_dictionary_iff.2
      ⟨fun failure hfaulty => ?_, fun key t hmem => (h.clean (key, t) hmem).2⟩
    cases hfaulty with
    | emptyName hmem => exact (h.clean _ hmem).1.1 rfl
    | reservedName hmem hwrite hname => exact (h.clean _ hmem).1.2 ⟨hwrite, hname⟩
  sentinel := fun h => by cases h
  image := fun hkeyed => by
    obtain ⟨hdistinct, hkeyed⟩ := wellKeyed_dictionary_iff.1 hkeyed
    refine .kept (image_dictionary_iff.2 ⟨_, rfl, fun key => ?_⟩)
    obtain ⟨r, hr, hobject⟩ := h.added hdistinct hkeyed key
    have hempty : (ObjectValue.empty : ObjectValue K).entries.lookup key = none := rfl
    rw [hempty, Option.or_none] at hobject
    rwa [hobject]
  quiet := h.quiet
  collected := fun hkeyed note => by
    rw [h.collected (wellKeyed_dictionary_iff.1 hkeyed).2, somewhere_dictionary_iff]
    refine or_congr_right ⟨?_, ?_⟩
    · rintro ⟨p, hp, hleaves⟩
      exact .inr ⟨p.1, p.2, hp, hleaves⟩
    · rintro (hleaves | ⟨key, t, hmem, hleaves⟩)
      · cases hleaves with
        | empty => exact absurd rfl hne
      · exact ⟨(key, t), hmem, hleaves⟩

/-- The path of a dictionary without entries joins the field mask, unless it is the whole data. -/
theorem holds_addEmptyToFieldMask (context : ParseContext) (accumulator : ParseAccumulator K) :
    ∃ t, addEmptyToFieldMask context accumulator = .ok ((), t) ∧
      (context.path = none → t = accumulator) ∧
      ∀ note, t.Holds note ↔ accumulator.Holds note ∨ Leaves context (.dictionary []) note := by
  unfold addEmptyToFieldMask
  rcases hpath : context.path with _ | _ | ⟨name, path⟩
  · refine ⟨accumulator, rfl, fun _ => rfl, fun note => (or_iff_left fun h => ?_).symm⟩
    cases h with
    | empty h => exact Option.some_ne_none _ (h.symm.trans hpath)
  · refine ⟨accumulator, rfl, fun _ => rfl, fun note => (or_iff_left fun h => ?_).symm⟩
    cases h with
    | empty h hne => exact hne (Option.some.inj (h.symm.trans hpath))
  · obtain ⟨t, ht, hnote⟩ := holds_addToFieldMask (name :: path) accumulator
    refine ⟨t, ht, fun hnone => (by cases hnone), fun note => ?_⟩
    rw [hnote]
    refine or_congr_right ⟨?_, fun h => ?_⟩
    · rintro rfl
      exact .empty hpath (List.cons_ne_nil _ _)
    · cases h with
      | empty h => rw [Option.some.inj (hpath.symm.trans h)]

/-- A dictionary is parsed to a map. -/
theorem ends_parseDictionary {entries : List (String × NSObject K)}
    (hP : ∀ name, P (context.child (.key name))) (ih : ∀ p ∈ entries, Parses database P p.2) :
    Ends (parseData database context (.dictionary entries)) accumulator
      (fun r s => ∃ object : ObjectValue K, r = some object.asFieldValue ∧
        Parsed database context (.dictionary entries) accumulator r s)
      (Blamed database context (.dictionary entries)) := by
  rw [parseData]
  by_cases hempty : entries = []
  · subst hempty
    obtain ⟨t, hmask, hquiet, hnote⟩ := holds_addEmptyToFieldMask context accumulator
    refine Ends.bind_ok hmask
      (.pure ⟨.empty, rfl, ?_, fun h => (by cases h), fun _ => ?_, hquiet, fun _ => ?_⟩)
    · refine everywhere_dictionary_iff.2 ⟨fun failure h => ?_, fun _ _ hmem => by cases hmem⟩
      cases h with
      | emptyName hmem => cases hmem
      | reservedName hmem => cases hmem
    · exact .kept (image_dictionary_iff.2 ⟨[], rfl, fun key => .absent⟩)
    · intro note
      rw [hnote, somewhere_dictionary_iff]
      refine or_congr_right ⟨.inl, ?_⟩
      rintro (h | ⟨key, t, hmem, -⟩)
      · exact h
      · cases hmem
  · rw [if_neg (by simpa using hempty)]
    refine (ends_parseEntries entries (fun _ => id) hP ih .empty accumulator).bind ?_
    exact fun object s h => .pure ⟨object, rfl, parsed_dictionary hempty h⟩

theorem parses_dictionary {entries : List (String × NSObject K)}
    (hP : ∀ context step, P context → P (context.child step))
    (ih : ∀ p ∈ entries, Parses database P p.2) : Parses database P (.dictionary entries) :=
  fun context _ hcontext =>
    (ends_parseDictionary (fun name => hP context (.key name) hcontext) ih).mono
      (fun _ _ ⟨_, _, h⟩ => h) fun _ => id

/-! ### Arguments -/

/-- Where nothing is written every sentinel is faulty, whatever it holds. -/
theorem parses_argument (t : NSObject K) :
    Parses database (fun context => context.write = false) t := by
  have hchild : ∀ (context : ParseContext) (step : Document.Step), context.write = false →
      (context.child step).write = false :=
    fun context step h => (context.write_child step).trans h
  induction t using Document.induction with
  | leaf a =>
    by_cases ha : ∃ fieldValue, a = .fieldValue fieldValue
    · obtain ⟨fieldValue, rfl⟩ := ha
      intro context accumulator hwrite
      rw [parseData, parseSentinelFieldValue.eq_def, if_pos hwrite]
      exact Ends.bind (.throw (somewhere_leaf_iff.2 (.sentinelNotWritten hwrite)))
        fun _ _ (h : False) => h.elim
    · exact parses_scalar fun fieldValue h => ha ⟨fieldValue, h⟩
  | array elements ih => exact parses_array hchild ih
  | dictionary entries ih => exact parses_dictionary hchild ih

theorem yields_parseApart {α : Type} {parse : ParseM K α} {post : α → Prop}
    {fail : ParseFailure → Prop} (h : Ends parse .empty (fun a _ => post a) fail) :
    Yields (parseApart parse) accumulator post fail := by
  rcases h with ⟨a, s, ha, hpost⟩ | ⟨failure, herror, hfail⟩
  · refine .of_ok ?_ ⟨hpost, rfl⟩
    rw [parseApart, ha]
  · refine .of_error ?_ hfail
    rw [parseApart, herror]

/-- The elements of an array transform are parsed to their images, unless one of them is faulty; the
assertion about each of them holds. -/
theorem yields_parseTransformElements (elements : List (NSObject K)) (i : ℕ) :
    Yields (parseTransformElements database i elements) .empty
      (fun values => (∀ t ∈ elements, Clean database elementContext t) ∧
        ((∀ t ∈ elements, t.Proper) → Elements elements values))
      fun failure => ∃ t ∈ elements, Blamed database elementContext t failure := by
  induction elements generalizing i with
  | nil => exact .pure ⟨fun t ht => (by cases ht), fun _ => .nil⟩
  | cons t elements ihl =>
    have ht : Ends (parseData database elementContext t) .empty
        (Parsed database elementContext t .empty) (Blamed database elementContext t) :=
      parses_argument t elementContext .empty rfl
    rw [parseTransformElements]
    refine Ends.bind (ht.mono (fun _ _ => id) fun failure h => ⟨t, List.mem_cons_self, h⟩) ?_
    intro r s hparsed
    obtain rfl : s = .empty := hparsed.quiet rfl
    obtain ⟨value, rfl⟩ := hparsed.exists_value rfl
    refine Yields.bind_ok (a := value) rfl (Yields.bind ((ihl (i + 1)).mono (fun _ => id) ?_) ?_)
    · rintro failure ⟨t', ht', hblamed⟩
      exact ⟨t', List.mem_cons_of_mem _ ht', hblamed⟩
    rintro values ⟨hclean, himage⟩
    refine .pure ⟨List.forall_mem_cons.2 ⟨hparsed.clean, hclean⟩, fun hproper => ?_⟩
    obtain ⟨hpropert, hproper⟩ := List.forall_mem_cons.1 hproper
    have hkeyed : WellKeyed t := wellKeyed_of_clean hparsed.clean rfl hpropert
    exact .cons (imageEntry_some_iff.1 (hparsed.image hkeyed)) (himage hproper)

theorem yields_parsedQueryValue {operand : IncrementOperand K} :
    Yields (parsedQueryValue database operand.number) accumulator
      (fun value => (∀ n, operand = .integer n → ¬ llongMax < n) ∧
        ∃ b, stored (.number operand.number) = some b ∧ value = .scalar b)
      fun failure => ∃ value, operand = .integer value ∧ llongMax < value ∧
        failure = .invalidArgument ("NSNumber (" ++ toString value ++ ") is too large") := by
  have hscalar : Yields (parseScalarValue database (.root .argument) (.number operand.number))
      (.empty : ParseAccumulator K) _ _ := yields_parseScalarValue fun _ h => by cases h
  refine yields_parseApart (Ends.mono hscalar ?_ ?_)
  · rintro value _ ⟨⟨hclean, hb⟩, -⟩
    refine ⟨?_, hb⟩
    rintro n rfl hn
    exact hclean _ (.tooLarge hn)
  · intro failure h
    cases operand with
    | double value => cases h
    | integer value =>
      cases h with
      | tooLarge hvalue =>
        refine ⟨value, rfl, hvalue, ?_⟩
        simp [ParseContext.fieldDescription, ParseContext.root]

/-- The operand of an increment is a number, as is asserted. -/
theorem numericIncrementTransform_scalar {operand : IncrementOperand K} {b : FieldScalar K}
    (hb : stored (.number operand.number) = some b) (accumulator : ParseAccumulator K) :
    numericIncrementTransform (.scalar b) accumulator =
      .ok (.numericIncrement (.scalar b), accumulator) := by
  cases operand <;> (cases hb; rfl)

/-! ### Sentinels -/

/-- Where a sentinel may stand, only what is asked of the delete, of an operand and of the elements
can be wrong. -/
theorem not_faulty_sentinel {fieldValue : FIRFieldValue K} {path : FieldPath}
    (hwrite : context.write = true) (hpath : context.path = some path)
    (hdelete : fieldValue = .delete → context.dataSource = .mergeSet)
    (hoperand : ∀ value, fieldValue = .increment (.integer value) → ¬ llongMax < value)
    (helements : ∀ t ∈ fieldValue.elements, Clean database elementContext t)
    (failure : ParseFailure) :
    ¬ Faulty database context (.leaf (.fieldValue fieldValue)) failure := by
  intro h
  cases h with
  | sentinelNotWritten h => exact Bool.false_ne_true (h.symm.trans hwrite)
  | sentinelInArray _ h => exact Option.some_ne_none path (hpath.symm.trans h)
  | deleteUpdate h => cases h.symm.trans (hdelete rfl)
  | deleteInUpdate h => cases h.symm.trans (hdelete rfl)
  | deleteInSet h => cases h.symm.trans (hdelete rfl)
  | operandTooLarge _ _ h => exact hoperand _ rfl h
  | element _ _ ht hpart h => exact helements _ ht _ _ hpart _ h

theorem leaves_transform_iff {fieldValue : FIRFieldValue K} {operation : TransformOperation K}
    {path : FieldPath} (hoperation : StandsFor fieldValue operation)
    (hpath : context.path = some path) (note : Note K) :
    Leaves context (.leaf (.fieldValue fieldValue)) note ↔ note = .transform path operation := by
  constructor
  · intro h
    cases h with
    | scalar ha => exact absurd rfl (ha _)
    | delete => cases hoperation
    | transform hoperation' h =>
      rw [Option.some.inj (hpath.symm.trans h), hoperation.unique hoperation']
  · rintro rfl
    exact .transform hoperation hpath

theorem leaves_delete_iff {path : FieldPath} (hsource : context.dataSource = .mergeSet)
    (hpath : context.path = some path) (note : Note K) :
    Leaves context (.leaf (.fieldValue .delete)) note ↔ note = .field path := by
  constructor
  · intro h
    cases h with
    | scalar ha => exact absurd rfl (ha _)
    | delete _ h => rw [Option.some.inj (hpath.symm.trans h)]
    | transform hoperation => cases hoperation
  · rintro rfl
    exact .delete hsource hpath

/-- What has been proved of a sentinel that is taken. -/
structure Taken (database : DatabaseId) (context : ParseContext) (fieldValue : FIRFieldValue K)
    (accumulator accumulator' : ParseAccumulator K) : Prop where
  clean : ∀ failure, ¬ Faulty database context (.leaf (.fieldValue fieldValue)) failure
  collected : (∀ t ∈ fieldValue.elements, t.Proper) → ∀ note, accumulator'.Holds note ↔
    accumulator.Holds note ∨ Leaves context (.leaf (.fieldValue fieldValue)) note

/-- A sentinel that stands for a transform is taken once the transform is known. -/
theorem ends_addToFieldTransforms {fieldValue : FIRFieldValue K} {path : FieldPath}
    {operation : TransformOperation K} {fail : ParseFailure → Prop} (hwrite : context.write = true)
    (hpath : context.path = some path) (hdelete : fieldValue ≠ .delete)
    (hoperand : ∀ value, fieldValue = .increment (.integer value) → ¬ llongMax < value)
    (helements : ∀ t ∈ fieldValue.elements, Clean database elementContext t)
    (hoperation : (∀ t ∈ fieldValue.elements, t.Proper) → StandsFor fieldValue operation) :
    Ends (ParseAccumulator.addToFieldTransforms path operation) accumulator
      (fun _ => Taken database context fieldValue accumulator) fail := by
  obtain ⟨t, ht, hnote⟩ := holds_addToFieldTransforms path operation accumulator
  refine .of_ok ht ⟨?_, fun hproper note => ?_⟩
  · exact not_faulty_sentinel hwrite hpath (fun h => absurd h hdelete) hoperand helements
  · rw [hnote, leaves_transform_iff (hoperation hproper) hpath]

/-- An array transform is taken with the images of its elements. -/
theorem ends_arrayTransform {fieldValue : FIRFieldValue K} {path : FieldPath}
    {operation : List (FieldValue K) → TransformOperation K} (hwrite : context.write = true)
    (hpath : context.path = some path) (hdelete : fieldValue ≠ .delete)
    (hincrement : ∀ operand, fieldValue ≠ .increment operand)
    (hoperation : ∀ values, Elements fieldValue.elements values →
      StandsFor fieldValue (operation values)) :
    Ends
      (do
        let parsedElements ←
          parseApart (parseTransformElements database 0 fieldValue.elements)
        ParseAccumulator.addToFieldTransforms path (operation parsedElements))
      accumulator (fun _ => Taken database context fieldValue accumulator)
      (Faulty database context (.leaf (.fieldValue fieldValue))) := by
  have helements : Yields (parseTransformElements database 0 fieldValue.elements)
      (.empty : ParseAccumulator K) _ _ := yields_parseTransformElements fieldValue.elements 0
  have hapart : Yields (parseApart (parseTransformElements database 0 fieldValue.elements))
      accumulator _ _ := yields_parseApart (Ends.mono helements (fun _ _ h => h.1) fun _ => id)
  refine Ends.bind (hapart.mono (fun _ => id) ?_) ?_
  · rintro failure ⟨t, ht, steps, part, hpart, h⟩
    exact .element hwrite hpath ht hpart h
  rintro values s ⟨⟨hclean, hvalues⟩, rfl⟩
  exact ends_addToFieldTransforms hwrite hpath hdelete
    (fun value h => absurd h (hincrement (.integer value))) hclean
    fun hproper => hoperation values (hvalues hproper)

/-- A sentinel is taken as a transform, or joins the field mask, unless it is faulty. -/
theorem ends_parseSentinelFieldValue (fieldValue : FIRFieldValue K) :
    Ends (parseSentinelFieldValue database context fieldValue) accumulator
      (fun _ => Taken database context fieldValue accumulator)
      (Faulty database context (.leaf (.fieldValue fieldValue))) := by
  rw [parseSentinelFieldValue.eq_def]
  by_cases hwrite : context.write = false
  · rw [if_pos hwrite]
    exact .throw (.sentinelNotWritten hwrite)
  rw [if_neg hwrite]
  have hwrite := Bool.eq_true_of_not_eq_false hwrite
  split
  next hpath => exact .throw (.sentinelInArray hwrite hpath)
  next path hpath =>
    cases fieldValue with
    | serverTimestamp =>
      exact ends_addToFieldTransforms hwrite hpath (fun h => by cases h) (fun _ h => by cases h)
        (fun _ h => by cases h) fun _ => .serverTimestamp
    | arrayUnion elements =>
      have hoperation : ∀ values, Elements (FIRFieldValue.arrayUnion elements).elements values →
          StandsFor (.arrayUnion elements) (.arrayUnion values) := fun _ => .arrayUnion
      exact ends_arrayTransform hwrite hpath (fun h => by cases h) (fun _ h => by cases h)
        hoperation
    | arrayRemove elements =>
      have hoperation : ∀ values, Elements (FIRFieldValue.arrayRemove elements).elements values →
          StandsFor (.arrayRemove elements) (.arrayRemove values) := fun _ => .arrayRemove
      exact ends_arrayTransform hwrite hpath (fun h => by cases h) (fun _ h => by cases h)
        hoperation
    | increment operand =>
      refine Ends.bind (Yields.mono yields_parsedQueryValue (fun _ => id) ?_) ?_
      · rintro _ ⟨value, rfl, hvalue, rfl⟩
        exact .operandTooLarge hwrite hpath hvalue
      rintro _ s ⟨⟨hvalue, b, hb, rfl⟩, rfl⟩
      refine Ends.bind_ok (numericIncrementTransform_scalar hb s) ?_
      exact ends_addToFieldTransforms hwrite hpath (fun h => by cases h)
        (fun value h => hvalue value (FIRFieldValue.increment.inj h)) (fun _ h => by cases h)
        fun _ => .increment hb
    | delete =>
      cases hsource : context.dataSource with
      | mergeSet =>
        obtain ⟨t, ht, hnote⟩ := holds_addToFieldMask path accumulator
        refine .of_ok ht ⟨?_, fun _ note => ?_⟩
        · exact not_faulty_sentinel hwrite hpath (fun _ => hsource) (fun _ h => by cases h)
            fun _ h => by cases h
        · rw [hnote, leaves_delete_iff hsource hpath]
      | set => exact .throw (.deleteInSet hsource hpath)
      | update =>
        by_cases hne : path = []
        · simp only [if_pos hne]
          exact .throw (.deleteUpdate hsource (hne ▸ hpath))
        · simp only [if_neg hne]
          exact .throw (.deleteInUpdate hsource hpath hne)
      | argument => simp [ParseContext.write, hsource] at hwrite
      | arrayArgument => simp [ParseContext.write, hsource] at hwrite

/-- Without a path a sentinel is faulty. -/
theorem Taken.path_ne_none {fieldValue : FIRFieldValue K} {accumulator' : ParseAccumulator K}
    (h : Taken database context fieldValue accumulator accumulator') : context.path ≠ none := by
  intro hpath
  cases hwrite : context.write with
  | false => exact h.clean _ (.sentinelNotWritten hwrite)
  | true => exact h.clean _ (.sentinelInArray hwrite hpath)

theorem parses_sentinel (fieldValue : FIRFieldValue K) :
    Parses database P (.leaf (.fieldValue fieldValue)) := by
  intro context accumulator _
  rw [parseData]
  refine ((ends_parseSentinelFieldValue fieldValue).mono (fun _ _ => id) ?_).bind ?_
  · exact fun failure h => somewhere_leaf_iff.2 h
  intro _ s htaken
  refine .pure ⟨everywhere_leaf_iff.2 htaken.clean, fun _ => ⟨fieldValue, rfl⟩,
    fun _ => .dropped rfl, fun hpath => absurd hpath htaken.path_ne_none, fun hkeyed note => ?_⟩
  rw [htaken.collected (wellKeyed_leaf_iff.1 hkeyed fieldValue rfl), somewhere_leaf_iff]
  rfl

theorem parses (t : NSObject K) : Parses database (fun _ => True) t := by
  induction t using Document.induction with
  | leaf a =>
    by_cases ha : ∃ fieldValue, a = .fieldValue fieldValue
    · obtain ⟨fieldValue, rfl⟩ := ha
      exact parses_sentinel fieldValue
    · exact parses_scalar fun fieldValue h => ha ⟨fieldValue, h⟩
  | array elements ih => exact parses_array (fun _ _ => id) ih
  | dictionary entries ih => exact parses_dictionary (fun _ _ => id) ih

end Parse

/-! ## `setData` -/

section SetData

variable {database : DatabaseId} {input : List (String × NSObject K)}

/-- Only an update meets an assertion. -/
theorem Faulty.exists_message {context : ParseContext} {t : NSObject K} {failure : ParseFailure}
    (h : Faulty database context t failure) (hsource : context.dataSource ≠ .update) :
    ∃ message, failure = .invalidArgument message ∨ failure = .invalidTimestamp message := by
  induction h with
  | deleteUpdate hupdate => exact absurd hupdate hsource
  | @element _ _ _ _ steps _ _ _ _ _ _ _ ih =>
    refine ih ?_
    rw [ParseContext.dataSource_descend]
    decide
  | invalidDate => exact ⟨_, .inr rfl⟩
  | _ => exact ⟨_, .inl rfl⟩

/-- Data that is set meets no assertion. -/
theorem Blamed.exists_message {t : NSObject K} {failure : ParseFailure}
    (h : Blamed database (.root .set) t failure) :
    ∃ message, failure = .invalidArgument message ∨ failure = .invalidTimestamp message := by
  obtain ⟨path, part, -, hfaulty⟩ := h
  refine hfaulty.exists_message ?_
  rw [ParseContext.dataSource_descend]
  decide

/-- What the converter does with the data that is set, in two cases. -/
theorem parsedSetData_cases (database : DatabaseId) (input : List (String × NSObject K)) :
    (∃ parsed accumulator, parsedSetData database input = .ok parsed ∧
        parsed.fieldTransforms = accumulator.fieldTransforms ∧
        Parsed database (.root .set) (.dictionary input) .empty
          (some parsed.data.asFieldValue) accumulator) ∨
      ∃ failure, parsedSetData database input = .error failure ∧
        Blamed database (.root .set) (.dictionary input) failure := by
  have hparse : Ends (parseData database (.root .set) (.dictionary input)) .empty
      (fun r s => ∃ object : ObjectValue K, r = some object.asFieldValue ∧
        Parsed database (.root .set) (.dictionary input) .empty r s)
      (Blamed database (.root .set) (.dictionary input)) :=
    ends_parseDictionary (P := fun _ => True) (fun _ => trivial) fun p _ => parses p.2
  rcases hparse with ⟨_, s, hok, object, rfl, hparsed⟩ | ⟨failure, herror, hblamed⟩
  · refine .inl ⟨⟨object, s.fieldTransforms⟩, s, ?_, rfl, hparsed⟩
    rw [parsedSetData, hok]
    rfl
  · refine .inr ⟨failure, ?_, hblamed⟩
    rw [parsedSetData, herror]

/-- What is blamed is not clean. -/
theorem Blamed.not_clean {context : ParseContext} {t : NSObject K} {failure : ParseFailure}
    (h : Blamed database context t failure) : ¬ Clean database context t := by
  obtain ⟨path, part, hpart, hfaulty⟩ := h
  exact fun hclean => hclean path part hpart failure hfaulty

/-- A dictionary is accepted if and only if none of its parts is faulty; otherwise the exception is
that of a faulty part, and no assertion fails. -/
theorem parsedSetData_outcome (database : DatabaseId) (input : List (String × NSObject K)) :
    ((∃ parsed, parsedSetData database input = .ok parsed) ↔
        Clean database (.root .set) (.dictionary input)) ∧
      ∀ failure, parsedSetData database input = .error failure →
        (∃ message, failure = .invalidArgument message ∨ failure = .invalidTimestamp message) ∧
          Blamed database (.root .set) (.dictionary input) failure := by
  rcases parsedSetData_cases database input with ⟨parsed, s, hok, -, h⟩ | ⟨failure, herror, h⟩
  · refine ⟨⟨fun _ => h.clean, fun _ => ⟨parsed, hok⟩⟩, fun failure herror => ?_⟩
    rw [hok] at herror
    cases herror
  · refine ⟨⟨fun ⟨parsed, hok⟩ => ?_, fun hclean => (h.not_clean hclean).elim⟩,
      fun failure' herror' => ?_⟩
    · rw [herror] at hok
      cases hok
    · rw [herror] at herror'
      cases herror'
      exact ⟨h.exists_message, h⟩

end SetData

end EyeMaps
