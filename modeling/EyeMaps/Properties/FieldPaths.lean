import EyeMaps.Model.FieldPath

/-!
# Paths of fields are read back

The reader of the server format consumes what the writer puts out, one name at a time: an identifier
character by character, any other name between two backticks, its escapes undone on the way
(`parse_escapedSegment`).  A null is the one character that the writer does not protect; it ends the
reader in the middle of the backticks.
-/

namespace EyeMaps

namespace FieldPath

/-! ## One character -/

section Steps

variable (segments : FieldPath) (segment : List Char) (insideBackticks : Bool) (rest : List Char)

theorem parse_null :
    parse segments segment insideBackticks ('\x00' :: rest) =
      finish segments segment insideBackticks := by
  rw [parse.eq_def]
  show ite _ _ _ = _
  rw [if_pos rfl]

theorem parse_backtick :
    parse segments segment insideBackticks (backtick :: rest) =
      parse segments segment (!insideBackticks) rest := by
  rw [parse.eq_def]
  show ite _ _ _ = _
  rw [if_neg (by decide), if_neg (by decide), if_pos rfl]

theorem parse_dot :
    parse segments segment false ('.' :: rest) =
      (finishSegment segments segment).bind fun segments => parse segments [] false rest := by
  rw [parse.eq_def]
  show ite _ _ _ = _
  rw [if_neg (by decide), if_pos rfl]
  rfl

theorem parse_escaped (c : Char) :
    parse segments segment insideBackticks ('\\' :: c :: rest) =
      parse segments (segment ++ [c]) insideBackticks rest := by
  rw [parse.eq_def]
  show ite _ _ _ = _
  rw [if_neg (by decide), if_neg (by decide), if_neg (by decide), if_pos rfl]

/-- A character that is not special joins the segment; a dot does in backticks. -/
theorem parse_plain {c : Char} (hnull : c ≠ '\x00') (hdot : c = '.' → insideBackticks = true)
    (hbacktick : c ≠ backtick) (hbackslash : c ≠ '\\') :
    parse segments segment insideBackticks (c :: rest) =
      parse segments (segment ++ [c]) insideBackticks rest := by
  rw [parse.eq_def]
  show ite _ _ _ = _
  rw [if_neg hnull]
  by_cases hc : c = '.'
  · rw [if_pos hc, if_pos (hdot hc)]
  · rw [if_neg hc, if_neg hbacktick, if_neg hbackslash]

end Steps

/-! ## One segment -/

variable (segments : FieldPath)

theorem parse_escape {c : Char} (hc : c ≠ '\x00') (segment rest : List Char) :
    parse segments segment true (escape c ++ rest) =
      parse segments (segment ++ [c]) true rest := by
  unfold escape
  split
  next => exact parse_escaped segments segment true rest c
  next hspecial =>
    obtain ⟨hbackslash, hbacktick⟩ := not_or.1 hspecial
    exact parse_plain segments segment true rest hc (fun _ => rfl) hbacktick hbackslash

/-- What is escaped is read back between backticks. -/
theorem parse_flatMap_escape {cs : List Char} (h : '\x00' ∉ cs) (segment rest : List Char) :
    parse segments segment true (cs.flatMap escape ++ rest) =
      parse segments (segment ++ cs) true rest := by
  induction cs generalizing segment with
  | nil => rw [List.flatMap_nil, List.nil_append, List.append_nil]
  | cons c cs ih =>
    have hc : c ≠ '\x00' := fun hc => h (hc ▸ List.mem_cons_self)
    have hcs : '\x00' ∉ cs := fun hcs => h (List.mem_cons_of_mem _ hcs)
    rw [List.flatMap_cons, List.append_assoc, parse_escape segments hc, ih hcs, List.append_assoc,
      List.singleton_append]

/-- A null between backticks is an error. -/
theorem parse_flatMap_escape_of_null {cs : List Char} (h : '\x00' ∈ cs)
    (segment rest : List Char) :
    parse segments segment true (cs.flatMap escape ++ rest) = none := by
  induction cs generalizing segment with
  | nil => cases h
  | cons c cs ih =>
    rw [List.flatMap_cons, List.append_assoc]
    by_cases hc : c = '\x00'
    · have hescape : escape c = ['\x00'] := by
        rw [hc]
        decide
      rw [hescape, List.singleton_append, parse_null]
      simp [finish]
    · have hcs : '\x00' ∈ cs := (List.mem_cons.1 h).resolve_left fun heq => hc heq.symm
      rw [parse_escape segments hc, ih hcs]

/-- The characters of an identifier are read as they are. -/
theorem parse_identifier {cs : List Char}
    (h : ∀ c ∈ cs, c = '_' ∨ c.isAlphanum = true) (segment rest : List Char) :
    parse segments segment false (cs ++ rest) = parse segments (segment ++ cs) false rest := by
  induction cs generalizing segment with
  | nil => rw [List.nil_append, List.append_nil]
  | cons c cs ih =>
    have hc := h c List.mem_cons_self
    have hplain : ∀ c' : Char, c' ≠ '_' → c'.isAlphanum = false → c ≠ c' := by
      rintro c' hne hnot rfl
      rcases hc with rfl | hc
      · exact hne rfl
      · rw [hnot] at hc
        cases hc
    rw [List.cons_append, parse_plain segments segment false _ (hplain _ (by decide) (by decide))
      (fun hdot => absurd hdot (hplain _ (by decide) (by decide)))
      (hplain _ (by decide) (by decide)) (hplain _ (by decide) (by decide)),
      ih (fun c hc => h c (List.mem_cons_of_mem _ hc)), List.append_assoc, List.singleton_append]

theorem isIdentifier_of_isValidIdentifier {cs : List Char} (h : isValidIdentifier cs = true) :
    ∀ c ∈ cs, c = '_' ∨ c.isAlphanum = true := by
  cases cs with
  | nil => cases h
  | cons first rest =>
    simp only [isValidIdentifier, Bool.and_eq_true, Bool.or_eq_true, beq_iff_eq,
      List.all_eq_true] at h
    intro c hc
    rcases List.mem_cons.1 hc with rfl | hc
    · exact h.1.imp_right fun halpha => by simp [Char.isAlphanum, halpha]
    · exact h.2 c hc

/-- An identifier is not changed by escaping it. -/
theorem flatMap_escape_eq_self {cs : List Char}
    (h : isValidIdentifier (cs.flatMap escape) = true) : cs.flatMap escape = cs := by
  have hplain : ∀ c ∈ cs, escape c = [c] := by
    intro c hc
    unfold escape
    rw [if_neg]
    rintro (rfl | rfl)
    · have hbackslash : '\\' ∈ cs.flatMap escape :=
        List.mem_flatMap.2 ⟨_, hc, by decide⟩
      have hnot : ¬ ('\\' = '_' ∨ '\\'.isAlphanum = true) := by decide
      exact hnot (isIdentifier_of_isValidIdentifier h _ hbackslash)
    · have hbacktick : backtick ∈ cs.flatMap escape :=
        List.mem_flatMap.2 ⟨_, hc, by decide⟩
      have hnot : ¬ (backtick = '_' ∨ backtick.isAlphanum = true) := by decide
      exact hnot (isIdentifier_of_isValidIdentifier h _ hbacktick)
  rw [List.flatMap_congr hplain, List.flatMap_singleton']

/-- A segment is written as it is, or escaped between backticks. -/
theorem escapedSegment_eq (name : String) :
    (isValidIdentifier name.toList = true ∧ escapedSegment name = name.toList) ∨
      escapedSegment name = backtick :: (name.toList.flatMap escape ++ [backtick]) := by
  by_cases hvalid : isValidIdentifier (name.toList.flatMap escape) = true
  · have hself := flatMap_escape_eq_self hvalid
    have hsegment : escapedSegment name = name.toList.flatMap escape := if_pos hvalid
    rw [hself] at hvalid hsegment
    exact .inl ⟨hvalid, hsegment⟩
  · exact .inr (if_neg hvalid)

theorem parse_escapedSegment {name : String} (h : '\x00' ∉ name.toList) (rest : List Char) :
    parse segments [] false (escapedSegment name ++ rest) =
      parse segments name.toList false rest := by
  rcases escapedSegment_eq name with ⟨hvalid, hsegment⟩ | hsegment
  · rw [hsegment]
    exact parse_identifier segments (isIdentifier_of_isValidIdentifier hvalid) [] rest
  · rw [hsegment, List.cons_append, parse_backtick, List.append_assoc, Bool.not_false,
      parse_flatMap_escape segments h, List.singleton_append, parse_backtick]
    rfl

theorem parse_escapedSegment_of_null {name : String} (h : '\x00' ∈ name.toList)
    (rest : List Char) : parse segments [] false (escapedSegment name ++ rest) = none := by
  rcases escapedSegment_eq name with ⟨hvalid, -⟩ | hsegment
  · have hnull : ¬ ('\x00' = '_' ∨ '\x00'.isAlphanum = true) := by decide
    exact absurd (isIdentifier_of_isValidIdentifier hvalid _ h) hnull
  · rw [hsegment, List.cons_append, parse_backtick, List.append_assoc]
    exact parse_flatMap_escape_of_null segments h [] _

/-! ## Paths -/

/-- A name that can be read back. -/
def Readable (name : String) : Prop := name ≠ "" ∧ '\x00' ∉ name.toList

theorem finishSegment_toList (name : String) :
    finishSegment segments name.toList = if name = "" then none else some (segments ++ [name]) := by
  simp [finishSegment]

/-- The names after the first are each led by a dot. -/
theorem intercalate_cons (name : String) (names : FieldPath) :
    List.intercalate ['.'] ((name :: names).map escapedSegment) =
      escapedSegment name ++ names.flatMap fun name => '.' :: escapedSegment name := by
  induction names generalizing name with
  | nil => simp
  | cons name' names ih =>
    rw [List.flatMap_cons, List.cons_append, ← ih name']
    simp

/-- Once a name is read the names after it are, and added to those before it. -/
theorem parse_names (names : FieldPath) (name : String) {result : FieldPath} :
    parse segments name.toList false (names.flatMap fun name => '.' :: escapedSegment name) =
        some result ↔
      name ≠ "" ∧ (∀ name ∈ names, Readable name) ∧ result = segments ++ name :: names := by
  induction names generalizing segments name with
  | nil =>
    show (finishSegment segments name.toList).bind _ = _ ↔ _
    rw [finishSegment_toList]
    by_cases hname : name = ""
    · simp [hname]
    · simp [hname, eq_comm]
  | cons name' names ih =>
    rw [List.flatMap_cons, List.cons_append, parse_dot, finishSegment_toList, List.forall_mem_cons]
    by_cases hname : name = ""
    · simp [hname]
    · rw [if_neg hname, Option.bind_some]
      by_cases hnull : '\x00' ∈ name'.toList
      · rw [parse_escapedSegment_of_null _ hnull]
        have hnot : ¬ Readable name' := fun h => h.2 hnull
        simp [hnot]
      · rw [parse_escapedSegment _ hnull, ih, List.append_assoc, List.singleton_append]
        have hreadable : Readable name' ↔ name' ≠ "" := and_iff_left hnull
        simp [hreadable, hname, and_assoc]

/-- The canonical string of a path is read back as the path, and as no other, if the path is one of
readable names; any other path has a string that is rejected. -/
theorem fromServerFormat_canonicalString_iff {path result : FieldPath} :
    fromServerFormat (canonicalString path) = some result ↔
      path ≠ [] ∧ (∀ name ∈ path, Readable name) ∧ result = path := by
  rw [fromServerFormat, canonicalString, String.toList_ofList]
  cases path with
  | nil => simp [parse, finish, finishSegment]
  | cons name names =>
    rw [intercalate_cons, List.forall_mem_cons]
    by_cases hnull : '\x00' ∈ name.toList
    · rw [parse_escapedSegment_of_null _ hnull]
      have hnot : ¬ Readable name := fun h => h.2 hnull
      simp [hnot]
    · rw [parse_escapedSegment _ hnull, parse_names]
      have hreadable : Readable name ↔ name ≠ "" := and_iff_left hnull
      simp [hreadable, and_assoc]

end FieldPath

end EyeMaps
