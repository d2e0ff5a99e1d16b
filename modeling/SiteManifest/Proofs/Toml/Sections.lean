import SiteManifest.Proofs.Toml.Faults
import SiteManifest.Proofs.Toml.Values

/-!
# Sections of TOML

A table is written in sections: its plain values first, then a header for every table below it and
for every element of an array of tables. The lines of its text are those of the sections.

## Main definitions

* `Writable`: a value that TOML has a form for.
* `Document.ofMembers`: the document of a table.

## Main statements

* `lines?_documentChars`: the lines of a document are read as they were written.
* `return_not_mem_documentChars`: they hold no carriage returns.
-/
namespace SiteManifest.Toml

variable {path : List String} {key : String} {v : Json} {vs : List Json} {members : Members}
  {depth : Nat} {rest : List Char}

/-! ## Values that have a text -/

/-- A value that TOML has a form for, within some levels of nesting. -/
structure Writable (depth : Nat) (v : Json) : Prop where
  fine : fault? v = none
  once : v.KeysOnce
  nests : v.nesting ≤ depth

theorem nestingItems_le_iff : Json.nestingItems vs ≤ depth ↔ ∀ v ∈ vs, v.nesting ≤ depth := by
  induction vs with
  | nil => simp [Json.nestingItems]
  | cons v vs ih => rw [Json.nestingItems, Nat.max_le, ih, List.forall_mem_cons]

theorem nestingMembers_le_iff :
    Json.nestingMembers members ≤ depth ↔ ∀ m ∈ members, m.2.nesting ≤ depth := by
  induction members with
  | nil => simp [Json.nestingMembers]
  | cons m members ih => rw [Json.nestingMembers, Nat.max_le, ih, List.forall_mem_cons]

namespace Writable

theorem of_list (h : Writable (depth + 1) (.list vs)) : ∀ v ∈ vs, Writable depth v := by
  intro v hv
  have nests := nestingItems_le_iff.1 (Nat.le_of_succ_le_succ h.nests)
  exact ⟨itemFault?_eq_none_iff.1 h.fine v hv, Json.keysOnceItems_iff.1 h.once v hv, nests v hv⟩

theorem of_table (h : Writable (depth + 1) (.table members)) :
    ∀ m ∈ members, Writable depth m.2 := by
  intro m hm
  have nests := nestingMembers_le_iff.1 (Nat.le_of_succ_le_succ h.nests)
  exact ⟨memberFault?_eq_none_iff.1 h.fine m hm, Json.keysOnceMembers_iff.1 h.once.2 m hm,
    nests m hm⟩

theorem exists_succ_of_table (h : Writable depth (.table members)) : ∃ d, depth = d + 1 :=
  Nat.exists_eq_succ_of_ne_zero (Nat.ne_zero_of_lt h.nests)

theorem exists_succ_of_list (h : Writable depth (.list vs)) : ∃ d, depth = d + 1 :=
  Nat.exists_eq_succ_of_ne_zero (Nat.ne_zero_of_lt h.nests)

theorem readsBack (h : Writable depth v) (le : depth ≤ maxDepth) : ReadsBack v :=
  readsBack_of_fault?_eq_none h.fine h.once (Nat.le_trans h.nests le)

end Writable

/-! ## The document of a table -/

/-- The members that are written on lines of their own. -/
def plainMembers (members : Members) : Members := members.filter fun m => !hasHeader m.2

/-- The members that are written below headers. -/
def headedMembers (members : Members) : Members := members.filter fun m => hasHeader m.2

mutual

/-- The sections of a value that is written below headers. -/
def sectionOf (path : List String) (key : String) : Json → List Section
  | .table members =>
    (if needsHeader members then [⟨false, path, key, pairsOf (plainMembers members)⟩] else []) ++
      sectionsOf (path ++ [key]) members
  | .list vs => elementsOf path key vs
  | _ => []

/-- The sections of the elements of an array of tables. -/
def elementsOf (path : List String) (key : String) : List Json → List Section
  | [] => []
  | .table members :: vs =>
    ⟨true, path, key, pairsOf (plainMembers members)⟩ ::
      (sectionsOf (path ++ [key]) members ++ elementsOf path key vs)
  | _ :: vs => elementsOf path key vs

/-- The sections of all members of a table that are written below headers. -/
def sectionsOf (path : List String) : Members → List Section
  | [] => []
  | (key, v) :: members =>
    (if hasHeader v then sectionOf path key v else []) ++ sectionsOf path members

end

def Document.ofMembers (members : Members) : Document :=
  ⟨pairsOf (plainMembers members), sectionsOf [] members⟩

/-! ## Lines -/

def Section.lines (s : Section) : List Line :=
  .header s.isArray s.path s.key :: s.pairs.map .pair

def Document.lines (d : Document) : List Line :=
  d.pairs.map .pair ++ d.sections.flatMap Section.lines

theorem Document.ofLines_pairs (pairs : List Pair) (lines : List Line) :
    ofLines (pairs.map .pair ++ lines) =
      ⟨pairs ++ (ofLines lines).pairs, (ofLines lines).sections⟩ := by
  induction pairs with
  | nil => rfl
  | cons p pairs ih => simp [ofLines, ih]

theorem Document.ofLines_sections (sections : List Section) :
    ofLines (sections.flatMap Section.lines) = ⟨[], sections⟩ := by
  induction sections with
  | nil => rfl
  | cons s sections ih =>
    rw [List.flatMap_cons, Section.lines, List.cons_append, ofLines, ofLines_pairs, ih,
      List.append_nil]

/-- A document is found in its lines. -/
theorem Document.ofLines_lines (d : Document) : ofLines d.lines = d := by
  rw [lines, ofLines_pairs, ofLines_sections, List.append_nil]

theorem plainPairs_eq (members : Members) :
    plainPairs members = (pairsOf (plainMembers members)).map .pair := by
  simp [plainPairs, pairsOf, plainMembers, Function.comp_def]

theorem lines?_members (le : depth ≤ maxDepth) (h : ∀ m ∈ members, Writable depth m.2) :
    lines? (pairLines members ++ rest) =
      (lines? rest).map ((pairsOf (plainMembers members)).map Line.pair ++ ·) := by
  rw [← plainPairs_eq]
  exact lines?_pairLines fun m hm _ => (h m hm).readsBack le

mutual

theorem lines?_sectionChars (isFirst : Bool) (path : List String) (key : String) (v : Json)
    {depth : Nat} (rest : List Char) (short : path.length + depth ≤ maxDepth)
    (h : Writable depth v) :
    lines? (sectionChars isFirst (path ++ [key]) v ++ rest) =
      (lines? rest).map ((sectionOf path key v).flatMap Section.lines ++ ·) := by
  match v with
  | .table members =>
    obtain ⟨depth, rfl⟩ := h.exists_succ_of_table
    have below (isFirst : Bool) := lines?_sectionsChars isFirst (path ++ [key]) members rest
      (by simp only [List.length_append, List.length_singleton]; omega) h.of_table
    unfold sectionChars sectionOf
    split_ifs with needs
    · rw [List.append_assoc, List.append_assoc, lines?_headerLine isFirst false path (by omega),
        lines?_members (by omega) h.of_table, below]
      simp [Section.lines, Function.comp_def]
    · simpa using below _
  | .list vs =>
    obtain ⟨depth, rfl⟩ := h.exists_succ_of_list
    rw [sectionChars, sectionOf]
    exact lines?_elementsChars isFirst path key vs rest (by omega) h.of_list
  | .null | .bool _ | .number _ | .string _ => simp [sectionChars, sectionOf]

theorem lines?_elementsChars (isFirst : Bool) (path : List String) (key : String)
    (vs : List Json) {depth : Nat} (rest : List Char) (short : path.length + depth ≤ maxDepth)
    (h : ∀ v ∈ vs, Writable depth v) :
    lines? (elementsChars isFirst (path ++ [key]) vs ++ rest) =
      (lines? rest).map ((elementsOf path key vs).flatMap Section.lines ++ ·) := by
  match vs with
  | [] => simp [elementsChars, elementsOf]
  | .table members :: vs =>
    obtain ⟨here, others⟩ := List.forall_mem_cons.1 h
    obtain ⟨depth, rfl⟩ := here.exists_succ_of_table
    have more := lines?_elementsChars false path key vs rest short others
    have below := lines?_sectionsChars false (path ++ [key]) members
      (elementsChars false (path ++ [key]) vs ++ rest)
      (by simp only [List.length_append, List.length_singleton]; omega) here.of_table
    rw [elementsChars, List.append_assoc, List.append_assoc, List.append_assoc,
      lines?_headerLine isFirst true path (by omega), lines?_members (by omega) here.of_table,
      below, more]
    simp [elementsOf, Section.lines, Function.comp_def]
  | .null :: vs | .bool _ :: vs | .number _ :: vs | .string _ :: vs | .list _ :: vs =>
    rw [elementsChars, elementsOf]
    · exact lines?_elementsChars isFirst path key vs rest short (List.forall_mem_cons.1 h).2
    · simp
    · simp

theorem lines?_sectionsChars (isFirst : Bool) (path : List String) (members : Members)
    {depth : Nat} (rest : List Char) (short : path.length + depth ≤ maxDepth)
    (h : ∀ m ∈ members, Writable depth m.2) :
    lines? (sectionsChars isFirst path members ++ rest) =
      (lines? rest).map ((sectionsOf path members).flatMap Section.lines ++ ·) := by
  match members with
  | [] => simp [sectionsChars, sectionsOf]
  | (key, v) :: members =>
    obtain ⟨here, others⟩ := List.forall_mem_cons.1 h
    have more (isFirst : Bool) := lines?_sectionsChars isFirst path members rest short others
    unfold sectionsChars sectionsOf
    split_ifs with headed
    · rw [List.append_assoc, lines?_sectionChars isFirst path key v _ short here, more]
      simp [Function.comp_def]
    · simpa using more _

end

/-- The lines of a document are read as they were written. -/
theorem lines?_documentChars (le : depth ≤ maxDepth) (h : ∀ m ∈ members, Writable depth m.2) :
    lines? (documentChars members) = some (Document.ofMembers members).lines := by
  have sections := lines?_sectionsChars (pairLines members).isEmpty [] members []
    (by simpa using le) h
  rw [List.append_nil, lines?_nil] at sections
  rw [documentChars, lines?_members le h, sections]
  simp [Document.lines, Document.ofMembers]

/-! ## Carriage returns -/

theorem return_not_mem_pairLines_members (members : Members) : '\r' ∉ pairLines members :=
  return_not_mem_pairLines fun m _ _ => return_not_mem_valueChars m.2

mutual

theorem return_not_mem_sectionChars (isFirst : Bool) (path : List String) (v : Json) :
    '\r' ∉ sectionChars isFirst path v := by
  match v with
  | .table members =>
    have below (isFirst : Bool) := return_not_mem_sectionsChars isFirst path members
    unfold sectionChars
    split_ifs <;> simp [return_not_mem_headerLine, return_not_mem_pairLines_members, below]
  | .list vs =>
    rw [sectionChars]
    exact return_not_mem_elementsChars isFirst path vs
  | .null | .bool _ | .number _ | .string _ => simp [sectionChars]

theorem return_not_mem_elementsChars (isFirst : Bool) (path : List String) (vs : List Json) :
    '\r' ∉ elementsChars isFirst path vs := by
  match vs with
  | [] => simp [elementsChars]
  | .table members :: vs =>
    have below := return_not_mem_sectionsChars false path members
    have others := return_not_mem_elementsChars false path vs
    simp [elementsChars, return_not_mem_headerLine, return_not_mem_pairLines_members, below, others]
  | .null :: vs | .bool _ :: vs | .number _ :: vs | .string _ :: vs | .list _ :: vs =>
    simpa [elementsChars] using return_not_mem_elementsChars isFirst path vs

theorem return_not_mem_sectionsChars (isFirst : Bool) (path : List String) (members : Members) :
    '\r' ∉ sectionsChars isFirst path members := by
  match members with
  | [] => simp [sectionsChars]
  | (key, v) :: members =>
    have first := return_not_mem_sectionChars isFirst (path ++ [key]) v
    have others (isFirst : Bool) := return_not_mem_sectionsChars isFirst path members
    unfold sectionsChars
    split_ifs <;> simp [first, others]

end

theorem return_not_mem_documentChars (members : Members) : '\r' ∉ documentChars members := by
  simp [documentChars, return_not_mem_pairLines_members, return_not_mem_sectionsChars _ _ members]

end SiteManifest.Toml
