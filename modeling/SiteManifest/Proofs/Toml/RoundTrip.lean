import SiteManifest.Proofs.Json.Reordered
import SiteManifest.Proofs.Toml.Keys
import SiteManifest.Proofs.Toml.Sections

/-!
# Tables written and read

Put together again, the sections of a table make the table in the order in which they were written:
plain values come before what is below headers, at every depth. Nothing else changes, so a table is
read back from its text up to the order of its keys.

## Main statements

* `exists_table?_ofMembers`: the sections make the table that they were written for.
* `exists_parse?_documentChars`: a table is read from its text, with plain values in front.
* `exists_parse?_render`: up to the order of keys that is the table that was written.
-/
namespace SiteManifest.Toml

open Json (SameItems SameRow)

variable {key : String} {vs : List Json} {members : Members} {t u : Table}

/-! ## Sections, one at a time -/

/-- The same section in a table that is found under a key. -/
def Section.under (key : String) (s : Section) : Section := { s with path := key :: s.path }

mutual

theorem sectionOf_cons (outer : String) (path : List String) (key : String) (v : Json) :
    sectionOf (outer :: path) key v = (sectionOf path key v).map (.under outer) := by
  match v with
  | .table members =>
    have below := sectionsOf_cons outer (path ++ [key]) members
    rw [← List.cons_append] at below
    unfold sectionOf
    rw [below]
    split_ifs <;> simp [Section.under]
  | .list vs => simpa only [sectionOf] using elementsOf_cons outer path key vs
  | .null | .bool _ | .number _ | .string _ => simp [sectionOf]

theorem elementsOf_cons (outer : String) (path : List String) (key : String) (vs : List Json) :
    elementsOf (outer :: path) key vs = (elementsOf path key vs).map (.under outer) := by
  match vs with
  | [] => simp [elementsOf]
  | .table members :: vs =>
    have below := sectionsOf_cons outer (path ++ [key]) members
    simp [elementsOf, below, elementsOf_cons outer path key vs, Section.under]
  | .null :: vs | .bool _ :: vs | .number _ :: vs | .string _ :: vs | .list _ :: vs =>
    simpa [elementsOf] using elementsOf_cons outer path key vs

theorem sectionsOf_cons (outer : String) (path : List String) (members : Members) :
    sectionsOf (outer :: path) members = (sectionsOf path members).map (.under outer) := by
  match members with
  | [] => simp [sectionsOf]
  | (key, v) :: members =>
    unfold sectionsOf
    rw [sectionsOf_cons outer path members]
    split_ifs
    · rw [sectionOf_cons outer path key v, List.map_append]
    · rfl

end

theorem lookup_concat (fresh : key ∉ t.map (·.1)) (n : Node) :
    (t ++ [(key, n)]).lookup key = some n := by
  rw [List.lookup_append, lookup_eq_none_of_not_mem fresh]
  simp

theorem replace_concat (fresh : key ∉ t.map (·.1)) (n n' : Node) :
    Table.replace key n' (t ++ [(key, n)]) = t ++ [(key, n')] := by
  induction t with
  | nil => simp [Table.replace]
  | cons entry t ih =>
    simp only [List.map_cons, List.mem_cons, not_or] at fresh
    obtain ⟨k, m⟩ := entry
    simp [Table.replace, Ne.symm fresh.1, ih fresh.2]

/-- What leads from a key into a table: the table itself, or an array that ends with it. -/
inductive Leads : (Table → Node) → Prop where
  | table (origin : Origin) : Leads (.table origin)
  | tables (us : List Table) : Leads fun u => .tables (u :: us)

/-- What a section changes in the table that its path leads to. -/
def Section.change (s : Section) (parent : Table) : Option Table :=
  if s.isArray then parent.openElement s else parent.openTable s

/-- How the table came to be that a section is added to does not matter. -/
theorem addSection_eq (t : Table) (s : Section) (here : Origin) :
    t.addSection s = Table.update .implied (fun _ => s.change) here s.path t := by
  obtain ⟨isArray, path, key, pairs⟩ := s
  cases path <;> rfl

theorem addSection_under_eq (t : Table) (key : String) (s : Section) (here : Origin) :
    t.addSection (s.under key) =
      Table.update .implied (fun _ => s.change) here (key :: s.path) t :=
  addSection_eq t (s.under key) here

/-- A section below the last key of a table is added to what is under this key. -/
theorem addSection_under {wrap : Table → Node} (leads : Leads wrap)
    (fresh : key ∉ t.map (·.1)) (u : Table) (s : Section) :
    Table.addSection (t ++ [(key, wrap u)]) (s.under key) =
      (u.addSection s).map fun u => t ++ [(key, wrap u)] := by
  have found := lookup_concat fresh (wrap u)
  have replaced (n : Node) := replace_concat fresh (wrap u) n
  cases leads with
  | table origin =>
    rw [addSection_under_eq _ key s origin, addSection_eq u s origin]
    simp [Table.update, found, replaced]
  | tables us =>
    rw [addSection_under_eq _ key s .header, addSection_eq u s .header]
    simp [Table.update, found, replaced]

/-- A section below a key that a table lacks makes the table under this key come to be. -/
theorem addSection_under_none (fresh : key ∉ t.map (·.1)) (s : Section) :
    t.addSection (s.under key) =
      (Table.addSection [] s).map fun u => t ++ [(key, .table .implied u)] := by
  rw [addSection_under_eq t key s .implied, addSection_eq [] s .implied]
  simp [Table.update, lookup_eq_none_of_not_mem fresh]

theorem addSections_under {wrap : Table → Node} (leads : Leads wrap)
    (fresh : key ∉ t.map (·.1)) (u : Table) (sections : List Section) :
    (sections.map (.under key)).foldlM Table.addSection (t ++ [(key, wrap u)]) =
      (sections.foldlM Table.addSection u).map fun u => t ++ [(key, wrap u)] := by
  induction sections generalizing u with
  | nil => rfl
  | cons s sections ih =>
    rw [List.map_cons, List.foldlM_cons, List.foldlM_cons, addSection_under leads fresh]
    cases u.addSection s with
    | none => rfl
    | some u => exact ih u

theorem addSections_under_none (fresh : key ∉ t.map (·.1)) {sections : List Section}
    (nonempty : sections ≠ []) :
    (sections.map (.under key)).foldlM Table.addSection t =
      (sections.foldlM Table.addSection []).map fun u => t ++ [(key, .table .implied u)] := by
  obtain ⟨s, sections, rfl⟩ := List.exists_cons_of_ne_nil nonempty
  rw [List.map_cons, List.foldlM_cons, List.foldlM_cons, addSection_under_none fresh]
  cases Table.addSection [] s with
  | none => rfl
  | some u => exact addSections_under (.table .implied) fresh u sections

theorem insertAll_plainMembers (once : (members.map (·.1)).Nodup) :
    Table.insertAll [] (pairsOf (plainMembers members)) =
      some (valuesOf (plainMembers members)) :=
  insertAll_pairsOf [] _ (once.sublist (List.filter_sublist.map _))

/-- A header opens a table under a key that is not there yet. -/
theorem addSection_header (fresh : key ∉ t.map (·.1)) (once : (members.map (·.1)).Nodup) :
    t.addSection ⟨false, [], key, pairsOf (plainMembers members)⟩ =
      some (t ++ [(key, .table .header (valuesOf (plainMembers members)))]) := by
  simp [Table.addSection, Table.update, Table.openTable, lookup_eq_none_of_not_mem fresh,
    insertAll_plainMembers once]

/-- The first element of an array is added as if the array had been there without elements. -/
theorem addSection_element (fresh : key ∉ t.map (·.1)) (once : (members.map (·.1)).Nodup)
    (us : List Table) :
    Table.addSection (t ++ [(key, .tables us)])
        ⟨true, [], key, pairsOf (plainMembers members)⟩ =
      some (t ++ [(key, .tables (valuesOf (plainMembers members) :: us))]) := by
  simp [Table.addSection, Table.update, Table.openElement, lookup_concat fresh,
    replace_concat fresh, insertAll_plainMembers once]

theorem addSection_firstElement (fresh : key ∉ t.map (·.1)) (once : (members.map (·.1)).Nodup) :
    t.addSection ⟨true, [], key, pairsOf (plainMembers members)⟩ =
      some (t ++ [(key, .tables [valuesOf (plainMembers members)])]) := by
  simp [Table.addSection, Table.update, Table.openElement, lookup_eq_none_of_not_mem fresh,
    insertAll_plainMembers once]

/-! ## Tables from sections -/

theorem plainMembers_eq_nil (needs : needsHeader members = false) : plainMembers members = [] := by
  simp only [needsHeader, Bool.or_eq_false_iff, List.any_eq_false] at needs
  exact List.filter_eq_nil_iff.2 fun m hm => needs.2 m hm

mutual

/-- What is written below headers has a section. -/
theorem sectionOf_ne_nil (path : List String) (key : String) (v : Json)
    (headed : hasHeader v = true) : sectionOf path key v ≠ [] := by
  match v with
  | .table members =>
    unfold sectionOf
    split_ifs with needs
    · simp
    · rw [List.nil_append]
      exact sectionsOf_ne_nil (path ++ [key]) members (by simpa using needs)
  | .list [] | .null | .bool _ | .number _ | .string _ => simp [hasHeader] at headed
  | .list (.table members :: vs) => simp [sectionOf, elementsOf]
  | .list (.null :: vs) | .list (.bool _ :: vs) | .list (.number _ :: vs)
  | .list (.string _ :: vs) | .list (.list _ :: vs) => simp [hasHeader, isTable] at headed

theorem sectionsOf_ne_nil (path : List String) (members : Members)
    (needs : needsHeader members = false) : sectionsOf path members ≠ [] := by
  match members with
  | [] => simp [needsHeader] at needs
  | (key, v) :: members =>
    have headed : hasHeader v = true := by
      simp only [needsHeader, List.isEmpty_cons, Bool.false_or, List.any_cons,
        Bool.or_eq_false_iff, Bool.not_eq_false'] at needs
      exact needs.1
    rw [sectionsOf, if_pos headed]
    exact List.append_ne_nil_of_left_ne_nil (sectionOf_ne_nil path key v headed) _

end

theorem sameRow_append {ms ms' ns ns' : Members} (h : SameRow ms ns) (h' : SameRow ms' ns') :
    SameRow (ms ++ ms') (ns ++ ns') :=
  Json.sameRow_iff.2 (List.rel_append (Json.sameRow_iff.1 h) (Json.sameRow_iff.1 h'))

theorem perm_plain_headed (members : Members) :
    members.Perm (plainMembers members ++ headedMembers members) := by
  have perm := List.filter_append_perm (fun m : String × Json => !hasHeader m.2) members
  simp only [Bool.not_not] at perm
  exact perm.symm

/-- Members in the order of writing, with what became of those below headers, are the same table. -/
theorem same_table_of_row {row : Members} (h : SameRow row (headedMembers members)) :
    (Json.table (plainMembers members ++ row)).Same (.table members) :=
  ⟨members, plainMembers members ++ headedMembers members, rfl, perm_plain_headed members,
    sameRow_append (.refl _) h⟩

theorem map_fst_valuesOf (members : Members) : (valuesOf members).map (·.1) = members.map (·.1) := by
  simp [valuesOf, Function.comp_def]

/-- What is written below headers has other keys than the plain values of its table. -/
theorem not_mem_of_mem_headedMembers (once : (members.map (·.1)).Nodup) :
    ∀ m ∈ headedMembers members, m.1 ∉ (valuesOf (plainMembers members)).map (·.1) := by
  intro m hm twice
  have nodup := ((perm_plain_headed members).map (·.1)).nodup_iff.1 once
  rw [List.map_append] at nodup
  rw [map_fst_valuesOf] at twice
  exact (List.disjoint_of_nodup_append nodup) twice (List.mem_map_of_mem hm)

theorem toJson_values_append (members : Members) (u : Table) :
    Table.toJson (valuesOf members ++ u) = .table (members ++ membersToJson u) := by
  rw [Table.toJson, membersToJson_eq_map, List.map_append, ← membersToJson_eq_map,
    membersToJson_valuesOf, ← membersToJson_eq_map]

theorem tablesToJson_eq (after : List Json) (ts : List Table) :
    tablesToJson after ts = ts.reverse.map Table.toJson ++ after := by
  induction ts generalizing after with
  | nil => rfl
  | cons t ts ih => simp [tablesToJson, ih, Table.toJson]

theorem all_isTable_of_hasHeader (headed : hasHeader (.list vs) = true) :
    vs.all isTable = true ∧ vs ≠ [] := by
  cases vs with
  | nil => simp [hasHeader] at headed
  | cons v vs => exact ⟨by simpa [hasHeader] using headed, List.cons_ne_nil v vs⟩

/-- It makes no difference whether an array is there without elements or not there at all. -/
theorem addSections_elements_start (tables : vs.all isTable = true) (nonempty : vs ≠ [])
    (once : Json.KeysOnceItems vs) (fresh : key ∉ t.map (·.1)) :
    (elementsOf [] key vs).foldlM Table.addSection t =
      (elementsOf [] key vs).foldlM Table.addSection (t ++ [(key, .tables [])]) := by
  match vs with
  | [] => contradiction
  | .table members :: vs =>
    rw [elementsOf, List.foldlM_cons, List.foldlM_cons, addSection_firstElement fresh once.1.1,
      addSection_element fresh once.1.1]
  | .null :: vs | .bool _ :: vs | .number _ :: vs | .string _ :: vs | .list _ :: vs =>
    simp [isTable] at tables

mutual

/-- The sections of a value make the value, at the end of the table that they are added to. -/
theorem exists_addSections_value (v : Json) {t : Table} {key : String}
    (headed : hasHeader v = true) (once : v.KeysOnce) (fresh : key ∉ t.map (·.1)) :
    ∃ node, (sectionOf [] key v).foldlM Table.addSection t = some (t ++ [(key, node)]) ∧
      node.toJson.Same v := by
  match v with
  | .table members =>
    obtain ⟨u, made, same⟩ := exists_addSections_members members once
      (not_mem_of_mem_headedMembers once.1)
    have below : sectionsOf [key] members = (sectionsOf [] members).map (.under key) :=
      sectionsOf_cons key [] members
    have whole : (valuesOf (plainMembers members) ++ u).toJson.Same (.table members) := by
      rw [toJson_values_append]
      exact same_table_of_row same
    by_cases needs : needsHeader members = true
    · have opened := addSection_header fresh once.1
      have filled := addSections_under (.table .header) fresh (valuesOf (plainMembers members))
        (sectionsOf [] members)
      rw [made] at filled
      refine ⟨.table .header (valuesOf (plainMembers members) ++ u), ?_, whole⟩
      rw [sectionOf, if_pos needs, List.nil_append, below, List.singleton_append, List.foldlM_cons,
        opened]
      exact filled
    · have bare : needsHeader members = false := by simpa using needs
      have filled := addSections_under_none fresh (sectionsOf_ne_nil [] members bare)
      have start : valuesOf (plainMembers members) = [] := by
        rw [plainMembers_eq_nil bare]
        rfl
      rw [start] at made whole
      rw [made] at filled
      refine ⟨.table .implied ([] ++ u), ?_, whole⟩
      rw [sectionOf, if_neg needs, List.nil_append, List.nil_append, below]
      exact filled
  | .list vs =>
    obtain ⟨tables, nonempty⟩ := all_isTable_of_hasHeader headed
    obtain ⟨ts, made, same⟩ := exists_addSections_elements vs [] tables once fresh
    refine ⟨.tables ts, ?_, ?_⟩
    · rw [List.append_nil] at made
      rw [sectionOf, addSections_elements_start tables nonempty once fresh, made]
    · rw [Node.toJson, tablesToJson_eq, List.append_nil]
      exact ⟨vs, rfl, same⟩
  | .null | .bool _ | .number _ | .string _ => simp [hasHeader] at headed

/-- The sections of the elements of an array are put behind the elements that are there. -/
theorem exists_addSections_elements (vs : List Json) {t : Table} {key : String} (us : List Table)
    (tables : vs.all isTable = true) (once : Json.KeysOnceItems vs)
    (fresh : key ∉ t.map (·.1)) :
    ∃ ts : List Table, (elementsOf [] key vs).foldlM Table.addSection (t ++ [(key, .tables us)]) =
        some (t ++ [(key, .tables (ts ++ us))]) ∧
      SameItems (ts.reverse.map Table.toJson) vs := by
  match vs with
  | [] => exact ⟨[], rfl, rfl⟩
  | .table members :: vs =>
    obtain ⟨u, made, same⟩ := exists_addSections_members members once.1
      (not_mem_of_mem_headedMembers once.1.1)
    have below : sectionsOf [key] members = (sectionsOf [] members).map (.under key) :=
      sectionsOf_cons key [] members
    have whole : (valuesOf (plainMembers members) ++ u).toJson.Same (.table members) := by
      rw [toJson_values_append]
      exact same_table_of_row same
    have opened := addSection_element fresh once.1.1 us
    have filled := addSections_under (.tables us) fresh (valuesOf (plainMembers members))
      (sectionsOf [] members)
    rw [made] at filled
    obtain ⟨ts, more, sameItems⟩ := exists_addSections_elements vs
      ((valuesOf (plainMembers members) ++ u) :: us) (by simpa [isTable] using tables) once.2 fresh
    refine ⟨ts ++ [valuesOf (plainMembers members) ++ u], ?_, ?_⟩
    · rw [elementsOf, List.nil_append, below, List.foldlM_cons, opened, List.append_assoc]
      refine (List.foldlM_append ..).trans ?_
      rw [filled]
      exact more
    · rw [List.reverse_concat, List.map_cons]
      exact ⟨_, _, rfl, whole, sameItems⟩
  | .null :: vs | .bool _ :: vs | .number _ :: vs | .string _ :: vs | .list _ :: vs =>
    simp [isTable] at tables

/-- The sections of a table are put behind what is there. -/
theorem exists_addSections_members (members : Members) {t : Table}
    (once : (Json.table members).KeysOnce)
    (fresh : ∀ m ∈ headedMembers members, m.1 ∉ t.map (·.1)) :
    ∃ u, (sectionsOf [] members).foldlM Table.addSection t = some (t ++ u) ∧
      SameRow (membersToJson u) (headedMembers members) := by
  match members with
  | [] => exact ⟨[], by simp [sectionsOf], rfl⟩
  | (key, v) :: members =>
    obtain ⟨keysOnce, here, below⟩ := once
    obtain ⟨first, others⟩ := List.nodup_cons.1 keysOnce
    by_cases headed : hasHeader v = true
    · have rows : headedMembers ((key, v) :: members) = (key, v) :: headedMembers members :=
        List.filter_cons_of_pos headed
      rw [rows] at fresh ⊢
      obtain ⟨notThere, fresh⟩ := List.forall_mem_cons.1 fresh
      obtain ⟨node, made, same⟩ := exists_addSections_value v headed here notThere
      have stillFresh : ∀ m ∈ headedMembers members, m.1 ∉ (t ++ [(key, node)]).map (·.1) := by
        intro m hm twice
        rw [List.map_append, List.mem_append] at twice
        rcases twice with twice | twice
        · exact fresh m hm twice
        · obtain rfl : m.1 = key := by simpa using twice
          exact first (List.mem_map.2 ⟨m, List.mem_of_mem_filter hm, rfl⟩)
      obtain ⟨u, more, sameRow⟩ := exists_addSections_members members ⟨others, below⟩ stillFresh
      refine ⟨(key, node) :: u, ?_, _, _, rfl, same, sameRow⟩
      rw [sectionsOf, if_pos headed, List.foldlM_append, made]
      refine Eq.trans more ?_
      rw [List.append_assoc]
      rfl
    · have rows : headedMembers ((key, v) :: members) = headedMembers members :=
        List.filter_cons_of_neg headed
      rw [rows] at fresh ⊢
      rw [sectionsOf, if_neg headed]
      exact exists_addSections_members members ⟨others, below⟩ fresh

end

/-- The document of a table makes the table, with its plain values in front. -/
theorem exists_table?_ofMembers (once : (Json.table members).KeysOnce) :
    ∃ t row, (Document.ofMembers members).table? = some t ∧
      t.toJson = .table (plainMembers members ++ row) ∧ SameRow row (headedMembers members) := by
  obtain ⟨u, made, same⟩ := exists_addSections_members members once
    (not_mem_of_mem_headedMembers once.1)
  refine ⟨_, membersToJson u, ?_, toJson_values_append _ u, same⟩
  unfold Document.table? Document.ofMembers
  rw [insertAll_plainMembers once.1]
  exact made

/-! ## Whole texts -/

/-- A table is read from its text: its plain values first, and then what is below headers. -/
theorem exists_parse?_documentChars (h : Writable (maxDepth + 1) (.table members)) :
    ∃ row, SameRow row (headedMembers members) ∧
      parse? (String.ofList (documentChars members)) =
        some (.table (plainMembers members ++ row)) := by
  obtain ⟨t, row, made, json, same⟩ := exists_table?_ofMembers h.once
  have lines := lines?_documentChars (Nat.le_refl maxDepth) h.of_table
  refine ⟨row, same, ?_⟩
  rw [← json]
  refine parse?_of_lines? (return_not_mem_documentChars members) lines ?_
  rw [Document.ofLines_lines, made]

/-- A table has a text if TOML has a form for what it holds. -/
theorem render_table (fine : fault? (.table members) = none) :
    render (.table members) = .ok (String.ofList (documentChars members)) := by
  unfold render
  rw [fine]

/-- A table is read back from its text up to the order of its keys. The values on lines of their own
are found under their keys as they were. -/
theorem exists_parse?_render (h : Writable (maxDepth + 1) (.table members)) :
    ∃ text read, render (.table members) = .ok text ∧ parse? text = some (.table read) ∧
      (Json.table members).Reordered (.table read) ∧
      ∀ m ∈ plainMembers members, read.lookup m.1 = some m.2 := by
  obtain ⟨row, sameRow, parsed⟩ := exists_parse?_documentChars h
  have same := (same_table_of_row sameRow).symm
  have once := same.keysOnce h.once
  refine ⟨_, _, render_table h.fine, parsed, ⟨h.once, same⟩, fun m hm => ?_⟩
  exact (Json.mem_iff_lookup_eq_some once.1).1 (List.mem_append_left row hm)

end SiteManifest.Toml
