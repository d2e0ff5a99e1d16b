import SiteManifest.Proofs.Json.Same
import SiteManifest.Proofs.Shape.Grammar
import SiteManifest.Proofs.Shape.Writing

/-!
# Spellings

One value of a type can be spelled in several ways: a record as a table or as a list, a choice as a
word or as a table. What is written of a value that was read is the value itself up to the order of
keys exactly if the one spelling was used that writing uses, too.
-/
namespace SiteManifest

def Json.IsTable : Json → Prop
  | .table _ => True
  | _ => False

def Json.IsString : Json → Prop
  | .string _ => True
  | _ => False

mutual

/-- Every record and every choice of a value, at any depth, is spelled in a given way. Options that
are not looked into do not count. -/
def Shape.Spelled (record choice : Json → Prop) : Shape α → Json → Prop
  | .text, _ | .flag, _ | .nameOrPair _ _, _ => True
  | .choice _, v => choice v
  | .list item, v => ∀ vs, v = .list vs → ∀ w ∈ vs, item.Spelled record choice w
  | .record _ fields _, v =>
    record v ∧ (∀ members, v = .table members → fields.SpelledTable record choice members) ∧
      ∀ vs, v = .list vs → fields.SpelledRow record choice vs
  | .listOrTable _ item fields _, v =>
    (∀ vs, v = .list vs → ∀ w ∈ vs, item.Spelled record choice w) ∧
      ∀ members, v = .table members → record v ∧ fields.SpelledTable record choice members

def Fields.SpelledTable (record choice : Json → Prop) : Fields β → Members → Prop
  | .done, _ => True
  | .required key shape rest, members | .optional key shape rest, members =>
    (∀ v, (key, v) ∈ members → shape.Spelled record choice v) ∧
      rest.SpelledTable record choice members

def Fields.SpelledRow (record choice : Json → Prop) : Fields β → List Json → Prop
  | .done, _ => True
  | .required _ shape rest, vs | .optional _ shape rest, vs =>
    (∀ v ∈ vs.head?, shape.Spelled record choice v) ∧ rest.SpelledRow record choice vs.tail

end

/-- The spelling of what is written: records are tables and choices are words. -/
def Shape.Canonical (s : Shape α) (v : Json) : Prop := s.Spelled Json.IsTable Json.IsString v

/-! ## Keys of a written record -/

/-- The keys of what is written are those of the fields that are there. -/
theorem Fields.map_fst_write (fields : Fields β) {members : Members} {i : Nat} {b : β}
    (h : fields.Hold (Source.ofTable members) i b) :
    (fields.write b).map (·.1) = fields.keys.filter fun key => (members.lookup key).isSome := by
  match fields, b with
  | .done, () => rfl
  | .required key shape rest, (a, b) | .optional key shape rest, (some a, b) =>
    obtain ⟨v, found, _⟩ : ∃ v, members.lookup key = some v ∧ shape.Holds v a := by
      simpa only [Fields.Hold, rel_some_iff, Source.ofTable] using h.1
    simp [Fields.write, Fields.keys, found, rest.map_fst_write h.2]
  | .optional key shape rest, (none, b) =>
    have absent : members.lookup key = none := rel_none_iff.1 h.1
    simp [Fields.write, Fields.keys, absent, rest.map_fst_write h.2]

/-- A table in which every key is known and occurs once has as many members as are written. -/
theorem Fields.length_write (fields : Fields β) (once : fields.KeysOnce) {members : Members}
    {i : Nat} {b : β} (membersOnce : (members.map (·.1)).Nodup)
    (known : ∀ m ∈ members, m.1 ∈ fields.keys) (h : fields.Hold (Source.ofTable members) i b) :
    (fields.write b).length = members.length := by
  have keys := fields.map_fst_write h
  have nodup : ((fields.write b).map (·.1)).Nodup := by
    rw [keys]
    exact (fields.nodup_keys once).filter _
  have perm : ((fields.write b).map (·.1)).Perm (members.map (·.1)) := by
    rw [List.perm_ext_iff_of_nodup nodup membersOnce]
    intro key
    rw [keys, List.mem_filter, List.lookup_isSome_iff]
    constructor
    · rintro ⟨_, m, hm, hk⟩
      exact List.mem_map.2 ⟨m, hm, (eq_of_beq hk).symm⟩
    · intro hk
      obtain ⟨m, hm, rfl⟩ := List.mem_map.1 hk
      exact ⟨known m hm, m, hm, beq_self_eq_true m.1⟩
  simpa using perm.length_eq

/-! ## What is read and written -/

/-- A list of items is written as it was if every item is. -/
theorem forall₂_same_map_write_iff {vs : List Json} {as : List α} {holds : Json → α → Prop}
    {write : α → Json} {canonical : Json → Prop} (h : List.Forall₂ holds vs as)
    (same : ∀ v ∈ vs, ∀ a, holds v a → ((write a).Same v ↔ canonical v)) :
    List.Forall₂ Json.Same (as.map write) vs ↔ ∀ v ∈ vs, canonical v := by
  induction h with
  | nil => simp
  | cons here _ ih =>
    have first := same _ List.mem_cons_self _ here
    have below := ih fun v hv => same v (List.mem_cons_of_mem _ hv)
    rw [List.map_cons, List.forall₂_cons, first, below, List.forall_mem_cons]

/-- A name or a pair is written as it was, since nothing looks into its options. -/
theorem Shape.write_nameOrPair_of_holds {wanted : String}
    {packing : Packing (String ⊕ String × Members) α} {v : Json} {a : α}
    (holds : (Shape.nameOrPair wanted packing).Holds v a) :
    (Shape.nameOrPair wanted packing).write a = v := by
  rcases holds with ⟨name, rfl, h⟩ | ⟨name, options, rfl, h⟩ <;> simp [Shape.write, h]

mutual

/-- What is written of a value that was read without a complaint is that value again, up to the order
of keys, exactly if the value is in the spelling of what is written. -/
theorem Shape.same_write_iff (s : Shape α) (once : s.KeysOnce) {v : Json} {a : α}
    (vOnce : v.KeysOnce) (visit : s.visit v = []) (holds : s.Holds v a) :
    (s.write a).Same v ↔ s.Canonical v := by
  match s, a with
  | .text, a =>
    obtain rfl : v = .string a := holds
    simp [Shape.write, Shape.Canonical, Shape.Spelled, Json.Same]
  | .flag, a =>
    obtain rfl : v = .bool a := holds
    simp [Shape.write, Shape.Canonical, Shape.Spelled, Json.Same]
  | .choice variants, a =>
    rcases holds with rfl | rfl <;>
      simp [Shape.write, Shape.Canonical, Shape.Spelled, Json.Same, Json.IsString]
  | .list item, as =>
    obtain ⟨vs, rfl, items⟩ := holds
    have fits := Located.each_eq_nil_iff.1 visit
    have same := forall₂_same_map_write_iff items fun w hw b hb =>
      item.same_write_iff once (Json.keysOnceItems_iff.1 vOnce w hw) (fits w hw) hb
    simpa [Shape.write, Shape.Canonical, Shape.Spelled, Json.same_list_iff] using same
  | .record _ fields packing, a =>
    rcases holds with ⟨members, rfl, hold⟩ | ⟨vs, rfl, _, hold⟩
    · have same := fields.same_table_write_iff once vOnce visit hold
      simpa [Shape.write, Shape.Canonical, Shape.Spelled, Json.IsTable] using same
    · simp [Shape.write, Shape.Canonical, Shape.Spelled, Json.IsTable, Json.Same]
  | .listOrTable _ item fields packing, a =>
    rcases holds with ⟨vs, as, rfl, items, h⟩ | ⟨members, b, rfl, hold, h⟩
    · have fits := Located.each_eq_nil_iff.1 visit
      have same := forall₂_same_map_write_iff items fun w hw b hb =>
        item.same_write_iff once.1 (Json.keysOnceItems_iff.1 vOnce w hw) (fits w hw) hb
      simpa [Shape.write, h, Shape.Canonical, Shape.Spelled, Json.same_list_iff] using same
    · have same := fields.same_table_write_iff once.2 vOnce visit hold
      simpa [Shape.write, h, Shape.Canonical, Shape.Spelled, Json.IsTable] using same
  | .nameOrPair wanted packing, a =>
    have unchanged := Shape.write_nameOrPair_of_holds holds
    simp [unchanged, Json.Same.refl, Shape.Canonical, Shape.Spelled]

theorem Fields.same_table_write_iff (fields : Fields β) (once : fields.KeysOnce)
    {members : Members} {i : Nat} {b : β} (membersOnce : (Json.table members).KeysOnce)
    (visit : visitMembers fields.keys fields.visitKey members ++ fields.visitMissing members = [])
    (hold : fields.Hold (Source.ofTable members) i b) :
    (Json.table (fields.write b)).Same (.table members) ↔
      fields.SpelledTable Json.IsTable Json.IsString members := by
  have fits := visitMembers_eq_nil_iff.1 (List.append_eq_nil_iff.1 visit).1
  have writtenOnce : ((fields.write b).map (·.1)).Nodup := by
    rw [fields.map_fst_write hold]
    exact (fields.nodup_keys once).filter _
  have length := fields.length_write once membersOnce.1 (fun m hm => (fits m hm).1) hold
  rw [Json.same_table_iff writtenOnce membersOnce.1, and_iff_right length]
  exact fields.forall_mem_write_same_iff once membersOnce (fun m hm => (fits m hm).2) hold

theorem Fields.forall_mem_write_same_iff (fields : Fields β) (once : fields.KeysOnce)
    {members : Members} {i : Nat} {b : β} (membersOnce : (Json.table members).KeysOnce)
    (fits : ∀ m ∈ members, fields.visitKey m.1 m.2 = [])
    (hold : fields.Hold (Source.ofTable members) i b) :
    (∀ m ∈ fields.write b, ∃ w, members.lookup m.1 = some w ∧ m.2.Same w) ↔
      fields.SpelledTable Json.IsTable Json.IsString members := by
  match fields, b with
  | .done, () => simp [Fields.write, Fields.SpelledTable]
  | .required key shape rest, (a, b) | .optional key shape rest, (some a, b) =>
    obtain ⟨v, found, holds⟩ : ∃ v, members.lookup key = some v ∧ shape.Holds v a := by
      simpa only [Fields.Hold, rel_some_iff, Source.ofTable] using hold.1
    have fitsBelow := fun m hm => (List.append_eq_nil_iff.1 (fits m hm)).2
    have below := rest.forall_mem_write_same_iff once.2.2 membersOnce fitsBelow hold.2
    have here := shape.found_same_write_iff once.2.1 membersOnce found holds fun w hw => by
      simpa using (List.append_eq_nil_iff.1 (fits (key, w) hw)).1
    rw [Fields.write, List.forall_mem_cons, here, below]
    exact Iff.rfl
  | .optional key shape rest, (none, b) =>
    have absent : members.lookup key = none := rel_none_iff.1 hold.1
    have none_here : ∀ v, (key, v) ∉ members := fun v hv => by
      simp [(Json.mem_iff_lookup_eq_some membersOnce.1).1 hv] at absent
    have fitsBelow := fun m hm => (List.append_eq_nil_iff.1 (fits m hm)).2
    have below := rest.forall_mem_write_same_iff once.2.2 membersOnce fitsBelow hold.2
    simpa [Fields.write, Fields.SpelledTable, none_here] using below

/-- The same of the value that is found under a key. -/
theorem Shape.found_same_write_iff (s : Shape α) (once : s.KeysOnce) {members : Members}
    {key : String} {v : Json} {a : α} (membersOnce : (Json.table members).KeysOnce)
    (found : members.lookup key = some v) (holds : s.Holds v a)
    (fits : ∀ w, (key, w) ∈ members → s.visit w = []) :
    (∃ w, members.lookup key = some w ∧ (s.write a).Same w) ↔
      ∀ w, (key, w) ∈ members → s.Canonical w := by
  have mem_iff (w : Json) : (key, w) ∈ members ↔ v = w := by
    rw [Json.mem_iff_lookup_eq_some membersOnce.1, found, Option.some.injEq]
  have vOnce := Json.keysOnceMembers_iff.1 membersOnce.2 _ ((mem_iff v).2 rfl)
  have same := s.same_write_iff once vOnce (fits v ((mem_iff v).2 rfl)) holds
  simp [found, mem_iff, same]

end

end SiteManifest
