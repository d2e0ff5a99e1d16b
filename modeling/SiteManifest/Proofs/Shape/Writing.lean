import SiteManifest.Proofs.Shape.Reading
import SiteManifest.Shape.Write

/-!
# Reading what was written

A value that is written by a shape is read by the same shape without a complaint, and as itself. The
one thing this asks of a shape is that no record in it has two fields under one key.
-/
namespace SiteManifest

/-! ## Shapes with different keys -/

mutual

/-- No record of the shape, at any depth, names a key twice. -/
def Shape.KeysOnce : Shape α → Prop
  | .text | .flag | .choice _ | .nameOrPair _ _ => True
  | .list item => item.KeysOnce
  | .record _ fields _ => fields.KeysOnce
  | .listOrTable _ item fields _ => item.KeysOnce ∧ fields.KeysOnce

def Fields.KeysOnce : Fields β → Prop
  | .done => True
  | .required key shape rest | .optional key shape rest =>
    key ∉ rest.keys ∧ shape.KeysOnce ∧ rest.KeysOnce

end

@[simp] theorem Shape.keysOnce_text : Shape.text.KeysOnce := trivial

@[simp] theorem Shape.keysOnce_flag : Shape.flag.KeysOnce := trivial

@[simp] theorem Shape.keysOnce_choice (variants : Variants α) : (Shape.choice variants).KeysOnce :=
  trivial

@[simp] theorem Shape.keysOnce_nameOrPair (wanted : String)
    (packing : Packing (String ⊕ String × Members) α) :
    (Shape.nameOrPair wanted packing).KeysOnce :=
  trivial

@[simp] theorem Shape.keysOnce_list {item : Shape α} :
    (Shape.list item).KeysOnce ↔ item.KeysOnce :=
  Iff.rfl

@[simp] theorem Shape.keysOnce_record {name : String} {fields : Fields β}
    {packing : Packing β α} : (Shape.record name fields packing).KeysOnce ↔ fields.KeysOnce :=
  Iff.rfl

@[simp] theorem Shape.keysOnce_listOrTable {wanted : String} {item : Shape γ} {fields : Fields β}
    {packing : Packing (List γ ⊕ β) α} :
    (Shape.listOrTable wanted item fields packing).KeysOnce ↔ item.KeysOnce ∧ fields.KeysOnce :=
  Iff.rfl

@[simp] theorem Fields.keysOnce_done : Fields.done.KeysOnce := trivial

@[simp] theorem Fields.keysOnce_required {key : String} {shape : Shape α} {rest : Fields β} :
    (Fields.required key shape rest).KeysOnce ↔
      key ∉ rest.keys ∧ shape.KeysOnce ∧ rest.KeysOnce :=
  Iff.rfl

@[simp] theorem Fields.keysOnce_optional {key : String} {shape : Shape α} {rest : Fields β} :
    (Fields.optional key shape rest).KeysOnce ↔
      key ∉ rest.keys ∧ shape.KeysOnce ∧ rest.KeysOnce :=
  Iff.rfl

theorem Fields.nodup_keys (fields : Fields β) (once : fields.KeysOnce) : fields.keys.Nodup := by
  match fields with
  | .done => exact List.nodup_nil
  | .required key shape rest | .optional key shape rest =>
    exact List.nodup_cons.2 ⟨once.1, rest.nodup_keys once.2.2⟩

/-! ## Visits without events -/

theorem Located.each_eq_nil_iff {look : α → List (Located β)} {first : Nat} {as : List α} :
    Located.each look first as = [] ↔ ∀ a ∈ as, look a = [] := by
  induction as generalizing first with
  | nil => simp [Located.each]
  | cons a as ih => simp [Located.each, Located.below, ih]

theorem visitMembers_eq_nil_iff {keys : List String} {visit : String → Json → List Event}
    {members : Members} :
    visitMembers keys visit members = [] ↔ ∀ m ∈ members, m.1 ∈ keys ∧ visit m.1 m.2 = [] := by
  induction members with
  | nil => simp [visitMembers]
  | cons m rest ih => by_cases h : m.1 ∈ keys <;> simp [visitMembers, Located.below, ih, h]

/-- The keys of a written record are keys of its fields. -/
theorem Fields.mem_keys_of_mem_write (fields : Fields β) (b : β) {m : String × Json}
    (h : m ∈ fields.write b) : m.1 ∈ fields.keys := by
  match fields, b with
  | .done, () => contradiction
  | .required key shape rest, (a, b) | .optional key shape rest, (some a, b) =>
    rcases List.mem_cons.1 h with rfl | h
    · exact List.mem_cons_self
    · exact List.mem_cons_of_mem key (rest.mem_keys_of_mem_write b h)
  | .optional key shape rest, (none, b) =>
    exact List.mem_cons_of_mem key (rest.mem_keys_of_mem_write b h)

/-- A table with everything that was written of a record misses none of the keys it needs. -/
theorem Fields.visitMissing_eq_nil (fields : Fields β) (b : β) {members : Members}
    (h : ∀ m ∈ fields.write b, m ∈ members) : fields.visitMissing members = [] := by
  match fields, b with
  | .done, () => rfl
  | .required key shape rest, (a, b) =>
    have found : (members.lookup key).isSome :=
      List.lookup_isSome_iff.2 ⟨_, h _ List.mem_cons_self, beq_self_eq_true key⟩
    have below := rest.visitMissing_eq_nil b fun m hm => h m (List.mem_cons_of_mem _ hm)
    simp [Fields.visitMissing, found, below]
  | .optional key shape rest, (some a, b) =>
    exact rest.visitMissing_eq_nil b fun m hm => h m (List.mem_cons_of_mem _ hm)
  | .optional key shape rest, (none, b) => exact rest.visitMissing_eq_nil b h

theorem Fields.visitKey_eq_nil (fields : Fields β) {key : String} {v : Json}
    (h : key ∉ fields.keys) : fields.visitKey key v = [] := by
  match fields with
  | .done => rfl
  | .required name shape rest | .optional name shape rest =>
    obtain ⟨other, below⟩ := not_or.1 (List.mem_cons.not.1 h)
    simp [Fields.visitKey, other, rest.visitKey_eq_nil below]

mutual

/-- What is written holds nothing that a reader would stumble over or not know. -/
theorem Shape.visit_write (s : Shape α) (once : s.KeysOnce) (a : α) : s.visit (s.write a) = [] := by
  match s, a with
  | .text, a => rfl
  | .flag, a => rfl
  | .choice variants, a =>
    simp [Shape.visit, Shape.write, visitChoice, visitWord, Variants.find?_name]
  | .list item, as =>
    simpa [Shape.visit, Shape.write, visitItems, Located.each_eq_nil_iff] using
      fun a _ => item.visit_write once a
  | .record _ fields packing, a => exact fields.visitTable_write once (packing.unpack a)
  | .listOrTable _ item fields packing, a =>
    cases h : packing.unpack a with
    | inl items =>
      simpa [Shape.visit, Shape.write, h, visitListOrTable, Located.each_eq_nil_iff] using
        fun a _ => item.visit_write once.1 a
    | inr b =>
      simpa [Shape.visit, Shape.write, h, visitListOrTable] using
        List.append_eq_nil_iff.1 (fields.visitTable_write once.2 b)
  | .nameOrPair _ packing, a =>
    cases h : packing.unpack a <;>
      simp [Shape.visit, Shape.write, h, visitNameOrPair, visitParts, Located.each, Located.below,
        visitText, visitOptions]

theorem Fields.visitTable_write (fields : Fields β) (once : fields.KeysOnce) (b : β) :
    visitMembers fields.keys fields.visitKey (fields.write b) ++
      fields.visitMissing (fields.write b) = [] := by
  have none_missing := fields.visitMissing_eq_nil b fun _ hm => hm
  rw [none_missing, List.append_nil, visitMembers_eq_nil_iff]
  intro m hm
  exact ⟨fields.mem_keys_of_mem_write b hm, fields.visitKey_write once b m hm⟩

theorem Fields.visitKey_write (fields : Fields β) (once : fields.KeysOnce) (b : β)
    (m : String × Json) (hm : m ∈ fields.write b) : fields.visitKey m.1 m.2 = [] := by
  match fields, b with
  | .done, () => contradiction
  | .required key shape rest, (a, b) | .optional key shape rest, (some a, b) =>
    rcases List.mem_cons.1 hm with rfl | hm
    · have unknown_below : rest.visitKey key (shape.write a) = [] :=
        rest.visitKey_eq_nil once.1
      simp [Fields.visitKey, shape.visit_write once.2.1 a, unknown_below]
    · have other : m.1 ≠ key := fun h => once.1 (h ▸ rest.mem_keys_of_mem_write b hm)
      simpa [Fields.visitKey, other] using rest.visitKey_write once.2.2 b m hm
  | .optional key shape rest, (none, b) =>
    have other : m.1 ≠ key := fun h => once.1 (h ▸ rest.mem_keys_of_mem_write b hm)
    simpa [Fields.visitKey, other] using rest.visitKey_write once.2.2 b m hm

end

/-! ## The value that is read -/

theorem Fields.lookup_write_eq_none (fields : Fields β) (b : β) {key : String}
    (h : key ∉ fields.keys) : (fields.write b).lookup key = none := by
  rw [List.lookup_eq_none_iff]
  intro m hm
  have known := fields.mem_keys_of_mem_write b hm
  rw [bne_iff_ne]
  rintro rfl
  exact h known

/-- A list is read item by item. -/
theorem mapM_map_eq_some {read : Json → Option α} {write : α → Json}
    (h : ∀ a, read (write a) = some a) (as : List α) : (as.map write).mapM read = some as := by
  rw [mapM_eq_some_iff, List.forall₂_map_left_iff, List.forall₂_same]
  exact fun a _ => h a

mutual

theorem Shape.read_write (s : Shape α) (once : s.KeysOnce) (a : α) :
    s.read (s.write a) = some a := by
  match s, a with
  | .text, a => rfl
  | .flag, a => rfl
  | .choice variants, a => exact variants.find?_name a
  | .list item, as =>
    exact mapM_map_eq_some (item.read_write once) as
  | .record _ fields packing, a =>
    have table := fields.readMembers_write once (packing.unpack a) fun _ _ => rfl
    simp [Shape.read, Shape.write, readRecord, table, packing.pack_unpack]
  | .listOrTable _ item fields packing, a =>
    cases h : packing.unpack a with
    | inl items =>
      have list := mapM_map_eq_some (item.read_write once.1) items
      have packed := packing.pack_eq_iff.2 h
      simp [Shape.read, Shape.write, h, readItems, list, packed, -List.mapM_map]
    | inr b =>
      have table := fields.readMembers_write once.2 b fun _ _ => rfl
      have packed := packing.pack_eq_iff.2 h
      simp [Shape.read, Shape.write, h, readItems, readTable, table, packed]
  | .nameOrPair _ packing, a =>
    cases h : packing.unpack a <;>
      simp [Shape.read, Shape.write, h, readNameOrPair, packing.pack_eq_iff.2 h]

/-- Fields are read from any table that has under their keys what was written of them. -/
theorem Fields.readMembers_write (fields : Fields β) (once : fields.KeysOnce) (b : β)
    {members : Members}
    (h : ∀ key ∈ fields.keys, members.lookup key = (fields.write b).lookup key) :
    fields.readMembers members = some b := by
  match fields, b with
  | .done, () => rfl
  | .required key shape rest, (a, b) | .optional key shape rest, (some a, b) =>
    have here : members.lookup key = some (shape.write a) := by
      rw [h key List.mem_cons_self, Fields.write, List.lookup_cons_self]
    have below := rest.readMembers_write once.2.2 b fun k hk => by
      have other : k ≠ key := fun e => once.1 (e ▸ hk)
      rw [h k (List.mem_cons_of_mem key hk), Fields.write, List.lookup_cons, beq_false_of_ne other]
    simp [Fields.readMembers, here, below, shape.read_write once.2.1]
  | .optional key shape rest, (none, b) =>
    have here : members.lookup key = none := by
      rw [h key List.mem_cons_self, Fields.write, rest.lookup_write_eq_none b once.1]
    have below := rest.readMembers_write once.2.2 b fun k hk => h k (List.mem_cons_of_mem key hk)
    simp [Fields.readMembers, here, below]

end

/-- Decoding undoes writing. -/
theorem Shape.decode_write (s : Shape α) (once : s.KeysOnce) (a : α) :
    s.decode (s.write a) = ⟨[], .ok a⟩ :=
  Shape.decode_eq_iff.2 ⟨s.visit_write once a, s.read_write once a⟩

end SiteManifest
