import SiteManifest.Proofs.Json.Places
import SiteManifest.Proofs.Shape.Spelling

/-!
# Places and keys in what is written

What is written of a record has a value under the key of every field that is there. A value that
spells its records as tables, too, has all the places of what is written of it. A key occurs twice in
what is written only if it does in the value that it was read from.

## Main statements

* `Shape.placesIn_of_holds`: a place in what is written of a value is a place in the value.
* `Shape.keysOnce_write`: what is written of a value with each key once has each key once.
-/
namespace SiteManifest

/-! ## Members of a written record -/

namespace Fields

variable {key name : String} {shape : Shape α} {rest : Fields β} {a : α} {o : Option α} {b : β}

@[simp] theorem lookup_write_required_self :
    ((required key shape rest).write (a, b)).lookup key = some (shape.write a) :=
  List.lookup_cons_self

@[simp] theorem lookup_write_required_ne (h : key ≠ name) :
    ((required name shape rest).write (a, b)).lookup key = (rest.write b).lookup key := by
  rw [write, List.lookup_cons, beq_false_of_ne h]

@[simp] theorem lookup_write_optional_self (once : key ∉ rest.keys) :
    ((optional key shape rest).write (o, b)).lookup key = o.map shape.write := by
  cases o with
  | none => exact rest.lookup_write_eq_none b once
  | some a => exact List.lookup_cons_self

@[simp] theorem lookup_write_optional_ne (h : key ≠ name) :
    ((optional name shape rest).write (o, b)).lookup key = (rest.write b).lookup key := by
  cases o with
  | none => rfl
  | some a => rw [write, List.lookup_cons, beq_false_of_ne h]

end Fields

/-! ## Places -/

/-- Every place in one value is a place in the other. -/
def Json.PlacesIn (v w : Json) : Prop := ∀ steps x, v.at? steps = some x → ∃ y, w.at? steps = some y

theorem Json.PlacesIn.refl (v : Json) : v.PlacesIn v := fun _ x h => ⟨x, h⟩

theorem Json.placesIn_of_part? {v w : Json}
    (h : ∀ step x, v.part? step = some x → ∃ y, w.part? step = some y ∧ x.PlacesIn y) :
    v.PlacesIn w := by
  intro steps x hx
  cases steps with
  | nil => exact ⟨w, rfl⟩
  | cons step steps =>
    obtain ⟨u, hu, hx⟩ := at?_cons_eq_some_iff.1 hx
    obtain ⟨y, hy, places⟩ := h step u hu
    obtain ⟨z, hz⟩ := places steps x hx
    exact ⟨z, at?_cons_eq_some_iff.2 ⟨y, hy, hz⟩⟩

theorem placesIn_list {write : α → Json} {vs : List Json} {as : List α}
    (h : List.Forall₂ (fun v a => (write a).PlacesIn v) vs as) :
    (Json.list (as.map write)).PlacesIn (.list vs) := by
  refine Json.placesIn_of_part? fun step x hx => ?_
  cases step with
  | key => contradiction
  | index i =>
    obtain ⟨a, ha, rfl⟩ : ∃ a, as[i]? = some a ∧ write a = x := by
      simpa [Json.part?] using hx
    exact Json.exists_getElem?_of_forall₂ h ha

theorem placesIn_table {written members : Members}
    (h : ∀ key x, written.lookup key = some x → ∃ y, members.lookup key = some y ∧ x.PlacesIn y) :
    (Json.table written).PlacesIn (.table members) := by
  refine Json.placesIn_of_part? fun step x hx => ?_
  cases step with
  | key key => exact h key x hx
  | index => contradiction

mutual

/-- A value that has tables for its records has all the places of what is written of it. -/
theorem Shape.placesIn_of_holds (s : Shape α) {v : Json} {a : α} (holds : s.Holds v a)
    (tables : s.Spelled Json.IsTable (fun _ => True) v) : (s.write a).PlacesIn v := by
  match s, a with
  | .text, a =>
    obtain rfl : v = .string a := holds
    exact .refl _
  | .flag, a =>
    obtain rfl : v = .bool a := holds
    exact .refl _
  | .choice variants, a =>
    -- A word has no parts, whichever way it is spelled.
    exact Json.placesIn_of_part? fun step x hx => by cases step <;> contradiction
  | .list item, as =>
    obtain ⟨vs, rfl, items⟩ := holds
    have spelled := (List.forall₂_and_left vs as).2 ⟨tables vs rfl, items⟩
    exact placesIn_list (spelled.imp fun _ _ h => item.placesIn_of_holds h.2 h.1)
  | .record name fields packing, a =>
    obtain ⟨isTable, tables, _⟩ := tables
    rcases holds with ⟨members, rfl, hold⟩ | ⟨vs, rfl, _⟩
    · exact placesIn_table fun key x hx =>
        fields.placesIn_of_hold hold (tables members rfl) hx
    · contradiction
  | .listOrTable wanted item fields packing, a =>
    rcases holds with ⟨vs, as, rfl, items, unpacked⟩ | ⟨members, b, rfl, hold, unpacked⟩
    · have spelled := (List.forall₂_and_left vs as).2 ⟨tables.1 vs rfl, items⟩
      rw [Shape.write, unpacked]
      exact placesIn_list (spelled.imp fun _ _ h => item.placesIn_of_holds h.2 h.1)
    · rw [Shape.write, unpacked]
      exact placesIn_table fun key x hx =>
        fields.placesIn_of_hold hold (tables.2 members rfl).2 hx
  | .nameOrPair wanted packing, a =>
    rcases holds with ⟨name, rfl, unpacked⟩ | ⟨name, options, rfl, unpacked⟩ <;>
      simp only [Shape.write, unpacked, Json.PlacesIn.refl]

theorem Fields.placesIn_of_hold (fields : Fields β) {members : Members} {i : Nat} {b : β}
    (hold : fields.Hold (Source.ofTable members) i b)
    (tables : fields.SpelledTable Json.IsTable (fun _ => True) members) {key : String} {x : Json}
    (h : (fields.write b).lookup key = some x) :
    ∃ y, members.lookup key = some y ∧ x.PlacesIn y := by
  match fields, b with
  | .done, () => contradiction
  | .required name shape rest, (a, b) | .optional name shape rest, (some a, b) =>
    obtain ⟨v, found, holds⟩ : ∃ v, members.lookup name = some v ∧ shape.Holds v a := by
      simpa only [Fields.Hold, rel_some_iff, Source.ofTable] using hold.1
    by_cases same : key = name
    · obtain rfl := same
      obtain rfl : shape.write a = x := by simpa [Fields.write] using h
      exact ⟨v, found, shape.placesIn_of_holds holds (tables.1 v (mem_of_lookup found))⟩
    · rw [Fields.write, List.lookup_cons, beq_false_of_ne same] at h
      exact rest.placesIn_of_hold hold.2 tables.2 h
  | .optional name shape rest, (none, b) => exact rest.placesIn_of_hold hold.2 tables.2 h

end

/-! ## Keys -/

theorem keysOnce_list_write {write : α → Json} {vs : List Json} {as : List α}
    (h : List.Forall₂ (fun v a => v.KeysOnce → (write a).KeysOnce) vs as)
    (once : (Json.list vs).KeysOnce) : (Json.list (as.map write)).KeysOnce := by
  have items := Json.keysOnceItems_iff.1 once
  refine Json.keysOnceItems_iff.2 (List.forall_mem_map.2 ?_)
  induction h with
  | nil => nofun
  | cons here _ ih =>
    obtain ⟨first, others⟩ := List.forall_mem_cons.1 items
    exact List.forall_mem_cons.2 ⟨here first, ih (Json.keysOnceItems_iff.2 others) others⟩

theorem Source.keysOnce_ofTable {members : Members} (once : (Json.table members).KeysOnce)
    {i : Nat} {key : String} {v : Json} (h : Source.ofTable members i key = some v) :
    v.KeysOnce :=
  Json.keysOnceMembers_iff.1 once.2 _ (mem_of_lookup h)

theorem Source.keysOnce_ofRow {vs : List Json} (once : (Json.list vs).KeysOnce) {i : Nat}
    {key : String} {v : Json} (h : Source.ofRow vs i key = some v) : v.KeysOnce :=
  Json.keysOnceItems_iff.1 once v (List.mem_of_getElem? h)

theorem Fields.nodup_map_fst_write (fields : Fields β) (once : fields.KeysOnce) (b : β) :
    ((fields.write b).map (·.1)).Nodup := by
  match fields, b with
  | .done, () => exact List.nodup_nil
  | .required key shape rest, (a, b) | .optional key shape rest, (some a, b) =>
    refine List.nodup_cons.2 ⟨fun twice => ?_, rest.nodup_map_fst_write once.2.2 b⟩
    obtain ⟨m, hm, rfl⟩ := List.mem_map.1 twice
    exact once.1 (rest.mem_keys_of_mem_write b hm)
  | .optional key shape rest, (none, b) => exact rest.nodup_map_fst_write once.2.2 b

mutual

/-- What is written of a value with each key once has each key once. Only the tables that a shape
does not look into could have more. -/
theorem Shape.keysOnce_write (s : Shape α) (once : s.KeysOnce) {v : Json} {a : α}
    (holds : s.Holds v a) (hv : v.KeysOnce) : (s.write a).KeysOnce := by
  match s, a with
  | .text, a | .flag, a | .choice variants, a => simp only [Shape.write, Json.KeysOnce]
  | .list item, as =>
    obtain ⟨vs, rfl, items⟩ := holds
    exact keysOnce_list_write (items.imp fun _ _ => item.keysOnce_write once) hv
  | .record name fields packing, a =>
    refine ⟨fields.nodup_map_fst_write once _, ?_⟩
    rcases holds with ⟨members, rfl, hold⟩ | ⟨vs, rfl, _, hold⟩
    · exact fields.keysOnceMembers_write once hold fun _ _ _ => Source.keysOnce_ofTable hv
    · exact fields.keysOnceMembers_write once hold fun _ _ _ => Source.keysOnce_ofRow hv
  | .listOrTable wanted item fields packing, a =>
    rcases holds with ⟨vs, as, rfl, items, unpacked⟩ | ⟨members, b, rfl, hold, unpacked⟩
    · rw [Shape.write, unpacked]
      exact keysOnce_list_write (items.imp fun _ _ => item.keysOnce_write once.1) hv
    · rw [Shape.write, unpacked]
      exact ⟨fields.nodup_map_fst_write once.2 _,
        fields.keysOnceMembers_write once.2 hold fun _ _ _ => Source.keysOnce_ofTable hv⟩
  | .nameOrPair wanted packing, a =>
    rcases holds with ⟨name, rfl, unpacked⟩ | ⟨name, options, rfl, unpacked⟩
    · simp only [Shape.write, unpacked, Json.KeysOnce]
    · rw [Shape.write, unpacked]
      exact hv

theorem Fields.keysOnceMembers_write (fields : Fields β) (once : fields.KeysOnce)
    {source : Source} {i : Nat} {b : β} (hold : fields.Hold source i b)
    (hs : ∀ i key v, source i key = some v → v.KeysOnce) :
    Json.KeysOnceMembers (fields.write b) := by
  match fields, b with
  | .done, () => trivial
  | .required key shape rest, (a, b) | .optional key shape rest, (some a, b) =>
    obtain ⟨v, found, holds⟩ : ∃ v, source i key = some v ∧ shape.Holds v a := by
      simpa only [Fields.Hold, rel_some_iff] using hold.1
    exact ⟨shape.keysOnce_write once.2.1 holds (hs i key v found),
      rest.keysOnceMembers_write once.2.2 hold.2 hs⟩
  | .optional key shape rest, (none, b) => exact rest.keysOnceMembers_write once.2.2 hold.2 hs

end

end SiteManifest
