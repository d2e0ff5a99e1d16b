import Mathlib.Data.List.Nodup
import SiteManifest.Shape.Decode

/-!
# Keys that occur once

In the values that a manifest is read from, no table has a key twice. Whether a member is there and
what is found under its key then is the same question.

## Main definitions

* `Json.KeysOnce`: no table of a value has a key twice.
* `Json.Raw`: a value of this kind.
-/
namespace SiteManifest.Json

mutual

/-- Every table of the value, at any depth, has each of its keys once. -/
def KeysOnce : Json → Prop
  | .list vs => KeysOnceItems vs
  | .table members => (members.map (·.1)).Nodup ∧ KeysOnceMembers members
  | .null | .bool _ | .number _ | .string _ => True

def KeysOnceItems : List Json → Prop
  | [] => True
  | v :: vs => v.KeysOnce ∧ KeysOnceItems vs

def KeysOnceMembers : List (String × Json) → Prop
  | [] => True
  | (_, v) :: members => v.KeysOnce ∧ KeysOnceMembers members

end

theorem keysOnceItems_iff {vs : List Json} : KeysOnceItems vs ↔ ∀ v ∈ vs, v.KeysOnce := by
  induction vs with
  | nil => simp [KeysOnceItems]
  | cons v vs ih => simp [KeysOnceItems, ih]

theorem keysOnceMembers_iff {members : Members} :
    KeysOnceMembers members ↔ ∀ m ∈ members, m.2.KeysOnce := by
  induction members with
  | nil => simp [KeysOnceMembers]
  | cons m members ih => simp [KeysOnceMembers, ih]

/-- Where keys occur once, a member is what is found under its key. -/
theorem mem_iff_lookup_eq_some {members : Members} (once : (members.map (·.1)).Nodup)
    {key : String} {v : Json} : (key, v) ∈ members ↔ members.lookup key = some v := by
  refine ⟨fun h => ?_, mem_of_lookup⟩
  induction members with
  | nil => contradiction
  | cons m members ih =>
    obtain ⟨fresh, once⟩ := List.nodup_cons.1 once
    rcases List.mem_cons.1 h with rfl | h
    · exact List.lookup_cons_self
    · have other : key ≠ m.1 := by
        rintro rfl
        exact fresh (List.mem_map.2 ⟨_, h, rfl⟩)
      rw [List.lookup_cons, beq_false_of_ne other]
      exact ih once h

/-! ## Tables in the making -/

theorem map_fst_insert (members : Members) (key : String) (v : Json) :
    (insert members key v).map (·.1) =
      if key ∈ members.map (·.1) then members.map (·.1) else members.map (·.1) ++ [key] := by
  induction members with
  | nil => simp [insert]
  | cons m members ih =>
    by_cases h : m.1 = key
    · simp [insert, h]
    · have other : key ≠ m.1 := fun e => h e.symm
      by_cases known : key ∈ members.map (·.1) <;> simp_all [insert]

theorem forall_mem_insert {p : Json → Prop} {members : Members} {key : String} {v : Json}
    (h : ∀ m ∈ members, p m.2) (hv : p v) : ∀ m ∈ insert members key v, p m.2 := by
  induction members with
  | nil => simpa [insert] using hv
  | cons m members ih =>
    obtain ⟨here, below⟩ := List.forall_mem_cons.1 h
    unfold insert
    split
    · exact List.forall_mem_cons.2 ⟨hv, below⟩
    · exact List.forall_mem_cons.2 ⟨here, ih below⟩

theorem keysOnce_insert {members : Members} {key : String} {v : Json}
    (h : (Json.table members).KeysOnce) (hv : v.KeysOnce) :
    (Json.table (insert members key v)).KeysOnce := by
  obtain ⟨once, values⟩ := h
  refine ⟨?_, keysOnceMembers_iff.2 (forall_mem_insert (keysOnceMembers_iff.1 values) hv)⟩
  rw [map_fst_insert]
  split
  next => exact once
  next fresh => simpa only [List.concat_eq_append] using List.Nodup.concat fresh once

/-- However often a key is written, the table that is made has it once. -/
theorem keysOnce_tableOf {members : Members} (h : ∀ m ∈ members, m.2.KeysOnce) :
    (tableOf members).KeysOnce := by
  let Grown (done : Members) : Prop := (Json.table done).KeysOnce
  have start : Grown [] := ⟨List.nodup_nil, trivial⟩
  exact List.foldlRecOn (motive := Grown) members _ start
    fun done once m hm => keysOnce_insert once (h m hm)

/-! ## Whole values -/

/-- A value as a manifest is read from it. Its tables are maps, so that no key occurs twice in one,
whatever the value was made from. -/
structure Raw where
  value : Json
  once : value.KeysOnce

end SiteManifest.Json
