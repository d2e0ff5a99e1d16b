import SiteManifest.Proofs.Json.Places
import SiteManifest.Proofs.Shape.Reading

/-!
# Values replaced in place

When a part of a value is replaced by another, a visit meets outside it what it met before, under
the same keys and in the same order. So if a visit of the new part meets what it met in the old one,
only somewhere else, then the same is true of the whole.

## Main definitions

* `Json.replaceAt`: a value with another part where steps lead.
* `Json.withLinks`: a value with a table of links where steps lead.
* `Located.relocate`: the same thing somewhere else.
* `expandSteps`: where something stands when the rows at a place are put under their key.

## Main statements

* `Shape.visit_record_replaceAt`: a visit of a table with another part under one of its keys.
* `Shape.visit_linksTable`: a visit of bare rows and of a table that has them under their key.
* `Shape.unknown_of_visit_eq_map`, `Shape.result_eq_error_of_visit_eq_map`: what a reading makes of
  it.
-/
namespace SiteManifest

/-- The value with another one where the steps lead. -/
def Json.replaceAt : Json → List Step → Json → Json
  | _, [], new => new
  | .table members, .key key :: steps, new =>
    .table (members.map fun m => (m.1, if m.1 = key then m.2.replaceAt steps new else m.2))
  | .list vs, .index i :: steps, new => .list (vs.modify i (·.replaceAt steps new))
  | v, _ :: _, _ => v

/-- The value with a table at a place that has nothing but rows under its links. -/
def Json.withLinks (v : Json) (place : List Step) (rows : List Json) : Json :=
  v.replaceAt place (.table [("links", .list rows)])

theorem lookup_map_value (f : String → Json → Json) (members : Members) (key : String) :
    (members.map fun m => (m.1, f m.1 m.2)).lookup key = (members.lookup key).map (f key) := by
  induction members with
  | nil => rfl
  | cons m members ih =>
    obtain ⟨name, v⟩ := m
    by_cases same : key = name
    · simp [same]
    · have other : (key == name) = false := beq_false_of_ne same
      simp [List.lookup_cons, other, ih]

theorem Json.exists_members_of_part? {v w : Json} {key : String} (h : v.part? (.key key) = some w) :
    ∃ members, v = .table members ∧ members.lookup key = some w := by
  cases v with
  | table members => exact ⟨members, rfl, h⟩
  | null | bool | number | string | list => contradiction

/-- A table with another part under a key has what it had under the others. -/
theorem Json.exists_replaceAt_table (members : Members) (key : String) (steps : List Step)
    (new : Json) :
    ∃ members', (Json.table members).replaceAt (.key key :: steps) new = .table members' ∧
      members'.lookup key = (members.lookup key).map (·.replaceAt steps new) ∧
      ∀ name ≠ key, members'.lookup name = members.lookup name := by
  have found := lookup_map_value (fun name v => if name = key then v.replaceAt steps new else v)
    members
  refine ⟨_, rfl, ?_, fun name other => ?_⟩
  · simp only [found, if_true]
  · simp only [found, if_neg other, Option.map_id']

/-- The same thing somewhere else. -/
def Located.relocate (move : List Step → List Step) (x : Located α) : Located α :=
  ⟨move x.steps, x.what⟩

/-! ## Steps through the key of the rows -/

/-- The steps to the same thing when the rows of the list at a place are under a key of links. -/
def expandSteps : List Step → List Step → List Step
  | a :: place, b :: steps => b :: if b = a then expandSteps place steps else steps
  | [], .index i :: rest => .key "links" :: .index i :: rest
  | _, steps => steps

theorem expandSteps_row (place : List Step) (i : Nat) (rest : List Step) :
    expandSteps place (place ++ .index i :: rest) = place ++ .key "links" :: .index i :: rest := by
  induction place with
  | nil => rfl
  | cons a place ih => rw [List.cons_append, expandSteps, if_pos rfl, ih, List.cons_append]

/-- Whatever does not stand in a row of the list stays where it is. -/
theorem expandSteps_of_not_row {place steps : List Step}
    (h : ∀ i rest, steps ≠ place ++ .index i :: rest) : expandSteps place steps = steps := by
  induction place generalizing steps with
  | nil =>
    match steps with
    | [] | .key _ :: _ => rfl
    | .index i :: rest => exact absurd rfl (h i rest)
  | cons a place ih =>
    cases steps with
    | nil => rfl
    | cons b steps =>
      rw [expandSteps]
      split
      next same =>
        rw [ih fun i rest row => h i rest (by rw [same, row, List.cons_append])]
      next => rfl

@[simp] theorem expandSteps_nil (place : List Step) : expandSteps place [] = [] := by
  cases place <;> rfl

@[simp] theorem expandSteps_key (place : List Step) (key : String) :
    expandSteps place [.key key] = [.key key] := by
  cases place <;> simp [expandSteps]

theorem getLast?_expandSteps (place steps : List Step) :
    (expandSteps place steps).getLast? = steps.getLast? := by
  by_cases row : ∃ i rest, steps = place ++ .index i :: rest
  · obtain ⟨i, rest, rfl⟩ := row
    rw [expandSteps_row, List.getLast?_append_cons, List.getLast?_append_cons,
      List.getLast?_cons_cons]
  · rw [expandSteps_of_not_row fun i rest same => row ⟨i, rest, same⟩]

namespace Located

/-- The same thing when the rows of the list at a place are under a key of links. -/
def expand (place : List Step) (x : Located α) : Located α := x.relocate (expandSteps place)

theorem map_expand_below (a : Step) (place : List Step) (xs : List (Located α)) :
    (below a xs).map (expand (a :: place)) = below a (xs.map (expand place)) := by
  simp [below, expand, relocate, under, expandSteps, Function.comp_def]

/-- What is found under one key does not move if the place is under another one. -/
theorem map_expand_below_of_ne {key : String} {place : List Step}
    (h : place.head? ≠ some (.key key)) (xs : List (Located α)) :
    (below (.key key) xs).map (expand place) = below (.key key) xs := by
  cases place with
  | nil => simp [below, expand, relocate, under, expandSteps]
  | cons a place =>
    have other : Step.key key ≠ a := fun same => h (congrArg some same.symm)
    simp [below, expand, relocate, under, expandSteps, other]

theorem map_expand_each (look : α → List (Located β)) (first : Nat) (as : List α) :
    (each look first as).map (expand []) = below (.key "links") (each look first as) := by
  induction as generalizing first with
  | nil => rfl
  | cons a as ih =>
    have row : (below (.index first) (look a)).map (expand []) =
        below (.key "links") (below (.index first) (look a)) := by
      simp [below, expand, relocate, under, expandSteps]
    rw [each, List.map_append, row, ih]
    exact List.map_append.symm

end Located

/-! ## Visits -/

section Visits

variable {key : String} {place : List Step} {members : Members}

theorem visitMembers_replaced {keys : List String} {visit : String → Json → List Event}
    {f : Json → Json} (known : key ∈ keys)
    (inner : ∀ m ∈ members, m.1 = key →
      visit key (f m.2) = (visit key m.2).map (Located.expand place)) :
    visitMembers keys visit (members.map fun m => (m.1, if m.1 = key then f m.2 else m.2)) =
      (visitMembers keys visit members).map (Located.expand (.key key :: place)) := by
  induction members with
  | nil => rfl
  | cons m members ih =>
    obtain ⟨name, v⟩ := m
    obtain ⟨here, there⟩ := List.forall_mem_cons.1 inner
    rw [List.map_cons, visitMembers, visitMembers, ih there, List.map_append]
    congr 1
    by_cases same : name = key
    · obtain rfl := same
      rw [if_pos known, if_pos known, Located.map_expand_below, if_pos rfl, here rfl]
    · have other : (Step.key key :: place).head? ≠ some (.key name) := by
        simpa using fun h => same h.symm
      rw [if_neg same]
      split
      · rw [Located.map_expand_below_of_ne other]
      · simp [Located.expand, Located.relocate]

/-- The keys that a table misses do not depend on the values it has. -/
theorem Fields.visitMissing_map_value (fields : Fields β) (f : String → Json → Json) :
    fields.visitMissing (members.map fun m => (m.1, f m.1 m.2)) = fields.visitMissing members := by
  cases fields with
  | done => rfl
  | required name _ rest =>
    rw [visitMissing, visitMissing, rest.visitMissing_map_value f, lookup_map_value,
      Option.isSome_map]
  | optional _ _ rest => exact rest.visitMissing_map_value f

theorem Fields.map_expand_visitMissing (fields : Fields β) (place : List Step) :
    (fields.visitMissing members).map (Located.expand place) = fields.visitMissing members := by
  cases fields with
  | done => rfl
  | required name _ rest =>
    rw [visitMissing, List.map_append, rest.map_expand_visitMissing]
    split
    · rfl
    · simp [Located.expand, Located.relocate]
  | optional _ _ rest => exact rest.map_expand_visitMissing place

namespace Shape

theorem visit_record_table (name : String) (fields : Fields β) (packing : Packing β α)
    (members : Members) :
    (record name fields packing).visit (.table members) =
      visitMembers fields.keys fields.visitKey members ++ fields.visitMissing members := rfl

theorem visit_listOrTable_table (wanted : String) (item : Shape γ) (fields : Fields β)
    (packing : Packing (List γ ⊕ β) α) (members : Members) :
    (listOrTable wanted item fields packing).visit (.table members) =
      visitMembers fields.keys fields.visitKey members ++ fields.visitMissing members := rfl

theorem visit_listOrTable_list (wanted : String) (item : Shape γ) (fields : Fields β)
    (packing : Packing (List γ ⊕ β) α) (vs : List Json) :
    (listOrTable wanted item fields packing).visit (.list vs) = Located.each item.visit 0 vs := rfl

/-- If a visit of a part meets the same further in, then so does a visit of the table. -/
theorem visit_record_replaceAt {name : String} {fields : Fields β} {packing : Packing β α}
    {v new : Json} (known : key ∈ fields.keys) (once : (members.map (·.1)).Nodup)
    (found : members.lookup key = some v)
    (inner : fields.visitKey key (v.replaceAt place new) =
      (fields.visitKey key v).map (Located.expand place)) :
    (record name fields packing).visit ((Json.table members).replaceAt (.key key :: place) new) =
      ((record name fields packing).visit (.table members)).map
        (Located.expand (.key key :: place)) := by
  have part (m : String × Json) (hm : m ∈ members) (same : m.1 = key) :
      fields.visitKey key (m.2.replaceAt place new) =
        (fields.visitKey key m.2).map (Located.expand place) := by
    obtain rfl := same
    have value : members.lookup m.1 = some m.2 := (Json.mem_iff_lookup_eq_some once).1 hm
    obtain rfl : m.2 = v := Option.some.inj (value.symm.trans found)
    exact inner
  rw [Json.replaceAt, visit_record_table, visit_record_table, List.map_append,
    visitMembers_replaced (f := (·.replaceAt place new)) known part, fields.map_expand_visitMissing,
    fields.visitMissing_map_value fun name v =>
      if name = key then v.replaceAt place new else v]

/-- A list of rows, and the table that has the same rows under its links. -/
theorem visit_linksTable {wanted : String} {item : Shape γ} {fields : Fields β}
    {packing : Packing (List γ ⊕ β) α} {rows : List Json} (known : "links" ∈ fields.keys)
    (links : fields.visitKey "links" (.list rows) = Located.each item.visit 0 rows)
    (free : fields.visitMissing [("links", .list rows)] = []) :
    (listOrTable wanted item fields packing).visit (.table [("links", .list rows)]) =
      ((listOrTable wanted item fields packing).visit (.list rows)).map (Located.expand []) := by
  rw [visit_listOrTable_table, visit_listOrTable_list, Located.map_expand_each, free,
    visitMembers, visitMembers, if_pos known, links, List.append_nil, List.append_nil]

end Shape

end Visits

/-! ## Readings -/

section Readings

variable {move : List Step → List Step}

@[simp] theorem AllFit.map_relocate_iff {events : List Event} :
    AllFit (events.map (Located.relocate move)) ↔ AllFit events := by
  simp [AllFit, Located.relocate]

theorem Event.misfit?_relocate (e : Event) :
    Event.misfit? (e.relocate move) = e.misfit?.map (Located.relocate move) := by
  obtain ⟨steps, what⟩ := e
  cases what <;> rfl

namespace Shape

variable {s : Shape α} {v w : Json}

theorem result_eq_error_iff {m : Located Misfit} :
    (s.decode v).result = .error m ↔ (s.visit v).findSome? Event.misfit? = some m := by
  unfold decode
  dsimp only
  split
  next found => simp [found]
  next none => simp [none]

/-- What is unknown of a value is unknown of the other one, somewhere else. -/
theorem unknown_of_visit_eq_map (h : s.visit w = (s.visit v).map (Located.relocate move)) :
    (s.decode w).unknown = (s.decode v).unknown.map move := by
  have same : Event.isUnknown ∘ Located.relocate move = Event.isUnknown := rfl
  show ((s.visit w).takeWhile Event.isUnknown).map (·.steps) =
    (((s.visit v).takeWhile Event.isUnknown).map (·.steps)).map move
  rw [h, List.takeWhile_map, same, List.map_map, List.map_map]
  rfl

/-- The same misfit ends the reading of both, somewhere else. -/
theorem result_eq_error_of_visit_eq_map
    (h : s.visit w = (s.visit v).map (Located.relocate move)) {m : Located Misfit}
    (stop : (s.decode v).result = .error m) :
    (s.decode w).result = .error (m.relocate move) := by
  have moved : Event.misfit? ∘ Located.relocate move =
      Option.map (Located.relocate move) ∘ Event.misfit? := funext Event.misfit?_relocate
  rw [result_eq_error_iff] at stop ⊢
  rw [h, List.findSome?_map, moved, ← List.map_findSome?, stop, Option.map_some]

end Shape

end Readings

end SiteManifest
