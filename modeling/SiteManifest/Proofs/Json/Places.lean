import SiteManifest.FieldPath
import SiteManifest.Proofs.Json.Keys

/-!
# Places in a value

Steps lead from a value to its parts. Reading goes through a value depth first and in the order of
writing, and so passes the places of a value one after the other.

## Main definitions

* `Json.at?`: what stands where steps lead.
* `Json.Before`: one place is passed before another.
* `Json.without`: a value less the members at some places.
-/
namespace SiteManifest.Json

/-- The part of a value one step further in. -/
def part? : Json → Step → Option Json
  | .list vs, .index i => vs[i]?
  | .table members, .key key => members.lookup key
  | _, _ => none

/-- What stands where the steps lead. -/
def at? (v : Json) : List Step → Option Json
  | [] => some v
  | step :: steps => (v.part? step).bind fun w => w.at? steps

@[simp] theorem at?_nil (v : Json) : v.at? [] = some v := rfl

theorem at?_cons_eq_some_iff {v w : Json} {step : Step} {steps : List Step} :
    v.at? (step :: steps) = some w ↔ ∃ u, v.part? step = some u ∧ u.at? steps = some w := by
  rw [at?, Option.bind_eq_some_iff]

theorem at?_append (v : Json) (p q : List Step) :
    v.at? (p ++ q) = (v.at? p).bind fun w => w.at? q := by
  induction p generalizing v with
  | nil => rfl
  | cons step p ih => simp only [List.cons_append, at?, ih, Option.bind_assoc]

/-! ## The order of reading -/

/-- How many parts come before the one of a step. A key that is missing comes after those that are
there. -/
def rank : Json → Step → Nat
  | .table members, .key key => (members.map (·.1)).idxOf key
  | _, .index i => i
  | _, .key _ => 0

/-- Reading passes one place before another: it lies in an earlier part of the same value, or it
lies within the other place and that is finished later. -/
def Before (v : Json) : List Step → List Step → Prop
  | [], _ => False
  | _ :: _, [] => True
  | a :: p, b :: q => v.rank a < v.rank b ∨ a = b ∧ ∃ w, v.part? a = some w ∧ w.Before p q

theorem before_of_rank_lt {v : Json} {a b : Step} {p q : List Step} (h : v.rank a < v.rank b) :
    v.Before (a :: p) (b :: q) := .inl h

theorem before_cons {v w : Json} {a : Step} {p q : List Step} (hw : v.part? a = some w)
    (h : w.Before p q) : v.Before (a :: p) (a :: q) := .inr ⟨rfl, w, hw, h⟩

theorem Before.asymm {v : Json} {p q : List Step} (h : v.Before p q) : ¬v.Before q p := by
  induction p generalizing v q with
  | nil => exact h.elim
  | cons a p ih =>
    cases q with
    | nil => exact id
    | cons b q =>
      rintro (later | ⟨rfl, w, hw, back⟩)
      · rcases h with earlier | ⟨rfl, _⟩
        · exact Nat.lt_asymm earlier later
        · exact Nat.lt_irrefl _ later
      · rcases h with earlier | ⟨_, u, hu, below⟩
        · exact Nat.lt_irrefl _ earlier
        · obtain rfl : w = u := Option.some.inj (hw.symm.trans hu)
          exact ih below back

theorem not_before_self {v : Json} {p : List Step} : ¬v.Before p p := fun h => h.asymm h

/-- The members of a table are passed in their order. -/
theorem pairwise_rank_lt {members : Members} (once : (members.map (·.1)).Nodup) :
    members.Pairwise fun m n =>
      (Json.table members).rank (.key m.1) < (Json.table members).rank (.key n.1) := by
  rw [← List.pairwise_map (f := Prod.fst) (R := fun j k =>
    (Json.table members).rank (.key j) < (Json.table members).rank (.key k)),
    List.pairwise_iff_getElem]
  intro i j hi hj lt
  simpa only [rank, once.idxOf_getElem] using lt

theorem rank_lt_of_not_mem {members : Members} {key absent : String}
    (h : key ∈ members.map (·.1)) (ha : absent ∉ members.map (·.1)) :
    (Json.table members).rank (.key key) < (Json.table members).rank (.key absent) := by
  simpa only [rank, List.idxOf_eq_length ha] using List.idxOf_lt_length_of_mem h

/-- Places are listed in the order in which reading passes them: those that have a property, and
each of them once. -/
structure Enumerates (v : Json) (p : List Step → Prop) (places : List (List Step)) : Prop where
  mem_iff : ∀ steps, steps ∈ places ↔ p steps
  inOrder : places.Pairwise v.Before
  nodup : places.Nodup

/-! ## Members taken out -/

mutual

/-- The value less the members that are gone, at any depth. -/
def without (gone : List Step → Bool) : Json → Json
  | .list vs => .list (withoutItems gone 0 vs)
  | .table members => .table (withoutMembers gone members)
  | .null => .null
  | .bool b => .bool b
  | .number n => .number n
  | .string s => .string s

def withoutItems (gone : List Step → Bool) (first : Nat) : List Json → List Json
  | [] => []
  | v :: vs =>
    v.without (fun steps => gone (.index first :: steps)) :: withoutItems gone (first + 1) vs

def withoutMembers (gone : List Step → Bool) : List (String × Json) → List (String × Json)
  | [] => []
  | (key, v) :: members =>
    if gone [.key key] then withoutMembers gone members
    else (key, v.without fun steps => gone (.key key :: steps)) :: withoutMembers gone members

end

mutual

theorem without_eq_self {gone : List Step → Bool} (v : Json) (h : ∀ steps, gone steps = false) :
    v.without gone = v := by
  match v with
  | .list vs => rw [without, withoutItems_eq_self vs h]
  | .table members => rw [without, withoutMembers_eq_self members h]
  | .null | .bool _ | .number _ | .string _ => rfl

theorem withoutItems_eq_self {gone : List Step → Bool} {first : Nat} (vs : List Json)
    (h : ∀ steps, gone steps = false) : withoutItems gone first vs = vs := by
  match vs with
  | [] => rfl
  | v :: vs => rw [withoutItems, v.without_eq_self fun _ => h _, withoutItems_eq_self vs h]

theorem withoutMembers_eq_self {gone : List Step → Bool} (members : List (String × Json))
    (h : ∀ steps, gone steps = false) : withoutMembers gone members = members := by
  match members with
  | [] => rfl
  | (key, v) :: members =>
    rw [withoutMembers, h, v.without_eq_self fun _ => h _, withoutMembers_eq_self members h]
    rfl

end

theorem mem_withoutMembers_iff {gone : List Step → Bool} {members : Members} {n : String × Json} :
    n ∈ withoutMembers gone members ↔
      ∃ m ∈ members, gone [.key m.1] = false ∧
        n = (m.1, m.2.without fun steps => gone (.key m.1 :: steps)) := by
  induction members with
  | nil => simp [withoutMembers]
  | cons m members ih => cases h : gone [.key m.1] <;> simp [withoutMembers, h, ih]

theorem lookup_withoutMembers {gone : List Step → Bool} (members : Members) {key : String}
    (h : gone [.key key] = false) :
    (withoutMembers gone members).lookup key =
      (members.lookup key).map fun v => v.without fun steps => gone (.key key :: steps) := by
  induction members with
  | nil => rfl
  | cons m members ih =>
    obtain ⟨name, v⟩ := m
    by_cases same : key = name
    · obtain rfl := same
      simp [withoutMembers, h]
    · have other : (key == name) = false := beq_false_of_ne same
      cases hm : gone [.key name] <;> simp [withoutMembers, hm, List.lookup_cons, other, ih]

end SiteManifest.Json
