import SiteManifest.Number.Numeral

/-!
# Manifest values

The tree of values that a manifest is read into and written from, whichever text format holds it.
Tables keep the order in which their keys were written.
-/
namespace SiteManifest

open Number

inductive Json where
  | null
  | bool (b : Bool)
  | number (n : Numeral)
  | string (s : String)
  | list (items : List Json)
  | table (members : List (String × Json))
  deriving Inhabited, Repr

namespace Json

mutual

def decEq : (v w : Json) → Decidable (v = w)
  | .null, .null => isTrue rfl
  | .bool a, .bool b => decidable_of_iff (a = b) (by simp)
  | .number a, .number b => decidable_of_iff (a = b) (by simp)
  | .string a, .string b => decidable_of_iff (a = b) (by simp)
  | .list a, .list b => @decidable_of_iff _ (a = b) (by simp) (decEqItems a b)
  | .table a, .table b => @decidable_of_iff _ (a = b) (by simp) (decEqMembers a b)
  | .null, .bool _ | .null, .number _ | .null, .string _ | .null, .list _ | .null, .table _
  | .bool _, .null | .bool _, .number _ | .bool _, .string _ | .bool _, .list _ | .bool _, .table _
  | .number _, .null | .number _, .bool _ | .number _, .string _ | .number _, .list _
  | .number _, .table _ | .string _, .null | .string _, .bool _ | .string _, .number _
  | .string _, .list _ | .string _, .table _ | .list _, .null | .list _, .bool _
  | .list _, .number _ | .list _, .string _ | .list _, .table _ | .table _, .null
  | .table _, .bool _ | .table _, .number _ | .table _, .string _ | .table _, .list _ =>
    isFalse (by simp)

def decEqItems : (vs ws : List Json) → Decidable (vs = ws)
  | [], [] => isTrue rfl
  | v :: vs, w :: ws =>
    match decEq v w, decEqItems vs ws with
    | isTrue h, isTrue hs => isTrue (by rw [h, hs])
    | isFalse h, _ => isFalse (by simp [h])
    | _, isFalse hs => isFalse (by simp [hs])
  | [], _ :: _ => isFalse (by simp)
  | _ :: _, [] => isFalse (by simp)

def decEqMembers : (vs ws : List (String × Json)) → Decidable (vs = ws)
  | [], [] => isTrue rfl
  | (j, v) :: vs, (k, w) :: ws =>
    if hk : j = k then
      match decEq v w, decEqMembers vs ws with
      | isTrue h, isTrue hs => isTrue (by rw [hk, h, hs])
      | isFalse h, _ => isFalse (by simp [h])
      | _, isFalse hs => isFalse (by simp [hs])
    else isFalse (by simp [hk])
  | [], _ :: _ => isFalse (by simp)
  | _ :: _, [] => isFalse (by simp)

end

instance : DecidableEq Json := decEq

/-- The kind of a value in a sentence. -/
def kind : Json → String
  | .null => "null"
  | .bool _ => "a boolean"
  | .number _ => "a number"
  | .string _ => "a string"
  | .list _ => "a list"
  | .table _ => "a table"

/-- The value of a key, if the value is a table that has it. -/
def get? (v : Json) (key : String) : Option Json :=
  match v with
  | .table members => members.lookup key
  | _ => none

def asString? : Json → Option String
  | .string s => some s
  | _ => none

/-- The value found by following keys from table to table. -/
def follow? (v : Json) : List String → Option Json
  | [] => some v
  | key :: keys => (v.get? key).bind fun w => w.follow? keys

/-- Adds a member at the end, or puts the value in the place of the one that the key has. -/
def insert (members : List (String × Json)) (key : String) (value : Json) :
    List (String × Json) :=
  match members with
  | [] => [(key, value)]
  | (k, v) :: rest => if k = key then (k, value) :: rest else (k, v) :: insert rest key value

/-- A table from its members in the order of writing: a key written twice keeps its first place and
its last value. -/
def tableOf (members : List (String × Json)) : Json :=
  .table (members.foldl (fun done (key, value) => insert done key value) [])

end Json

end SiteManifest
