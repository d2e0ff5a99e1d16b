import SiteManifest.Json.Basic

/-!
# Shapes

A description of the values that stand for a type of the manifest: how a value of the type is
written, which keys a record has and which of them it needs. One description serves for reading,
for writing and for telling what is wrong, so these agree on every key.
-/
namespace SiteManifest

/-- Two forms of the same data: what a shape holds part by part, and the type it stands for. -/
structure Packing (β α : Type) where
  pack : β → α
  unpack : α → β
  pack_unpack : ∀ a, pack (unpack a) = a := by intros; rfl
  unpack_pack : ∀ b, unpack (pack b) = b := by intros; rfl

/-- The values of a type that is written as one of several words. -/
structure Variants (α : Type) where
  all : List α
  name : α → String
  mem_all : ∀ a, a ∈ all
  name_injective : ∀ a b, name a = name b → a = b

namespace Variants

def find? (variants : Variants α) (word : String) : Option α :=
  variants.all.find? (variants.name · == word)

theorem find?_name (variants : Variants α) (a : α) :
    variants.find? (variants.name a) = some a := by
  cases h : variants.find? (variants.name a) with
  | none => exact absurd (by simp) (List.find?_eq_none.1 h a (variants.mem_all a))
  | some b => rw [variants.name_injective b a (by simpa using List.find?_some h)]

theorem name_of_find? {variants : Variants α} {word : String} {a : α}
    (h : variants.find? word = some a) : variants.name a = word := by
  simpa using List.find?_some h

end Variants

/-- The members of a table. -/
abbrev Members := List (String × Json)

mutual

inductive Shape : Type → Type 1 where
  | text : Shape String
  | flag : Shape Bool
  /-- A word, or a table that has the word as its only key with nothing behind it. -/
  | choice (variants : Variants α) : Shape α
  | list (item : Shape α) : Shape (List α)
  /-- A table, or a list of the fields in their order. -/
  | record (name : String) (fields : Fields β) (packing : Packing β α) : Shape α
  /-- A list of items, or a table that is no list of its fields. -/
  | listOrTable (wanted : String) (item : Shape γ) (fields : Fields β)
      (packing : Packing (List γ ⊕ β) α) : Shape α
  /-- A name, or a list of a name and a table that is not looked into. -/
  | nameOrPair (wanted : String) (packing : Packing (String ⊕ String × Members) α) : Shape α

/-- The fields of a record in their order. -/
inductive Fields : Type → Type 1 where
  | done : Fields Unit
  | required (key : String) (shape : Shape α) (rest : Fields β) : Fields (α × β)
  | optional (key : String) (shape : Shape α) (rest : Fields β) : Fields (Option α × β)

end

namespace Fields

def keys : Fields β → List String
  | .done => []
  | .required key _ rest | .optional key _ rest => key :: rest.keys

end Fields

end SiteManifest
