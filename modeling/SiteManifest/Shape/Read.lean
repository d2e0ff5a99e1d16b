import SiteManifest.Shape.Basic

/-!
# Reading a value of a shape

The value of the type, if the given one has the shape. Keys of a table that a record does not have
are passed over.
-/
namespace SiteManifest

def readFlag : Json → Option Bool
  | .bool b => some b
  | _ => none

def readChoice (variants : Variants α) : Json → Option α
  | .string word | .table [(word, .null)] => variants.find? word
  | _ => none

def readItems (read : Json → Option α) : Json → Option (List α)
  | .list vs => vs.mapM read
  | _ => none

def readTable (read : Members → Option α) : Json → Option α
  | .table members => read members
  | _ => none

/-- A record in either of its forms. -/
def readRecord (readMembers : Members → Option α) (readFields : List Json → Option α) :
    Json → Option α
  | .table members => readMembers members
  | .list vs => readFields vs
  | _ => none

def readNameOrPair : Json → Option (String ⊕ String × Members)
  | .string name => some (.inl name)
  | .list [.string name, .table options] => some (.inr (name, options))
  | _ => none

mutual

def Shape.read : Shape α → Json → Option α
  | .text, v => v.asString?
  | .flag, v => readFlag v
  | .choice variants, v => readChoice variants v
  | .list item, v => readItems item.read v
  | .record _ fields packing, v =>
    (readRecord fields.readMembers fields.readFields v).map packing.pack
  | .listOrTable _ item fields packing, v =>
    (((readItems item.read v).map .inl).or ((readTable fields.readMembers v).map .inr)).map
      packing.pack
  | .nameOrPair _ packing, v => (readNameOrPair v).map packing.pack

/-- The fields of a table. -/
def Fields.readMembers : Fields β → Members → Option β
  | .done, _ => some ()
  | .required key shape rest, members => do
    let a ← (members.lookup key).bind shape.read
    let b ← rest.readMembers members
    some (a, b)
  | .optional key shape rest, members => do
    let a ← (members.lookup key).elim (some none) fun v => (shape.read v).map some
    let b ← rest.readMembers members
    some (a, b)

/-- The fields of a list in their order. Optional ones may be missing at the end. -/
def Fields.readFields : Fields β → List Json → Option β
  | .done, vs => if vs.isEmpty then some () else none
  | .required _ shape rest, vs => do
    let a ← vs.head?.bind shape.read
    let b ← rest.readFields vs.tail
    some (a, b)
  | .optional _ shape rest, vs => do
    let a ← vs.head?.elim (some none) fun v => (shape.read v).map some
    let b ← rest.readFields vs.tail
    some (a, b)

end

end SiteManifest
