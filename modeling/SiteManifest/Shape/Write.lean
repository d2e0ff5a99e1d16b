import SiteManifest.Shape.Basic

/-!
# Writing a value of a shape

The one form in which a value is written: records as tables without the keys that are absent,
choices as words.
-/
namespace SiteManifest

mutual

def Shape.write : Shape α → α → Json
  | .text, s => .string s
  | .flag, b => .bool b
  | .choice variants, a => .string (variants.name a)
  | .list item, items => .list (items.map item.write)
  | .record _ fields packing, a => .table (fields.write (packing.unpack a))
  | .listOrTable _ item fields packing, a =>
    match packing.unpack a with
    | .inl items => .list (items.map item.write)
    | .inr b => .table (fields.write b)
  | .nameOrPair _ packing, a =>
    match packing.unpack a with
    | .inl name => .string name
    | .inr (name, options) => .list [.string name, .table options]

def Fields.write : Fields β → β → Members
  | .done, () => []
  | .required key shape rest, (a, b) => (key, shape.write a) :: rest.write b
  | .optional _ _ rest, (none, b) => rest.write b
  | .optional key shape rest, (some a, b) => (key, shape.write a) :: rest.write b

end

end SiteManifest
