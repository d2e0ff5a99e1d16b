import SiteManifest.Located
import SiteManifest.Shape.Misfit
import SiteManifest.Shape.Basic

/-!
# Visiting a value by its shape

Everything that a reader meets in a value and cannot take, in the order of reading: keys that a
record does not have, and misfits. A reader stops at the first misfit; the visit goes on, so that
what is met at a place does not depend on what came before.
-/
namespace SiteManifest

inductive Sighting where
  /-- A key, or a surplus item of a pair, that nothing is known about. -/
  | unknown
  | misfit (cause : Misfit)
  deriving DecidableEq, Repr

abbrev Event := Located Sighting

def Event.misfit (cause : Misfit) : Event := .here (.misfit cause)

def visitText : Json → List Event
  | .string _ => []
  | v => [Event.misfit (.mistyped v "a string")]

def visitFlag : Json → List Event
  | .bool _ => []
  | v => [Event.misfit (.mistyped v "a boolean")]

/-- Events of a word of a choice. -/
def visitWord (variants : Variants α) (word : String) (fit : List Event) : List Event :=
  if (variants.find? word).isSome then fit
  else [Event.misfit (.unknownVariant word (variants.all.map variants.name))]

/-- Events of a choice. The word comes first, then what stands behind it. -/
def visitChoice (variants : Variants α) : Json → List Event
  | .string word => visitWord variants word []
  | .table [(word, .null)] => visitWord variants word []
  | .table [(word, v)] => visitWord variants word [Event.misfit (.mistyped v "unit")]
  | .table _ => [Event.misfit .manyKeys]
  | v => [Event.misfit (.mistyped v "string or map")]

def visitItems (visit : Json → List Event) : Json → List Event
  | .list vs => Located.each visit 0 vs
  | v => [Event.misfit (.mistyped v "a sequence")]

/-- Events of the members of a table, each by its key. Keys outside `keys` are unknown. -/
def visitMembers (keys : List String) (visit : String → Json → List Event) :
    Members → List Event
  | [] => []
  | (key, v) :: rest =>
    (if key ∈ keys then Located.below (.key key) (visit key v) else [⟨[.key key], .unknown⟩]) ++
      visitMembers keys visit rest

/-- Events of a record in either of its forms. -/
def visitRecord (name : String) (onTable : Members → List Event)
    (onList : List Json → List Event) : Json → List Event
  | .table members => onTable members
  | .list vs => onList vs
  | v => [Event.misfit (.mistyped v ("struct " ++ name))]

def visitListOrTable (wanted : String) (visit : Json → List Event)
    (onTable : Members → List Event) : Json → List Event
  | .list vs => Located.each visit 0 vs
  | .table members => onTable members
  | v => [Event.misfit (.mistyped v wanted)]

def visitOptions : Json → List Event
  | .table _ => []
  | v => [Event.misfit (.mistyped v "a map")]

/-- Events of the parts of a pair, and what is wrong with their number. -/
def visitParts (wanted : String) : List Json → List Event
  | [] => [Event.misfit (.wrongLength 0 wanted)]
  | [name] => Located.each visitText 0 [name] ++ [Event.misfit (.wrongLength 1 wanted)]
  | [name, options] => Located.each visitText 0 [name] ++ Located.each visitOptions 1 [options]
  | name :: options :: _ :: _ =>
    Located.each visitText 0 [name] ++ Located.each visitOptions 1 [options] ++
      [⟨[.index 2], .unknown⟩, Event.misfit (.wrongLength 3 wanted)]

def visitNameOrPair (wanted : String) : Json → List Event
  | .string _ => []
  | .list vs => visitParts wanted vs
  | v => [Event.misfit (.mistyped v wanted)]

mutual

def Shape.visit : Shape α → Json → List Event
  | .text, v => visitText v
  | .flag, v => visitFlag v
  | .choice variants, v => visitChoice variants v
  | .list item, v => visitItems item.visit v
  | .record name fields _, v =>
    visitRecord name
      (fun members => visitMembers fields.keys fields.visitKey members ++
        fields.visitMissing members)
      (fields.visitFields (recordWanted name fields.keys.length) 0) v
  | .listOrTable wanted item fields _, v =>
    visitListOrTable wanted item.visit
      (fun members => visitMembers fields.keys fields.visitKey members ++
        fields.visitMissing members) v
  | .nameOrPair wanted _, v => visitNameOrPair wanted v

/-- Events of the value of a key. -/
def Fields.visitKey : Fields β → String → Json → List Event
  | .done, _, _ => []
  | .required name shape rest, key, v | .optional name shape rest, key, v =>
    (if key = name then shape.visit v else []) ++ rest.visitKey key v

/-- The required keys that a table does not have. -/
def Fields.visitMissing : Fields β → Members → List Event
  | .done, _ => []
  | .required name _ rest, members =>
    (if (members.lookup name).isSome then [] else [⟨[.key name], .misfit (.missing name)⟩]) ++
      rest.visitMissing members
  | .optional _ _ rest, members => rest.visitMissing members

/-- Events of fields in a row from a position on. Optional ones may be missing at the end. -/
def Fields.visitFields (wanted : String) (first : Nat) : Fields β → List Json → List Event
  | .done, vs =>
    if vs.isEmpty then []
    else [Event.misfit (.wrongLength (first + vs.length) "fewer elements in array")]
  | .required _ shape rest, vs =>
    vs.head?.elim [Event.misfit (.wrongLength first wanted)] (fun v =>
      Located.below (.index first) (shape.visit v) ++ rest.visitFields wanted (first + 1) vs.tail)
  | .optional _ shape rest, vs =>
    vs.head?.elim [] (fun v => Located.below (.index first) (shape.visit v)) ++
      rest.visitFields wanted (first + 1) vs.tail

end

end SiteManifest
