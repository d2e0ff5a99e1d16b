import SiteManifest.Site.Link

/-!
# Footer

Columns of links below every page: a bare list of sections, or a table that also has a style.
-/
namespace SiteManifest

inductive FooterStyle where
  | light
  | dark
  deriving DecidableEq, Repr

def FooterStyle.variants : Variants FooterStyle where
  all := [.light, .dark]
  name
    | .light => "light"
    | .dark => "dark"
  mem_all a := by cases a <;> simp
  name_injective a b := by cases a <;> cases b <;> simp

/-- A column of links under a title. -/
structure FooterSection where
  title : String
  items : List Link
  deriving DecidableEq, Repr

namespace FooterSection

def fields := Fields.required "title" .text <| .required "items" (.list Link.shape) .done

def shape : Shape FooterSection := .record "FooterSection" fields
  { pack := fun (title, items, ()) => ⟨title, items⟩
    unpack := fun s => (s.title, s.items, ()) }

def check (s : FooterSection) : List Finding :=
  Located.below (.key "title") (requireText .sectionTitle s.title) ++
    Located.below (.key "items")
      ((if s.items.isEmpty then [.here .emptySection] else []) ++ Link.checkAll s.items)

def checkAll (sections : List FooterSection) : List Finding := Located.each check 0 sections

end FooterSection

structure FooterTable where
  style : Option FooterStyle
  links : Option (List FooterSection)
  deriving DecidableEq, Repr

namespace FooterTable

def fields := Fields.optional "style" (.choice FooterStyle.variants) <|
  .optional "links" (.list FooterSection.shape) .done

def check (table : FooterTable) : List Finding :=
  Located.below (.key "links") (table.links.elim [] FooterSection.checkAll)

end FooterTable

inductive Footer where
  | bare (sections : List FooterSection)
  | table (table : FooterTable)
  deriving DecidableEq, Repr

namespace Footer

def shape : Shape Footer :=
  .listOrTable "a list of footer sections or a footer table" FooterSection.shape
    FooterTable.fields
    { pack := fun
        | .inl sections => .bare sections
        | .inr (style, links, ()) => .table ⟨style, links⟩
      unpack := fun
        | .bare sections => .inl sections
        | .table t => .inr (t.style, t.links, ())
      pack_unpack := by rintro (_ | _) <;> rfl
      unpack_pack := by rintro (_ | _) <;> rfl }

def sections : Footer → List FooterSection
  | .bare sections => sections
  | .table t => t.links.getD []

/-- Footers are light if they do not say. -/
def style : Footer → FooterStyle
  | .bare _ => .light
  | .table t => t.style.getD .light

def check : Footer → List Finding
  | .bare sections => FooterSection.checkAll sections
  | .table t => t.check

end Footer

end SiteManifest
