import SiteManifest.Site.Link

/-!
# Navbar

The bar at the top of every page: a bare list of links, or a table that also has a title and a logo.
-/
namespace SiteManifest

open Text

/-- Images of the logo, one of them for the dark colour mode. -/
structure Logo where
  alt : Option String
  src : String
  srcDark : Option String
  deriving DecidableEq, Repr

namespace Logo

def fields := Fields.optional "alt" .text <| .required "src" .text <|
  .optional "srcDark" .text .done

def shape : Shape Logo := .record "LogoConfig" fields
  { pack := fun (alt, src, srcDark, ()) => ⟨alt, src, srcDark⟩
    unpack := fun l => (l.alt, l.src, l.srcDark, ()) }

/-- The image files of the logo. -/
def images (l : Logo) : List (Located String) :=
  ⟨[.key "src"], l.src⟩ :: (l.srcDark.map fun dark => ⟨[.key "srcDark"], dark⟩).toList

def check (l : Logo) : List Finding :=
  l.images.flatMap fun image =>
    if IsBlank image.what then [⟨image.steps, .blank .logoImage⟩] else []

end Logo

structure NavbarTable where
  title : Option String
  logo : Option Logo
  hideOnScroll : Option Bool
  links : Option (List Link)
  deriving DecidableEq, Repr

namespace NavbarTable

def fields := Fields.optional "title" .text <| .optional "logo" Logo.shape <|
  .optional "hideOnScroll" .flag <| .optional "links" (.list Link.shape) .done

def check (table : NavbarTable) : List Finding :=
  Located.below (.key "logo") (table.logo.elim [] Logo.check) ++
    Located.below (.key "links") (table.links.elim [] Link.checkAll)

end NavbarTable

inductive Navbar where
  | bare (links : List Link)
  | table (table : NavbarTable)
  deriving DecidableEq, Repr

namespace Navbar

def shape : Shape Navbar :=
  .listOrTable "a list of links or a navbar table" Link.shape NavbarTable.fields
    { pack := fun
        | .inl links => .bare links
        | .inr (title, logo, hideOnScroll, links, ()) => .table ⟨title, logo, hideOnScroll, links⟩
      unpack := fun
        | .bare links => .inl links
        | .table t => .inr (t.title, t.logo, t.hideOnScroll, t.links, ())
      pack_unpack := by rintro (_ | _) <;> rfl
      unpack_pack := by rintro (_ | _) <;> rfl }

def links : Navbar → List Link
  | .bare links => links
  | .table t => t.links.getD []

def title? : Navbar → Option String
  | .bare _ => none
  | .table t => t.title

def logo? : Navbar → Option Logo
  | .bare _ => none
  | .table t => t.logo

def check : Navbar → List Finding
  | .bare links => Link.checkAll links
  | .table t => t.check

/-- The image files of the logo. -/
def images (n : Navbar) : List (Located String) :=
  Located.below (.key "logo") (n.logo?.elim [] Logo.images)

end Navbar

end SiteManifest
