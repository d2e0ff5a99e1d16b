/-!
# Key casing

Keys are written in camel case. An underscored name turns into its key by dropping the underscores
and raising the letter after each of them, and two spellings of one key have the same squashed form.
-/
namespace SiteManifest.Text

inductive Casing where
  | snake
  | camel
  deriving DecidableEq, Repr

/-- `started` says that a character was kept already, `raise` that the next one is raised: an
underscore before the first kept character raises nothing. -/
def camelChars (started raise : Bool) : List Char → List Char
  | [] => []
  | c :: cs =>
    if c = '_' then camelChars started started cs
    else (if raise then c.toUpper else c) :: camelChars true false cs

/-- Camel case of an underscored name. Only ASCII letters are raised. -/
def camelCase (s : String) : String := String.ofList (camelChars false false s.toList)

def Casing.apply : Casing → String → String
  | .snake, s => s
  | .camel, s => camelCase s

/-- The form in which spellings of one key agree: no separators, ASCII letters in lower case. -/
def squash (key : String) : String :=
  String.ofList ((key.toList.filter fun c => c ≠ '_' && c ≠ '-').map Char.toLower)

end SiteManifest.Text
