import SiteManifest.Text.Display

/-!
# Field paths

Where in a manifest a value stands: the steps that lead to it, and their text as messages show it,
with a point before a key and square brackets around an index.
-/
namespace SiteManifest

open Text

inductive Step where
  | key (name : String)
  | index (i : Nat)
  deriving DecidableEq, Repr

/-- The text of a location; empty for the whole manifest. -/
structure FieldPath where
  text : String
  deriving DecidableEq, Repr

namespace FieldPath

def root : FieldPath := ⟨""⟩

def isRoot (path : FieldPath) : Bool := path.text.isEmpty

/-- A path followed by one that starts from its place. -/
def join (path child : FieldPath) : FieldPath :=
  if path.isRoot then child
  else if child.isRoot then path
  else ⟨path.text ++ "." ++ child.text⟩

def index (path : FieldPath) (i : Nat) : FieldPath := ⟨path.text ++ "[" ++ toString i ++ "]"⟩

def key (path : FieldPath) (name : String) : FieldPath :=
  ⟨(if path.isRoot then "" else path.text ++ ".") ++ name⟩

def push (path : FieldPath) : Step → FieldPath
  | .key name => path.key name
  | .index i => path.index i

/-- The path that steps lead to from a place. -/
def extend (path : FieldPath) (steps : List Step) : FieldPath := steps.foldl push path

def ofSteps (steps : List Step) : FieldPath := root.extend steps

theorem ofSteps_concat (steps : List Step) (step : Step) :
    ofSteps (steps ++ [step]) = (ofSteps steps).push step := by
  rw [ofSteps, ofSteps, extend, extend, List.foldl_append]
  rfl

/-- What messages call the path, where the empty text has a name. -/
def shown (path : FieldPath) : String := if path.isRoot then "<root>" else path.text

/-- The path between backquotes and in colour, as it stands in a sentence. -/
def display (path : FieldPath) : String := Style.paint .brightBlue ("\x60" ++ path.shown ++ "\x60")

end FieldPath

end SiteManifest
