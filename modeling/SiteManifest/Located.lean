import SiteManifest.FieldPath

/-!
# Located things

Whatever is found in a value keeps the steps that lead to it, counted from the value that was looked
at. Looking at a part and then going one step further out gives the place in the whole.
-/
namespace SiteManifest

structure Located (α : Type) where
  steps : List Step
  what : α
  deriving DecidableEq, Repr

namespace Located

/-- Something that stands at the place itself. -/
def here (what : α) : Located α := ⟨[], what⟩

/-- The same thing, counted from one step further out. -/
def under (step : Step) (x : Located α) : Located α := ⟨step :: x.steps, x.what⟩

def map (f : α → β) (x : Located α) : Located β := ⟨x.steps, f x.what⟩

def below (step : Step) (xs : List (Located α)) : List (Located α) := xs.map (under step)

/-- What is found in values in a row, each by its index. -/
def each (look : α → List (Located β)) (first : Nat) : List α → List (Located β)
  | [] => []
  | a :: rest => below (.index first) (look a) ++ each look (first + 1) rest

/-- The path of a thing that was found in the value at a path. -/
def path (base : FieldPath) (x : Located α) : FieldPath := base.extend x.steps

end Located

end SiteManifest
