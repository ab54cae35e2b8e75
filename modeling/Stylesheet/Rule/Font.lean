import Stylesheet.Decimal.Text
import Stylesheet.Environment.Provider

/-!
# Fonts
-/

namespace Stylesheet

/-- A font by its family and its size in points.  The system font has no family. -/
structure Font where
  family : Option String
  size : Float
  /-- The question whose lasting answer the size is, if it is a NaN. -/
  kept : Option Query := none

namespace Font

/-- The family name that stands for the system font. -/
def systemName : String := "system"

/-- The system font at a size. -/
def system (size : Float) (kept : Option Query := none) : Font := ⟨none, size, kept⟩

def isSystem (font : Font) : Bool :=
  font.family.isNone

/-- Family and size; a font without a family name prints as the system font. -/
def text (font : Font) : String :=
  let family := match font.family with
    | none | some "" => systemName
    | some name => name
  s!"{family} {Decimal.toCompactText font.size}pt"

/-- Whether two fonts that are made for one provider have the same family and equal sizes.  A NaN is
equal to itself, as a lasting answer of the provider, and to nothing else. -/
def same (a b : Font) : Bool :=
  let sameObject := a.size.isNaN && b.size.isNaN && a.kept.isSome && a.kept == b.kept
  a.family == b.family && (a.size == b.size || sameObject)

end Font

end Stylesheet
