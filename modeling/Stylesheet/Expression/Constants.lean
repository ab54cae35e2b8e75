import Stylesheet.Environment.Symbol

/-!
# Constants

The names with a fixed value: the codes of the environment's constants, the screens of known
phones, and the codes of the layout, text and image enumerations.
-/

namespace Stylesheet

namespace Constants

/-- The codes of a list of constants that are numbered from zero under a common heading. -/
def numbered (heading : String) (names : List String) : List (String × Float) :=
  names.zipIdx.map fun (name, index) => (heading ++ "." ++ name, Float.ofNat index)

def settings : List (String × Float) :=
  (Named.all : List Idiom).map (fun a => (Named.name a, a.code))
    ++ (Named.all : List Orientation).map (fun a => (Named.name a, a.code))
    ++ (Named.all : List SizeClass).map (fun a => (Named.name a, a.code))

/-- Portrait width and height of the known screens. -/
def screens : List (String × Float) :=
  (Named.all : List Idiom).flatMap fun idiom => match idiom.bounds? with
    | some (width, height) =>
        [(Named.name idiom ++ ".width", Float.ofNat width),
          (Named.name idiom ++ ".height", Float.ofNat height)]
    | none => []

/-- Direction, alignment, display, flex direction, position, overflow and wrapping. -/
def layout : List (String × Float) := [
  ("inherit", 0), ("ltr", 1), ("rtl", 2),
  ("auto", 0), ("flexStart", 1), ("center", 2), ("flexEnd", 3), ("stretch", 4), ("baseline", 5),
  ("spaceBetween", 6), ("spaceAround", 7),
  ("flex", 0), ("none", 1),
  ("column", 0), ("columnReverse", 1), ("row", 2), ("rowReverse", 3),
  ("visible", 0), ("hidden", 1), ("absolute", 2),
  ("noWrap", 0), ("wrap", 1), ("wrapReverse", 2)]

/-- The codes of font weights. -/
def weights : List (String × Float) := [
  ("FontWeight.ultralight", -0.800000011920929),
  ("FontWeight.thin", -0.600000023841858),
  ("FontWeight.light", -0.400000005960464),
  ("FontWeight.regular", 0.0),
  ("FontWeight.medium", 0.230000004172325),
  ("FontWeight.semibold", 0.300000011920929),
  ("FontWeight.bold", 0.400000005960464),
  ("FontWeight.heavy", 0.560000002384186),
  ("FontWeight.black", 0.620000004768372)]

/-- Text alignment, line breaking and images. -/
def media : List (String × Float) :=
  numbered "TextAlignment" ["left", "center", "right", "justified", "natural"]
    ++ numbered "LineBreakMode"
      ["byWordWrapping", "byCharWrapping", "byClipping", "byTruncatingHead", "byTruncatingTail",
        "byTruncatingMiddle"]
    ++ numbered "ImageOrientation"
      ["up", "down", "left", "right", "upMirrored", "downMirrored", "leftMirrored",
        "rightMirrored"]
    ++ numbered "ImageResizingMode" ["tile", "stretch"]

/-- The condition of a fallback branch, which always holds. -/
def fallback : String := "default"

def all : List (String × Float) :=
  settings ++ screens ++ layout ++ weights ++ media ++ [(fallback, 1)]

end Constants

def constant? (name : String) : Option Float :=
  Constants.all.lookup name

end Stylesheet
