/-!
# What an environment is made of

The device class, the orientation and the two size classes of a screen, with the codes that
expressions compute with.
-/

namespace Stylesheet

inductive Idiom where
  | iPhoneSE
  | iPhone8
  | iPhone8Plus
  | iPhoneX
  | phone
  | iPad
  | tv
deriving DecidableEq, Repr

inductive Orientation where
  | portrait
  | landscape
deriving DecidableEq, Repr

inductive SizeClass where
  | unspecified
  | compact
  | regular
deriving DecidableEq, Repr

/-- The constants of a kind, with their names.  A constant's code is its place in the list. -/
class Named (α : Type) where
  all : List α
  name : α → String

namespace Named

variable {α : Type} [Named α]

def ofName? (text : String) : Option α :=
  all.find? fun a => name a == text

def names (α : Type) [Named α] : List String :=
  (all : List α).map name

end Named

instance : Named Idiom where
  all := [.iPhoneSE, .iPhone8, .iPhone8Plus, .iPhoneX, .phone, .iPad, .tv]
  name
    | .iPhoneSE => "iPhoneSE"
    | .iPhone8 => "iPhone8"
    | .iPhone8Plus => "iPhone8Plus"
    | .iPhoneX => "iPhoneX"
    | .phone => "phone"
    | .iPad => "iPad"
    | .tv => "tv"

instance : Named Orientation where
  all := [.portrait, .landscape]
  name
    | .portrait => "portrait"
    | .landscape => "landscape"

instance : Named SizeClass where
  all := [.unspecified, .compact, .regular]
  name
    | .unspecified => "unspecified"
    | .compact => "compact"
    | .regular => "regular"

def Idiom.code : Idiom → Float
  | .iPhoneSE => 0
  | .iPhone8 => 1
  | .iPhone8Plus => 2
  | .iPhoneX => 3
  | .phone => 4
  | .iPad => 5
  | .tv => 6

def Orientation.code : Orientation → Float
  | .portrait => 0
  | .landscape => 1

def SizeClass.code : SizeClass → Float
  | .unspecified => 0
  | .compact => 1
  | .regular => 2

/-- Portrait width and height of the phones with known screens. -/
def Idiom.bounds? : Idiom → Option (Nat × Nat)
  | .iPhoneSE => some (320, 568)
  | .iPhone8 => some (375, 667)
  | .iPhone8Plus => some (414, 736)
  | .iPhoneX => some (375, 812)
  | _ => none

/-- The names that an expression reads from the environment at every use. -/
inductive EnvironmentSymbol where
  | idiom
  | orientation
  | verticalSizeClass
  | horizontalSizeClass
deriving DecidableEq, Repr

instance : Named EnvironmentSymbol where
  all := [.idiom, .orientation, .verticalSizeClass, .horizontalSizeClass]
  name
    | .idiom => "idiom"
    | .orientation => "orientation"
    | .verticalSizeClass => "verticalSizeClass"
    | .horizontalSizeClass => "horizontalSizeClass"

end Stylesheet
