import Stylesheet.Text.Printable

/-!
# Quoted text

A text inside a message stands in quotes with its unprintable characters escaped.  The quote is
single, unless the text holds a single quote and no double one.
-/

namespace Stylesheet.Text

/-- The lower-case hexadecimal digits of a code point, filled up with zeros to a width. -/
def hexCode (width : Nat) (c : Char) : List Char :=
  let digits := Nat.toDigits 16 c.toNat
  List.replicate (width - digits.length) '0' ++ digits

/-- How a character is written inside quotes. -/
def escapeChar (quote c : Char) : List Char :=
  if c == quote || c == '\\' then ['\\', c]
  else if c == '\n' then ['\\', 'n']
  else if c == '\r' then ['\\', 'r']
  else if c == '\t' then ['\\', 't']
  else if isPrintable c then [c]
  else if c.toNat < 0x100 then '\\' :: 'x' :: hexCode 2 c
  else if c.toNat < 0x10000 then '\\' :: 'u' :: hexCode 4 c
  else '\\' :: 'U' :: hexCode 8 c

def quoted (text : String) : String :=
  let chars := text.toList
  let quote := if chars.contains '\'' && !chars.contains '"' then '"' else '\''
  String.ofList (quote :: chars.flatMap (escapeChar quote) ++ [quote])

end Stylesheet.Text
