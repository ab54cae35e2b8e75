/-!
# Places in a YAML text

The characters that YAML tells apart, and a cursor: a place in a text with its line and column.
The end of a text separates like white space, so the classes that ask for a separator are stated
for the next character, if there is one.
-/

namespace Stylesheet.Yaml

/-- Closed ranges of the characters that a text may hold. -/
def allowedRanges : List (Nat × Nat) := [
  (0x09, 0x0A), (0x0D, 0x0D), (0x20, 0x7E), (0x85, 0x85), (0xA0, 0xD7FF), (0xE000, 0xFFFD),
  (0x10000, 0x10FFFF)]

def isAllowed (c : Char) : Bool :=
  allowedRanges.any fun range => range.1 ≤ c.toNat && c.toNat ≤ range.2

def isBreak (c : Char) : Bool :=
  c == '\n' || c == '\r' || c == '\u0085' || c == '\u2028' || c == '\u2029'

def isSpace (c : Char) : Bool :=
  c == ' ' || c == '\t'

/-- Whether a line ends here. -/
def endsLine : Option Char → Bool
  | none => true
  | some c => isBreak c

/-- Whether a word ends here, where tabs do not end words. -/
def endsWord : Option Char → Bool
  | some ' ' => true
  | next => endsLine next

/-- Whether a word ends here. -/
def isGap : Option Char → Bool
  | some '\t' => true
  | next => endsWord next

/-- Whether a character may stand in the name of an anchor, a handle or a directive. -/
def isWordChar (c : Char) : Bool :=
  c.isAlphanum || c == '-' || c == '_'

def isHexDigit (c : Char) : Bool :=
  c.isDigit || ('a' ≤ c && c ≤ 'f') || ('A' ≤ c && c ≤ 'F')

def hexValue (digits : List Char) : Nat :=
  digits.foldl
    (fun value c =>
      16 * value +
        (if c.isDigit then c.toNat - '0'.toNat else c.toLower.toNat - 'a'.toNat + 10))
    0

/-- The mark that may start a text; it takes no room in its line. -/
def byteOrderMark : Char := '\ufeff'

/-- A place in a text: what is left of it, and how many characters, lines and columns are behind
it. -/
structure Cursor where
  rest : List Char
  index : Nat := 0
  line : Nat := 0
  column : Nat := 0

namespace Cursor

def peek (cursor : Cursor) : Option Char :=
  cursor.rest.head?

def peekAt (cursor : Cursor) (distance : Nat) : Option Char :=
  cursor.rest[distance]?

/-- Move over one character.  A carriage return in front of a line feed does not end a line. -/
def step (cursor : Cursor) : Cursor :=
  match cursor.rest with
  | [] => cursor
  | c :: rest =>
      if isBreak c && !(c == '\r' && rest.head? == some '\n') then
        ⟨rest, cursor.index + 1, cursor.line + 1, 0⟩
      else
        ⟨rest, cursor.index + 1, cursor.line,
          if c == byteOrderMark then cursor.column else cursor.column + 1⟩

def skip : Nat → Cursor → Cursor
  | 0, cursor => cursor
  | count + 1, cursor => cursor.step.skip count

def takeWhile (p : Char → Bool) (cursor : Cursor) : List Char × Cursor :=
  let run := cursor.rest.takeWhile p
  (run, cursor.skip run.length)

def skipWhile (p : Char → Bool) (cursor : Cursor) : Cursor :=
  (cursor.takeWhile p).2

/-- Take a line break.  It counts as a line feed, unless it is a separator of lines or paragraphs,
which stays. -/
def takeBreak? (cursor : Cursor) : Option (Char × Cursor) :=
  match cursor.rest with
  | '\r' :: '\n' :: _ => some ('\n', cursor.skip 2)
  | c :: _ =>
      if c == '\u2028' || c == '\u2029' then some (c, cursor.step)
      else if isBreak c then some ('\n', cursor.step)
      else none
  | [] => none

def skipComment (cursor : Cursor) : Cursor :=
  if cursor.peek == some '#' then cursor.skipWhile (!isBreak ·) else cursor

/-- Whether three characters and a gap stand here. -/
def startsWithMark (mark : List Char) (cursor : Cursor) : Bool :=
  cursor.rest.take 3 == mark && isGap (cursor.peekAt 3)

def atDocumentStart (cursor : Cursor) : Bool :=
  cursor.startsWithMark ['-', '-', '-']

def atDocumentEnd (cursor : Cursor) : Bool :=
  cursor.startsWithMark ['.', '.', '.']

/-- Whether a marker that separates documents stands here. -/
def atDocumentMark (cursor : Cursor) : Bool :=
  cursor.atDocumentStart || cursor.atDocumentEnd

/-- Finish a line that may hold nothing more but a comment. -/
def finishLine? (cursor : Cursor) : Option Cursor :=
  let cursor := (cursor.skipWhile (· == ' ')).skipComment
  if endsLine cursor.peek then
    some (match cursor.takeBreak? with
      | some (_, next) => next
      | none => cursor)
  else none

end Cursor

/-- A line break inside a scalar and the blank lines after it: a single one becomes a space, and of
several the first is dropped.  A separator of lines or paragraphs is kept. -/
def fold (first : Char) (blankLines : List Char) : List Char :=
  if first == '\n' then if blankLines.isEmpty then [' '] else blankLines
  else first :: blankLines

end Stylesheet.Yaml
