import Stylesheet.Yaml.Cursor
import Stylesheet.Yaml.Error

/-!
# Scalars in YAML

The text of a scalar in its four forms: plain, in single or double quotes, and as a block.  Lines
are folded in all forms but the literal block.  Every loop takes at least one character in each
round; its fuel is the length of the text that is left.
-/

namespace Stylesheet.Yaml

namespace Plain

/-- Whether a character ends a plain scalar inside brackets or braces. -/
def isFlowIndicator (c : Char) : Bool :=
  c == ',' || c == '?' || c == '[' || c == ']' || c == '\x7b' || c == '\x7d'

/-- Whether a colon with a given character behind it ends a plain scalar. -/
def endsAtColon (inFlow : Bool) (next : Option Char) : Bool :=
  isGap next || inFlow && (next.map fun c => c != '?' && isFlowIndicator c).getD false

/-- The longest piece of a plain scalar at the front of a text. -/
def piece (inFlow : Bool) : List Char → List Char
  | [] => []
  | c :: rest =>
      if isGap (some c) || c == ':' && endsAtColon inFlow rest.head?
          || inFlow && isFlowIndicator c then []
      else c :: piece inFlow rest

/-- Read blank lines and the indentation after them; nothing if a document marker is met. -/
def blankLines : Nat → Cursor → Option (List Char) × Cursor
  | 0, cursor => (some [], cursor)
  | fuel + 1, cursor =>
      if cursor.peek == some ' ' then blankLines fuel cursor.step
      else match cursor.takeBreak? with
        | none => (some [], cursor)
        | some (c, next) =>
            if next.atDocumentMark then (none, next)
            else
              let (more, last) := blankLines fuel next
              (more.map (c :: ·), last)

/-- What separates two pieces: spaces, or a fold.  It is empty where the scalar ends. -/
structure Gap where
  text : List Char
  next : Cursor
  /-- Whether a line ends in it. -/
  newLine : Bool

def gap (cursor : Cursor) : Gap :=
  let (spaces, after) := cursor.takeWhile (· == ' ')
  match after.takeBreak? with
  | none => ⟨spaces, after, false⟩
  | some (first, next) =>
      if next.atDocumentMark then ⟨[], next, true⟩
      else match blankLines next.rest.length next with
        | (none, last) => ⟨[], last, true⟩
        | (some blank, last) => ⟨fold first blank, last, true⟩

/-- A scalar with the place behind it, and whether that place is on a new line. -/
structure Reading where
  text : List Char
  next : Cursor
  newLine : Bool

/-- Read a plain scalar.  Further lines have to be indented by a number of columns. -/
def read (inFlow : Bool) (indent : Nat) : Nat → Cursor → Reading
  | 0, cursor => ⟨[], cursor, false⟩
  | fuel + 1, cursor =>
      let text := piece inFlow cursor.rest
      let gap := gap (cursor.skip text.length)
      if gap.text.isEmpty || gap.next.peek == some '#'
          || !inFlow && gap.next.column < indent
          || (piece inFlow gap.next.rest).isEmpty then
        ⟨text, gap.next, gap.newLine⟩
      else
        let more := read inFlow indent fuel gap.next
        ⟨text ++ gap.text ++ more.text, more.next, more.newLine⟩

end Plain

namespace Quoted

/-- The characters that an escape with a single letter stands for. -/
def escapes : List (Char × Char) := [
  ('0', '\x00'), ('a', '\x07'), ('b', '\x08'), ('t', '\t'), ('\t', '\t'), ('n', '\n'),
  ('v', '\x0b'), ('f', '\x0c'), ('r', '\r'), ('e', '\x1b'), (' ', ' '), ('"', '"'), ('\\', '\\'),
  ('/', '/'), ('N', '\u0085'), ('_', '\u00a0'), ('L', '\u2028'), ('P', '\u2029')]

/-- How many digits follow the letter of an escape that names a code. -/
def codeLength? : Char → Option Nat
  | 'x' => some 2
  | 'u' => some 4
  | 'U' => some 8
  | _ => none

/-- The code that digits name. -/
def code (digits : List Char) : Except Fault Nat :=
  let value := hexValue digits
  if 0x80000000 ≤ value then .error (.unreadable .escapeTooLong)
  else if 0x10FFFF < value then .error (.unreadable .escapeOutOfRange)
  else .ok value

/-- The characters of codes.  Two surrogates in a pair are one character, and one that stands alone
has no character but the replacement character. -/
def ofCodes : List Nat → List Char
  | [] => []
  | [a] => [if 0xD800 ≤ a ∧ a < 0xE000 then '\ufffd' else Char.ofNat a]
  | a :: b :: rest =>
      if 0xD800 ≤ a ∧ a < 0xDC00 ∧ 0xDC00 ≤ b ∧ b < 0xE000 then
        Char.ofNat (0x10000 + (a - 0xD800) * 0x400 + (b - 0xDC00)) :: ofCodes rest
      else if 0xD800 ≤ a ∧ a < 0xE000 then '\ufffd' :: ofCodes (b :: rest)
      else Char.ofNat a :: ofCodes (b :: rest)

/-- Read blank lines and the white space before the text that follows.  A document marker cannot
stand inside quotes. -/
def blankLines : Nat → Cursor → Except Fault (List Char × Cursor)
  | 0, cursor => .ok ([], cursor)
  | fuel + 1, cursor =>
      if cursor.atDocumentMark then .error .malformed
      else
        let cursor := cursor.skipWhile isSpace
        match cursor.takeBreak? with
        | none => .ok ([], cursor)
        | some (c, next) => do
            let (more, last) ← blankLines fuel next
            .ok (c :: more, last)

def escape (cursor : Cursor) : Except Fault (List Nat × Cursor) :=
  match cursor.peek with
  | none => .error .malformed
  | some letter =>
      match escapes.lookup letter, codeLength? letter with
      | some c, _ => .ok ([c.toNat], cursor.step)
      | none, some count =>
          let digits := cursor.step.rest.take count
          if digits.length = count ∧ digits.all isHexDigit then do
            .ok ([← code digits], cursor.skip (count + 1))
          else .error .malformed
      | none, none =>
          match cursor.takeBreak? with
          | none => .error .malformed
          | some (_, next) => do
              let (blank, last) ← blankLines (next.rest.length + 1) next
              .ok (blank.map Char.toNat, last)

/-- Read white space inside quotes: it stays if it is in one line, and folds otherwise. -/
def spaces (cursor : Cursor) : Except Fault (List Char × Cursor) :=
  let (run, after) := cursor.takeWhile isSpace
  match after.takeBreak? with
  | none => if after.peek.isNone then .error .malformed else .ok (run, after)
  | some (first, next) => do
      let (blank, last) ← blankLines (next.rest.length + 1) next
      .ok (fold first blank, last)

/-- Read the codes of a quoted scalar, up to the closing quote. -/
def read (quote : Char) : Nat → Cursor → Except Fault (List Nat × Cursor)
  | 0, _ => .error .malformed
  | fuel + 1, cursor =>
      match cursor.rest with
      | [] => .error .malformed
      | c :: rest =>
          if c == quote then
            if quote == '\'' && rest.head? == some quote then do
              let (more, last) ← read quote fuel (cursor.skip 2)
              .ok (quote.toNat :: more, last)
            else .ok ([], cursor.step)
          else do
            let (codes, next) ←
              if quote == '"' && c == '\\' then escape cursor.step
              else if isGap (some c) then do
                let (text, next) ← spaces cursor
                .ok (text.map Char.toNat, next)
              else .ok ([c.toNat], cursor.step)
            let (more, last) ← read quote fuel next
            .ok (codes ++ more, last)

end Quoted

namespace Block

inductive Chomping where
  /-- Drop them. -/
  | strip
  /-- Keep one. -/
  | clip
  /-- Keep all. -/
  | keep
deriving DecidableEq, Repr

/-- Take a mark for the line breaks at the end. -/
def takeChomping? (cursor : Cursor) : Option (Chomping × Cursor) :=
  match cursor.peek with
  | some '+' => some (.keep, cursor.step)
  | some '-' => some (.strip, cursor.step)
  | _ => none

def takeIncrement? (cursor : Cursor) : Except Fault (Option Nat × Cursor) :=
  match cursor.peek with
  | some '0' => .error .malformed
  | some c =>
      .ok (if c.isDigit then (some (c.toNat - '0'.toNat), cursor.step) else (none, cursor))
  | none => .ok (none, cursor)

/-- Read the marks of a block scalar, in either order. -/
def header (cursor : Cursor) : Except Fault ((Chomping × Option Nat) × Cursor) :=
  match takeChomping? cursor with
  | some (chomping, next) => do
      let (increment, next) ← takeIncrement? next
      .ok ((chomping, increment), next)
  | none => do
      let (increment, next) ← takeIncrement? cursor
      match increment, takeChomping? next with
      | some _, some (chomping, next) => .ok ((chomping, increment), next)
      | _, _ => .ok ((.clip, increment), next)

def skipIndent (indent : Nat) (cursor : Cursor) : Cursor :=
  let spaces := (cursor.rest.takeWhile (· == ' ')).length
  cursor.skip (min spaces (indent - cursor.column))

def blankLines (indent : Nat) : Nat → Cursor → List Char × Cursor
  | 0, cursor => ([], cursor)
  | fuel + 1, cursor =>
      let cursor := skipIndent indent cursor
      match cursor.takeBreak? with
      | none => ([], cursor)
      | some (c, next) =>
          let (more, last) := blankLines indent fuel next
          (c :: more, last)

/-- Read blank lines of any indentation, and the widest indentation that is met. -/
def leadingLines : Nat → Cursor → (List Char × Nat) × Cursor
  | 0, cursor => (([], 0), cursor)
  | fuel + 1, cursor =>
      let cursor := cursor.skipWhile (· == ' ')
      match cursor.takeBreak? with
      | none => (([], cursor.column), cursor)
      | some (c, next) =>
          let ((more, widest), last) := leadingLines fuel next
          ((c :: more, max cursor.column widest), last)

/-- Whether a line of a scalar starts here. -/
def atLine (indent : Nat) (cursor : Cursor) : Bool :=
  cursor.column == indent && cursor.peek.isSome

/-- Whether a line may be joined to the one before it. -/
def startsWithText (cursor : Cursor) : Bool :=
  !(cursor.peek.map isSpace).getD false

/-- What has been read of a block scalar. -/
structure Reading where
  text : List Char
  /-- The line break that ends the last line, if one does. -/
  final : List Char
  /-- The blank lines after it. -/
  trailing : List Char
  next : Cursor

/-- Read the lines of a block scalar, given the blank lines before them. -/
def lines (folded : Bool) (indent : Nat) : Nat → List Char → Cursor → Reading
  | 0, blank, cursor => ⟨[], [], blank, cursor⟩
  | fuel + 1, blank, cursor =>
      if atLine indent cursor then
        let (line, after) := cursor.takeWhile (!isBreak ·)
        let (final, next) := match after.takeBreak? with
          | some (c, next) => ([c], next)
          | none => ([], after)
        let (blank', next) := blankLines indent (next.rest.length + 1) next
        if atLine indent next then
          let joint :=
            if folded && final == ['\n'] && startsWithText cursor && startsWithText next then
              if blank'.isEmpty then [' '] else []
            else final
          let more := lines folded indent fuel blank' next
          { more with text := blank ++ line ++ joint ++ more.text }
        else ⟨blank ++ line, final, blank', next⟩
      else ⟨[], [], blank, cursor⟩

/-- Read a block scalar, from behind its indicator, given the least indentation. -/
def read (folded : Bool) (least : Nat) (cursor : Cursor) : Except Fault (List Char × Cursor) := do
  let ((chomping, increment), cursor) ← header cursor
  if !endsWord cursor.peek then .error .malformed
  let some cursor := cursor.finishLine? | .error .malformed
  let least := max least 1
  let fuel := cursor.rest.length + 1
  let (indent, blank, first) := match increment with
    | some increment =>
        let indent := least + increment - 1
        let (blank, first) := blankLines indent fuel cursor
        (indent, blank, first)
    | none =>
        let ((blank, widest), first) := leadingLines fuel cursor
        (max least widest, blank, first)
  let reading := lines folded indent fuel blank first
  let ending := match chomping with
    | .strip => []
    | .clip => reading.final
    | .keep => reading.final ++ reading.trailing
  .ok (reading.text ++ ending, reading.next)

end Block

end Stylesheet.Yaml
