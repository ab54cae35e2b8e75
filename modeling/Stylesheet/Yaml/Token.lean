import Stylesheet.Yaml.Scalar

/-!
# Tokens of YAML

The pieces that a text is read as.  Besides the marks that are written there are tokens for the
structure that indentation shows.
-/

namespace Stylesheet.Yaml

/-- How a tag is written: with a handle that a directive can explain, or in full. -/
structure WrittenTag where
  handle : Option String
  suffix : String
deriving DecidableEq, Repr

inductive Token where
  /-- The version that a document is written for. -/
  | version (major : Nat)
  /-- What a handle of tags stands for. -/
  | tagHandle (handle meaning : String)
  /-- A directive without a meaning. -/
  | otherDirective
  | documentStart
  | documentEnd
  | streamEnd
  | blockSequenceStart
  | blockMappingStart
  | blockEnd
  | flowSequenceStart
  | flowSequenceEnd
  | flowMappingStart
  | flowMappingEnd
  | blockEntry
  | flowEntry
  | key
  | value
  | anchor (name : String)
  | alias (name : String)
  | tag (written : WrittenTag)
  /-- A scalar, and whether it is plain. -/
  | scalar (text : String) (plain : Bool)
deriving DecidableEq, Repr

namespace Cursor

/-- Take a word of letters, digits, hyphens and underscores. -/
def takeWord? (cursor : Cursor) : Option (String × Cursor) :=
  match cursor.takeWhile isWordChar with
  | ([], _) => none
  | (word, next) => some (String.ofList word, next)

/-- The punctuation that may stand in a tag. -/
def tagPunctuation : List Char :=
  ['-', ';', '/', '?', ':', '@', '&', '=', '+', '$', ',', '_', '.', '!', '~', '*', '\'', '(', ')',
    '[', ']']

def isTagChar (c : Char) : Bool :=
  c.isAlphanum || tagPunctuation.contains c

/-- Take bytes that are written as percent signs with two hexadecimal digits each. -/
def takeBytes? : Nat → Cursor → Option (List UInt8 × Cursor)
  | 0, cursor => some ([], cursor)
  | fuel + 1, cursor =>
      match cursor.rest with
      | '%' :: high :: low :: _ =>
          if isHexDigit high && isHexDigit low then do
            let (more, next) ← takeBytes? fuel (cursor.skip 3)
            some ((hexValue [high, low]).toUInt8 :: more, next)
          else none
      | '%' :: _ => none
      | _ => some ([], cursor)

def takeTagChars? : Nat → Cursor → Option (List Char × Cursor)
  | 0, cursor => some ([], cursor)
  | fuel + 1, cursor =>
      match cursor.peek with
      | some '%' => do
          let (bytes, next) ← takeBytes? cursor.rest.length cursor
          let text ← String.fromUTF8? ⟨bytes.toArray⟩
          let (more, next) ← takeTagChars? fuel next
          some (text.toList ++ more, next)
      | some c =>
          if isTagChar c then do
            let (more, next) ← takeTagChars? fuel cursor.step
            some (c :: more, next)
          else some ([], cursor)
      | none => some ([], cursor)

def takeTagText? (cursor : Cursor) : Option (String × Cursor) := do
  let (text, next) ← takeTagChars? cursor.rest.length cursor
  if next.index == cursor.index then none
  some (String.ofList text, next)

/-- Take a handle: an exclamation mark, or a word between two. -/
def takeHandle? (cursor : Cursor) : Option (String × Cursor) :=
  match cursor.rest with
  | '!' :: rest =>
      let word := rest.takeWhile isWordChar
      match rest.drop word.length with
      | '!' :: _ => some (String.ofList ('!' :: word ++ ['!']), cursor.skip (word.length + 2))
      | next =>
          if word.isEmpty && next.head? == some ' ' then some ("!", cursor.step) else none
  | _ => none

/-- Whether a second exclamation mark stands in the word at the front of a text. -/
def hasHandle (text : List Char) : Bool :=
  (text.takeWhile fun c => !endsWord (some c)).contains '!'

/-- Take a tag, from its exclamation mark on. -/
def takeTag? (cursor : Cursor) : Option (WrittenTag × Cursor) := do
  let (written, next) ← match cursor.step.peek with
    | some '<' => do
        let (suffix, next) ← (cursor.skip 2).takeTagText?
        if next.peek != some '>' then none
        some (WrittenTag.mk none suffix, next.step)
    | follower =>
        if isGap follower then
          some (WrittenTag.mk none "!", cursor.step)
        else do
          let (handle, next) ←
            if hasHandle cursor.step.rest then cursor.takeHandle? else some ("!", cursor.step)
          let (suffix, next) ← next.takeTagText?
          some (WrittenTag.mk (some handle) suffix, next)
  if !endsWord next.peek then none
  some (written, next)

/-- Take the name of an anchor or of an alias, from its mark on. -/
def takeReference? (cursor : Cursor) : Option (String × Cursor) := do
  let (name, next) ← cursor.step.takeWord?
  let closes := match next.peek with
    | some c => ['?', ':', ',', ']', '\x7d', '%', '@', '\x60'].contains c
    | none => true
  if !(closes || isGap next.peek) then none
  some (name, next)

/-- Take a number, which may not be too long. -/
def takeNumber (cursor : Cursor) : Except Fault (Nat × Cursor) :=
  match cursor.takeWhile Char.isDigit with
  | ([], _) => .error .malformed
  | (digits, next) =>
      if Decimal.longestInteger < digits.length then .error (.unreadable .versionTooLong)
      else .ok (digits.foldl (fun value c => 10 * value + (c.toNat - '0'.toNat)) 0, next)

def skipSpaces (cursor : Cursor) : Cursor :=
  cursor.skipWhile (· == ' ')

def takeVersion (cursor : Cursor) : Except Fault (Token × Cursor) := do
  let (major, next) ← cursor.skipSpaces.takeNumber
  if next.peek != some '.' then .error .malformed
  else
    let (_, next) ← next.step.takeNumber
    if endsWord next.peek then .ok (.version major, next) else .error .malformed

/-- Take the meaning of a handle. -/
def takeTagHandle? (cursor : Cursor) : Option (Token × Cursor) := do
  let (handle, next) ← cursor.skipSpaces.takeHandle?
  if next.peek != some ' ' then none
  let (meaning, next) ← next.skipSpaces.takeTagText?
  if !endsWord next.peek then none
  some (.tagHandle handle meaning, next)

/-- Take what a directive says. -/
def takeMeaning (directive : String) (cursor : Cursor) : Except Fault (Token × Cursor) :=
  match directive with
  | "YAML" => cursor.takeVersion
  | "TAG" => match cursor.takeTagHandle? with
    | some meaning => .ok meaning
    | none => .error .malformed
  | _ => .ok (.otherDirective, cursor.skipWhile (!isBreak ·))

def takeDirective (cursor : Cursor) : Except Fault (Token × Cursor) := do
  let some (directive, next) := cursor.step.takeWord? | .error .malformed
  if endsWord next.peek then
    let (meaning, next) ← next.takeMeaning directive
    let some next := next.finishLine? | .error .malformed
    .ok (meaning, next)
  else .error .malformed

end Cursor

end Stylesheet.Yaml
