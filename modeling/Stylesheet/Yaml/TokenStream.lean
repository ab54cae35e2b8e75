import Stylesheet.Yaml.Token

/-!
# Reading tokens of YAML

Tokens are read one after the other.  A colon makes a key of what stands before it in its line, so
the token that announces the key is put in after the fact: places where a key could start are kept
until the colon comes or cannot come any more.

A text can be wrong behind the point up to which it is needed.  A stream therefore holds the tokens
that are certain, and what is wrong behind them.
-/

namespace Stylesheet.Yaml

/-- A place where a key could start. -/
structure PossibleKey where
  /-- How many tokens come before it. -/
  number : Nat
  /-- Whether a key has to start there, as something starts a line of a block mapping. -/
  required : Bool
  index : Nat
  line : Nat
  column : Nat

/-- How far a text has been read. -/
structure TokenReader where
  cursor : Cursor
  /-- The tokens, last one first. -/
  reversed : List Token := []
  /-- How many brackets and braces are open. -/
  flowDepth : Nat := 0
  /-- The columns at which the open blocks start, innermost first. -/
  indents : List Nat := []
  /-- Whether a key may start here. -/
  keyAllowed : Bool := true
  /-- The places where keys could start, by the number of open brackets and braces. -/
  possibleKeys : List (Nat × PossibleKey) := []

namespace TokenReader

/-- Whether some bracket or brace is open. -/
def inFlow (reader : TokenReader) : Bool :=
  reader.flowDepth != 0

def count (reader : TokenReader) : Nat :=
  reader.reversed.length

/-- The first column inside the innermost block. -/
def contentColumn (reader : TokenReader) : Nat :=
  match reader.indents with
  | [] => 0
  | column :: _ => column + 1

def push (reader : TokenReader) (token : Token) : TokenReader :=
  { reader with reversed := token :: reader.reversed }

def insertAt (reader : TokenReader) (number : Nat) (token : Token) : TokenReader :=
  let later := reader.count - number
  { reader with
    reversed := reader.reversed.take later ++ token :: reader.reversed.drop later }

def moveTo (reader : TokenReader) (cursor : Cursor) : TokenReader :=
  { reader with cursor }

/-- Say whether a key may start behind the last token. -/
def allowKey (reader : TokenReader) (keyAllowed : Bool) : TokenReader :=
  { reader with keyAllowed }

/-- How far behind its start a key can end. -/
def longestKey : Nat := 1024

/-- Whether a colon here can be the one of a possible key: it is in the same line and near. -/
def isFresh (reader : TokenReader) (key : PossibleKey) : Bool :=
  key.line == reader.cursor.line && reader.cursor.index - key.index ≤ longestKey

/-- Drop possible keys; a required one cannot be dropped. -/
def keepKeys (reader : TokenReader) (keep : Nat × PossibleKey → Bool) : Except Fault TokenReader :=
  if reader.possibleKeys.any fun entry => entry.2.required && !keep entry then
    .error .malformed
  else
    .ok { reader with possibleKeys := reader.possibleKeys.filter keep }

/-- Drop the possible keys that are too far behind. -/
def dropStaleKeys (reader : TokenReader) : Except Fault TokenReader :=
  reader.keepKeys fun entry => reader.isFresh entry.2

def dropKey (reader : TokenReader) : Except Fault TokenReader :=
  reader.keepKeys fun entry => entry.1 != reader.flowDepth

/-- Note that a key could start here, if one may. -/
def notePossibleKey (reader : TokenReader) : Except Fault TokenReader :=
  if reader.keyAllowed then do
    let reader ← reader.dropKey
    let cursor := reader.cursor
    let key : PossibleKey :=
      { number := reader.count
        required := !reader.inFlow && reader.indents.head? == some cursor.column
        index := cursor.index
        line := cursor.line
        column := cursor.column }
    .ok { reader with possibleKeys := (reader.flowDepth, key) :: reader.possibleKeys }
  else .ok reader

/-- Close the blocks that start right of a bound; without a bound, all. -/
def closeBlocks (reader : TokenReader) (bound : Option Nat) : TokenReader :=
  if reader.inFlow then reader
  else
    let closing := reader.indents.takeWhile fun column =>
      (bound.map fun bound => decide (bound < column)).getD true
    { reader with
      indents := reader.indents.drop closing.length
      reversed := closing.map (fun _ => .blockEnd) ++ reader.reversed }

/-- Open a block at a column, unless one that starts there is open; the token that announces it
comes behind a number of others. -/
def openBlock (reader : TokenReader) (column : Nat) (number : Nat) (token : Token) : TokenReader :=
  if reader.inFlow || column < reader.contentColumn then reader
  else { reader.insertAt number token with indents := column :: reader.indents }

/-- Move to the next token: over spaces, comments and line breaks.  Outside brackets a key may start
on a new line. -/
def skipToToken : Nat → TokenReader → TokenReader
  | 0, reader => reader
  | fuel + 1, reader =>
      let cursor := reader.cursor.skipSpaces.skipComment
      match cursor.takeBreak? with
      | none => reader.moveTo cursor
      | some (_, next) =>
          skipToToken fuel ((reader.moveTo next).allowKey (reader.keyAllowed || !reader.inFlow))

def takeMark (reader : TokenReader) (length : Nat) (token : Token) : TokenReader :=
  (reader.moveTo (reader.cursor.skip length)).push token

def documentMark (reader : TokenReader) (token : Token) : Except Fault TokenReader := do
  let reader ← (reader.closeBlocks none).dropKey
  .ok ((reader.allowKey false).takeMark 3 token)

def directive (reader : TokenReader) : Except Fault TokenReader := do
  let reader ← (reader.closeBlocks none).dropKey
  let (token, next) ← reader.cursor.takeDirective
  .ok (((reader.allowKey false).moveTo next).push token)

def openFlow (reader : TokenReader) (token : Token) : Except Fault TokenReader := do
  let reader ← reader.notePossibleKey
  .ok ({ reader.allowKey true with flowDepth := reader.flowDepth + 1 }.takeMark 1 token)

def closeFlow (reader : TokenReader) (token : Token) : Except Fault TokenReader := do
  let reader ← reader.dropKey
  match reader.flowDepth with
  | 0 => .error .malformed
  | depth + 1 => .ok ({ reader.allowKey false with flowDepth := depth }.takeMark 1 token)

def flowEntry (reader : TokenReader) : Except Fault TokenReader := do
  let reader ← (reader.allowKey true).dropKey
  .ok (reader.takeMark 1 .flowEntry)

def blockEntry (reader : TokenReader) : Except Fault TokenReader := do
  if !reader.inFlow && !reader.keyAllowed then .error .malformed
  let reader := reader.openBlock reader.cursor.column reader.count .blockSequenceStart
  let reader ← (reader.allowKey true).dropKey
  .ok (reader.takeMark 1 .blockEntry)

/-- Read the question mark of a key. -/
def key (reader : TokenReader) : Except Fault TokenReader := do
  if !reader.inFlow && !reader.keyAllowed then .error .malformed
  let reader := reader.openBlock reader.cursor.column reader.count .blockMappingStart
  let reader ← (reader.allowKey !reader.inFlow).dropKey
  .ok (reader.takeMark 1 .key)

/-- Read the colon of a value.  If a key could start before it, one does. -/
def value (reader : TokenReader) : Except Fault TokenReader :=
  match reader.possibleKeys.lookup reader.flowDepth with
  | some key =>
      let possibleKeys := reader.possibleKeys.filter (·.1 != reader.flowDepth)
      let reader := { reader with possibleKeys }.insertAt key.number .key
      let reader := reader.openBlock key.column key.number .blockMappingStart
      .ok ((reader.allowKey false).takeMark 1 .value)
  | none => do
      if !reader.inFlow && !reader.keyAllowed then .error .malformed
      let reader := reader.openBlock reader.cursor.column reader.count .blockMappingStart
      let reader ← (reader.allowKey !reader.inFlow).dropKey
      .ok (reader.takeMark 1 .value)

/-- Read a token that may be a key or the start of one. -/
def keyPart (reader : TokenReader) (piece : Except Fault (Token × Cursor)) :
    Except Fault TokenReader := do
  let reader ← reader.notePossibleKey
  let (token, next) ← piece
  .ok (((reader.allowKey false).moveTo next).push token)

/-- A piece that is malformed if it cannot be read. -/
def orMalformed {α : Type} (piece : Option (α × Cursor)) (token : α → Token) :
    Except Fault (Token × Cursor) :=
  match piece with
  | some (a, next) => .ok (token a, next)
  | none => .error .malformed

def quoted (cursor : Cursor) (quote : Char) : Except Fault (Token × Cursor) := do
  let (codes, next) ← Quoted.read quote cursor.rest.length cursor.step
  .ok (.scalar (String.ofList (Quoted.ofCodes codes)) false, next)

/-- Read a plain scalar.  If a line ends in it or behind it, a key may start. -/
def plain (reader : TokenReader) : Except Fault TokenReader := do
  let reader ← reader.notePossibleKey
  let cursor := reader.cursor
  let reading := Plain.read reader.inFlow reader.contentColumn cursor.rest.length cursor
  let token := Token.scalar (String.ofList reading.text) true
  .ok (((reader.allowKey reading.newLine).moveTo reading.next).push token)

def block (reader : TokenReader) (folded : Bool) : Except Fault TokenReader := do
  let reader ← (reader.allowKey true).dropKey
  let (text, next) ← Block.read folded reader.contentColumn reader.cursor.step
  .ok ((reader.moveTo next).push (.scalar (String.ofList text) false))

/-- The characters that start no plain scalar, unless they are among the next. -/
def indicators : List Char :=
  ['-', '?', ':', ',', '[', ']', '\x7b', '\x7d', '#', '&', '*', '!', '|', '>', '\'', '"', '%',
    '@', '\x60']

/-- Whether a plain scalar starts here.  Some indicators start one if no gap follows. -/
def startsPlain (reader : TokenReader) : Bool :=
  match reader.cursor.peek with
  | none => false
  | some c =>
      !isGap (some c) && !indicators.contains c
        || !isGap (reader.cursor.peekAt 1)
          && (c == '-' || !reader.inFlow && (c == '?' || c == ':'))

/-- Read the token that starts with a character. -/
def readToken (reader : TokenReader) (c : Char) : Except Fault TokenReader :=
  let cursor := reader.cursor
  let separated := isGap (cursor.peekAt 1)
  let inFlow := reader.inFlow
  if cursor.column == 0 && c == '%' then reader.directive
  else if cursor.column == 0 && cursor.atDocumentStart then reader.documentMark .documentStart
  else if cursor.column == 0 && cursor.atDocumentEnd then reader.documentMark .documentEnd
  else if c == '[' then reader.openFlow .flowSequenceStart
  else if c == '\x7b' then reader.openFlow .flowMappingStart
  else if c == ']' then reader.closeFlow .flowSequenceEnd
  else if c == '\x7d' then reader.closeFlow .flowMappingEnd
  else if c == ',' then reader.flowEntry
  else if c == '-' && separated then reader.blockEntry
  else if c == '?' && (inFlow || separated) then reader.key
  else if c == ':' && (inFlow || separated) then reader.value
  else if c == '*' then reader.keyPart (orMalformed cursor.takeReference? .alias)
  else if c == '&' then reader.keyPart (orMalformed cursor.takeReference? .anchor)
  else if c == '!' then reader.keyPart (orMalformed cursor.takeTag? .tag)
  else if c == '|' && !inFlow then reader.block false
  else if c == '>' && !inFlow then reader.block true
  else if c == '\'' || c == '"' then reader.keyPart (quoted cursor c)
  else if reader.startsPlain then reader.plain
  else .error .malformed

/-- Read the next token, or finish at the end of the text. -/
def next (reader : TokenReader) : Except Fault (TokenReader × Bool) := do
  let reader ← (skipToToken (reader.cursor.rest.length + 1) reader).dropStaleKeys
  let reader := reader.closeBlocks (some reader.cursor.column)
  match reader.cursor.peek with
  | none => do
      let reader ← (reader.closeBlocks none).dropKey
      .ok (reader.push .streamEnd, true)
  | some c => do .ok (← reader.readToken c, false)

/-- The tokens that no later one can change: those before the first possible key. -/
def certain (reader : TokenReader) : List Token :=
  let first := reader.possibleKeys.foldl (fun least entry => min least entry.2.number)
    reader.count
  reader.reversed.reverse.take first

end TokenReader

/-- The tokens of a text, and what follows them. -/
structure TokenStream where
  tokens : List Token
  /-- What is wrong behind the tokens.  Behind the end of a text nothing may be wanted. -/
  failure : Fault := .malformed

namespace TokenStream

/-- Read the tokens that are left; every round takes a character or ends the text. -/
def ofReader : Nat → TokenReader → TokenStream
  | 0, reader => { tokens := reader.certain }
  | fuel + 1, reader =>
      match reader.dropStaleKeys with
      | .error failure => { tokens := reader.certain, failure }
      | .ok reader =>
          match reader.next with
          | .error failure => { tokens := reader.certain, failure }
          | .ok (reader, true) => { tokens := reader.reversed.reverse }
          | .ok (reader, false) => ofReader fuel reader

/-- Read the tokens of a text.  A byte order mark may come first. -/
def ofText (text : List Char) : TokenStream :=
  let start : Cursor := { rest := text }
  let start := if start.peek == some byteOrderMark then start.step else start
  ofReader (text.length + 1) { cursor := start }

end TokenStream

end Stylesheet.Yaml
