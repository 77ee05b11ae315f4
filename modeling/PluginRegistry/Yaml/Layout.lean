import PluginRegistry.Yaml.ScalarText

/-!
# From text to tokens

Outside of flow collections the indentation of a line opens and closes block collections. A key
needs no mark of its own: whatever may be one is remembered with its place, and when a colon follows
on the same line, the key mark is put in front of it. Until that is settled the tokens from that
place on are held back; so when the text turns out to be wrong, only the tokens before the earliest
place that is still open have been given out.
-/

namespace PluginRegistry.Yaml

/-- A place where a key may have started: the number of its first token, the place, and whether it
has to be a key because it stands where keys of the open block stand. -/
structure OpenKey where
  token : Nat
  required : Bool
  index : Nat
  line : Nat
  column : Nat

/-- How far a text was read. The tokens are kept with the last one in front, and the possible keys
with the depth of flow collections they were met at. -/
structure Layout where
  cursor : Cursor
  tokens : List Token
  depth : Int
  indent : Int
  indents : List Int
  mayStartKey : Bool
  openKeys : List (Int × OpenKey)
  finished : Bool

namespace Layout

/-- The start of a text. -/
def start (text : List Char) : Layout :=
  ⟨.start text, [], 0, -1, [], true, [], false⟩

/-- Inside a flow collection. -/
def inFlow (s : Layout) : Bool := s.depth ≠ 0

/-- Adds a token. -/
def push (token : Token) (s : Layout) : Layout := { s with tokens := token :: s.tokens }

/-- Puts a token in front of the one with that number. -/
def insert (number : Nat) (token : Token) (s : Layout) : Layout :=
  let after := s.tokens.length - number
  { s with tokens := s.tokens.take after ++ token :: s.tokens.drop after }

/-- Passes over `n` characters. -/
def skip (n : Nat) (s : Layout) : Layout := { s with cursor := s.cursor.advanceBy n }

/-- The tokens that can be given out. -/
def released (s : Layout) : List Token :=
  let held := s.openKeys.foldl (fun least key => min least key.2.token) s.tokens.length
  (s.tokens.reverse).take held

/-- Forgets the possible keys that a colon here would come too late for. -/
def dropStale (s : Layout) : Except TokenFault Layout :=
  let stale := fun (key : Int × OpenKey) =>
    key.2.line ≠ s.cursor.line ∨ 1024 < s.cursor.index - key.2.index
  if s.openKeys.any fun key => stale key && key.2.required then throw .keyWithoutValue
  else return { s with openKeys := s.openKeys.filter fun key => !stale key }

/-- Forgets the possible key of this depth. -/
def dropKey (s : Layout) : Except TokenFault Layout :=
  match s.openKeys.lookup s.depth with
  | some key =>
    if key.required then throw .keyWithoutValue
    else return { s with openKeys := s.openKeys.filter (·.1 ≠ s.depth) }
  | none => return s

/-- Remembers that a key may start here. -/
def saveKey (s : Layout) : Except TokenFault Layout := do
  let required := !s.inFlow && s.indent = s.cursor.column
  if s.mayStartKey then
    let s ← s.dropKey
    let key : OpenKey :=
      ⟨s.tokens.length, required, s.cursor.index, s.cursor.line, s.cursor.column⟩
    return { s with openKeys := s.openKeys ++ [(s.depth, key)] }
  else return s

/-- Closes the blocks that are indented further than the column. -/
def unwind (column : Int) (s : Layout) : Layout :=
  if s.inFlow then s
  else
    let closed := (s.indent :: s.indents).takeWhile (column < ·)
    let rest := (s.indent :: s.indents).drop closed.length
    { s with
      indent := rest.head?.getD (-1)
      indents := rest.tail
      tokens := closed.map (fun _ => .blockEnd) ++ s.tokens }

/-- Opens a block at the column, if it is indented further than the one that is open. -/
def indentTo (column : Nat) (s : Layout) : Option Layout :=
  if s.indent < column then some { s with indents := s.indent :: s.indents, indent := column }
  else none

/-- Passes over blanks, comments and line breaks. A key may start on the next line of a block. -/
def skipBlank : Nat → Layout → Layout
  | 0, s => s
  | fuel + 1, s =>
    let blanks := s.cursor.rest.takeWhile (· = ' ')
    let s := s.skip blanks.length
    let comment :=
      if s.cursor.peek 0 = '#' then s.cursor.rest.takeWhile (!endsLine ·) else []
    let s := s.skip comment.length
    let c := s.cursor.peek 0
    if isBreak c then
      let s := s.skip (if c = '\r' ∧ s.cursor.peek 1 = '\n' then 2 else 1)
      skipBlank fuel (if s.inFlow then s else { s with mayStartKey := true })
    else s

/-- Reads a token from its first character on. -/
def read {α : Type} (scan : Scan α) (s : Layout) : Except TokenFault (α × Layout) := do
  let (value, cursor) ← scan.run s.cursor
  return (value, { s with cursor })

/-- A line that belongs to no document: a directive or a document mark. -/
def betweenDocuments (s : Layout) : Except TokenFault Layout := do
  let s ← (s.unwind (-1)).dropKey
  return { s with mayStartKey := false }

/-- A word or scalar, which may be a key. -/
def word (scan : Scan Token) (s : Layout) : Except TokenFault Layout := do
  let s ← s.saveKey
  let (token, s) ← s.read scan
  return { s with mayStartKey := false }.push token

/-- The hyphen of a sequence's entry. -/
def blockEntry (s : Layout) : Except TokenFault Layout := do
  let s ←
    if s.inFlow then pure s
    else if !s.mayStartKey then throw .entryPlace
    else pure (((s.indentTo s.cursor.column).map (push .blockSequenceStart)).getD s)
  let s ← { s with mayStartKey := true }.dropKey
  return (s.skip 1).push .blockEntry

/-- The question mark of a key. -/
def key (s : Layout) : Except TokenFault Layout := do
  let s ←
    if s.inFlow then pure s
    else if !s.mayStartKey then throw .keyPlace
    else pure (((s.indentTo s.cursor.column).map (push .blockMappingStart)).getD s)
  let s ← { s with mayStartKey := !s.inFlow }.dropKey
  return (s.skip 1).push .key

/-- The colon of a value. If a key may have started on this line, it has. -/
def value (s : Layout) : Except TokenFault Layout := do
  match s.openKeys.lookup s.depth with
  | some start =>
    let s := { s with openKeys := s.openKeys.filter (·.1 ≠ s.depth), mayStartKey := false }
    let s := s.insert start.token .key
    let s :=
      if s.inFlow then s
      else ((s.indentTo start.column).map (insert start.token .blockMappingStart)).getD s
    return (s.skip 1).push .value
  | none =>
    let s ←
      if s.inFlow then pure s
      else if !s.mayStartKey then throw .valuePlace
      else pure (((s.indentTo s.cursor.column).map (push .blockMappingStart)).getD s)
    let s ← { s with mayStartKey := !s.inFlow }.dropKey
    return (s.skip 1).push .value

/-- The bracket or brace that opens a flow collection. -/
def openFlow (token : Token) (s : Layout) : Except TokenFault Layout := do
  let s ← s.saveKey
  return ({ s with depth := s.depth + 1, mayStartKey := true }.skip 1).push token

/-- The bracket or brace that closes a flow collection. -/
def closeFlow (token : Token) (s : Layout) : Except TokenFault Layout := do
  let s ← s.dropKey
  return ({ s with depth := s.depth - 1, mayStartKey := false }.skip 1).push token

/-- A character that starts a plain scalar, when `next` follows it. -/
def startsPlain (inFlow : Bool) (c next : Char) : Bool :=
  !(endsWord c || "-?:,[]\x7b\x7d#&*!|>'\x22%@\x60".toList.contains c) ||
    (!endsWord next && (c = '-' || (!inFlow && (c = '?' || c = ':'))))

/-- Reads the next token, with those that the indentation adds before it. -/
def next (s : Layout) : Except TokenFault Layout := do
  let s := s.skipBlank (s.cursor.rest.length + 1)
  let s ← s.dropStale
  let s := s.unwind s.cursor.column
  let c := s.cursor.peek 0
  let after := s.cursor.peek 1
  let starts := fun mark => s.cursor.column = 0 && s.cursor.atMark mark
  if c = '\x00' then
    let s ← s.betweenDocuments
    return { s with finished := true, openKeys := [] }.push .streamEnd
  else if c = '%' ∧ s.cursor.column = 0 then
    let s ← s.betweenDocuments
    let (directive, s) ← s.read Scan.directive
    return s.push (.directive directive)
  else if starts '-' then return ((← s.betweenDocuments).skip 3).push .documentStart
  else if starts '.' then return ((← s.betweenDocuments).skip 3).push .documentEnd
  else if c = '[' then s.openFlow .flowSequenceStart
  else if c = '\x7b' then s.openFlow .flowMappingStart
  else if c = ']' then s.closeFlow .flowSequenceEnd
  else if c = '\x7d' then s.closeFlow .flowMappingEnd
  else if c = ',' then return ((← { s with mayStartKey := true }.dropKey).skip 1).push .flowEntry
  else if c = '-' ∧ endsWord after then s.blockEntry
  else if c = '?' ∧ (s.inFlow ∨ endsWord after) then s.key
  else if c = ':' ∧ (s.inFlow ∨ endsWord after) then s.value
  else if c = '*' then s.word (return .reference (← Scan.anchorName .reference))
  else if c = '&' then s.word (return .anchor (← Scan.anchorName .anchor))
  else if c = '!' then s.word Scan.tag
  else if (c = '|' ∨ c = '>') ∧ !s.inFlow then
    let s ← { s with mayStartKey := true }.dropKey
    let (token, s) ← s.read (Scan.block (c = '>') s.indent)
    return s.push token
  else if c = '\x27' then s.word (Scan.quoted false)
  else if c = '\x22' then s.word (Scan.quoted true)
  else if startsPlain s.inFlow c after then
    let s ← s.saveKey
    let ((token, crossed), s) ← s.read (Scan.plain s.inFlow (s.indent + 1))
    return { s with mayStartKey := crossed }.push token
  else throw .noToken

/-- Reads on to the end of the text or to the first fault. -/
def finish : Nat → Layout → List Token × Option TokenFault
  | 0, s => (s.released, none)
  | fuel + 1, s =>
    if s.finished then (s.released, none)
    else
      match s.dropStale with
      | .error fault => (s.released, some fault)
      | .ok s =>
        match s.next with
        | .error fault => (s.released, some fault)
        | .ok s => finish fuel s

end Layout

/-- The tokens of a text; where the text goes wrong, those that come before it and the fault. Every
token but the last takes a character. -/
def Token.ofText (text : List Char) : List Token × Option TokenFault :=
  let text := if text.head? = some '\ufeff' then text.drop 1 else text
  (Layout.start text).finish (text.length + 2)

end PluginRegistry.Yaml
