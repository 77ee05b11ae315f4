import PluginRegistry.Yaml.Lexeme

/-!
# Texts of scalars

A scalar is plain, quoted, or a block that is told by its indentation. In all three a single line
break within the text counts as a space, in blocks only when they are folded, and further ones count
as they are.
-/

namespace PluginRegistry.Yaml.Scan

/-- What a line break and the breaks after it stand for inside a text. -/
def folded (first breaks : List Char) : List Char :=
  (if first ≠ ['\n'] then first else if breaks.isEmpty then [' '] else []) ++ breaks

/-! ## Plain scalars -/

/-- The character ends a plain scalar, when `next` follows it. -/
def endsPlain (inFlow : Bool) (c next : Char) : Bool :=
  endsWord c || (c = ':' && (endsWord next || inFlow && isFlowMark next)) ||
    (inFlow && (c = '?' || isFlowMark c))

/-- The characters up to the next one that ends a plain scalar. -/
def plainRun (inFlow : Bool) : List Char → List Char
  | [] => []
  | c :: rest =>
    if endsPlain inFlow c (rest.head?.getD '\x00') then [] else c :: plainRun inFlow rest

/-- The further breaks between two lines of a plain scalar, or nothing before a document mark. -/
def plainBreaks : Nat → Scan (Option (List Char))
  | 0 => return some []
  | fuel + 1 => do
    let c ← peek 0
    if c = ' ' then
      skip 1
      plainBreaks fuel
    else if isBreak c then
      let first ← lineBreak
      if (← get).atDocumentMark then return none
      return (← plainBreaks fuel).map (first ++ ·)
    else return some []

/-- What stands between two runs of a plain scalar, and whether a line ended there. It is empty when
nothing may follow. -/
def plainSpaces : Scan (List Char × Bool) := do
  let blanks ← takeWhile (· = ' ')
  if isBreak (← peek 0) then
    let first ← lineBreak
    if (← get).atDocumentMark then return ([], true)
    match ← plainBreaks (← get).rest.length with
    | none => return ([], true)
    | some breaks => return (folded first breaks, true)
  else return (blanks, false)

/-- The rest of a plain scalar, after `spaces`, and whether a line ended behind it. A line of it is
indented by `indent` columns at least. -/
def plainFrom (inFlow : Bool) (indent : Int) :
    Nat → List Char → Bool → Scan (List Char × Bool)
  | 0, _, crossed => return ([], crossed)
  | fuel + 1, spaces, crossed => do
    let c ← get
    let run := if c.peek 0 = '#' then [] else plainRun inFlow c.rest
    if run.isEmpty then return ([], crossed)
    skip run.length
    let (next, crossed) ← plainSpaces
    let c ← get
    if next.isEmpty || c.peek 0 = '#' || (!inFlow && (c.column : Int) < indent) then
      return (spaces ++ run, crossed)
    let (more, crossed) ← plainFrom inFlow indent fuel next crossed
    return (spaces ++ run ++ more, crossed)

/-- A plain scalar, and whether a line ended behind it. -/
def plain (inFlow : Bool) (indent : Int) : Scan (Token × Bool) := do
  let (text, crossed) ← plainFrom inFlow indent ((← get).rest.length + 1) [] false
  return (.scalar (String.ofList text) true, crossed)

/-! ## Quoted scalars -/

/-- The character that a letter stands for after a backslash. -/
def escaped? (c : Char) : Option Nat :=
  match c with
  | '0' => some 0
  | 'a' => some 7
  | 'b' => some 8
  | 't' | '\t' => some 9
  | 'n' => some 10
  | 'v' => some 11
  | 'f' => some 12
  | 'r' => some 13
  | 'e' => some 0x1b
  | ' ' | '\x22' | '\x5c' | '/' => some c.toNat
  | 'N' => some 0x85
  | '_' => some 0xa0
  | 'L' => some 0x2028
  | 'P' => some 0x2029
  | _ => none

/-- How many hexadecimal digits follow a letter after a backslash. -/
def escapeLength? (c : Char) : Option Nat :=
  match c with
  | 'x' => some 2
  | 'u' => some 4
  | 'U' => some 8
  | _ => none

/-- The breaks between two lines of a quoted scalar. -/
def quotedBreaks : Nat → Scan (List Nat)
  | 0 => return []
  | fuel + 1 => do
    if (← get).atDocumentMark then throw .quotedScalar
    skipWhile fun c => c = ' ' || c = '\t'
    if isBreak (← peek 0) then
      let first ← lineBreak
      return first.map Char.toNat ++ (← quotedBreaks fuel)
    else return []

/-- A character that stands for itself in either kind of quoted scalar. -/
def isOrdinary (c : Char) : Bool :=
  !(c = '\x27' || c = '\x22' || c = '\x5c' || endsWord c)

/-- The text up to the next blank, break or closing quote. -/
def quotedWord (double : Bool) : Nat → Scan (List Nat)
  | 0 => return []
  | fuel + 1 => do
    let run ← takeWhile isOrdinary
    let c ← peek 0
    let piece? ← (do
      if !double ∧ c = '\x27' ∧ (← peek 1) = '\x27' then
        skip 2
        return some [c.toNat]
      else if (double ∧ c = '\x27') ∨ (!double ∧ (c = '\x22' ∨ c = '\x5c')) then
        skip 1
        return some [c.toNat]
      else if double ∧ c = '\x5c' then
        skip 1
        let letter ← peek 0
        match escaped? letter, escapeLength? letter with
        | some code, _ =>
          skip 1
          return some [code]
        | none, some n =>
          skip 1
          let digits := (← get).rest.take n
          let some code := Text.hexValue? digits | throw .escape
          if digits.length < n then throw .escape
          if 0x110000 ≤ code then throw .codePoint
          skip n
          return some [code]
        | none, none =>
          if isBreak letter then
            let _ ← lineBreak
            return some (← quotedBreaks (← get).rest.length.succ)
          else throw .escape
      else return none : Scan (Option (List Nat)))
    match piece? with
    | some piece => return run.map Char.toNat ++ piece ++ (← quotedWord double fuel)
    | none => return run.map Char.toNat

/-- What stands between two words of a quoted scalar. -/
def quotedSpaces : Scan (List Nat) := do
  let blanks ← takeWhile fun c => c = ' ' || c = '\t'
  let c ← peek 0
  if c = '\x00' then throw .quotedScalar
  if isBreak c then
    let first ← lineBreak
    let breaks ← quotedBreaks (← get).rest.length.succ
    let lead := if first ≠ ['\n'] then first else if breaks.isEmpty then [' '] else []
    return lead.map Char.toNat ++ breaks
  else return blanks.map Char.toNat

/-- The rest of a quoted scalar, after a word of it. -/
def quotedFrom (double : Bool) : Nat → Scan (List Nat)
  | 0 => throw .quotedScalar
  | fuel + 1 => do
    if (← peek 0) = (if double then '\x22' else '\x27') then return []
    let spaces ← quotedSpaces
    let word ← quotedWord double (← get).rest.length.succ
    return spaces ++ word ++ (← quotedFrom double fuel)

/-- A scalar between single or double quotes. -/
def quoted (double : Bool) : Scan Token := do
  skip 1
  let word ← quotedWord double (← get).rest.length.succ
  let more ← quotedFrom double (← get).rest.length.succ
  skip 1
  return .scalar (String.ofList (Text.joinUnits (word ++ more))) false

/-! ## Block scalars -/

/-- What becomes of the line breaks at the end of a block: only the last, none, or all. -/
inductive Chomping where
  | clip
  | strip
  | keep
  deriving DecidableEq

/-- The mark for chomping, if one is next. -/
def chomping? : Scan (Option Chomping) := do
  let c ← peek 0
  if c = '+' then
    skip 1
    return some .keep
  else if c = '-' then
    skip 1
    return some .strip
  else return none

/-- The number of columns, if a digit is next. It is not zero. -/
def indentation? : Scan (Option Nat) := do
  let c ← peek 0
  if c.isDigit then
    if c = '0' then throw .blockScalar
    skip 1
    return some (c.toNat - '0'.toNat)
  else return none

/-- The marks after the start of a block, in either order. -/
def blockMarks : Scan (Chomping × Option Nat) := do
  let first ← chomping?
  let columns ← indentation?
  let chomping ← if first.isNone && columns.isSome then chomping? else pure first
  require .blockScalar endsItem
  return (chomping.getD .clip, columns)

/-- The empty lines before the first line of a block, and the widest indentation among them. -/
def blockLead : Nat → Nat → Scan (List Char × Nat)
  | 0, widest => return ([], widest)
  | fuel + 1, widest => do
    let c ← peek 0
    if isBreak c then
      let first ← lineBreak
      let (more, widest) ← blockLead fuel widest
      return (first ++ more, widest)
    else if c = ' ' then
      skip 1
      blockLead fuel (max widest (← get).column)
    else return ([], widest)

/-- Passes over the indentation of a line, up to `indent` columns. -/
def blockIndent (indent : Nat) : Scan Unit := do
  let c ← get
  skip (c.rest.take (indent - c.column) |>.takeWhile (· = ' ')).length

/-- The empty lines before the next line of a block. -/
def blockBreaks (indent : Nat) : Nat → Scan (List Char)
  | 0 => return []
  | fuel + 1 => do
    blockIndent indent
    if isBreak (← peek 0) then
      let first ← lineBreak
      return first ++ (← blockBreaks indent fuel)
    else return []

/-- The lines of a block from here on, after the empty lines `breaks`: its text, the break that ends
its last line, and the empty lines after it. -/
def blockLines (fold : Bool) (indent : Nat) :
    Nat → List Char → List Char → Scan (List Char × List Char × List Char)
  | 0, last, breaks => return ([], last, breaks)
  | fuel + 1, last, breaks => do
    let c ← get
    if c.column ≠ indent ∨ c.peek 0 = '\x00' then return ([], last, breaks)
    let isBlankStart := fun (c : Char) => c = ' ' || c = '\t'
    let line ← takeWhile (!endsLine ·)
    let last ← lineBreak
    let next ← blockBreaks indent (← get).rest.length.succ
    let after ← get
    if after.column = indent ∧ after.peek 0 ≠ '\x00' then
      let join :=
        if fold && last = ['\n'] && !isBlankStart (c.peek 0) && !isBlankStart (after.peek 0) then
          if next.isEmpty then [' '] else []
        else last
      let (more, last, next) ← blockLines fold indent fuel last next
      return (breaks ++ line ++ join ++ more, last, next)
    else return (breaks ++ line, last, next)

/-- A block scalar inside a collection that is indented by `parent` columns, or by -1 when there is
none. -/
def block (fold : Bool) (parent : Int) : Scan Token := do
  skip 1
  let (chomping, columns) ← blockMarks
  restOfLine .blockScalar
  let least := (max (parent + 1) 1).toNat
  let fuel := (← get).rest.length.succ
  let (indent, breaks) ←
    match columns with
    | none => do
      let (breaks, widest) ← blockLead fuel 0
      pure (max least widest, breaks)
    | some n => do
      let indent := least + n - 1
      pure (indent, ← blockBreaks indent fuel)
  let (text, last, breaks) ← blockLines fold indent fuel [] breaks
  let ending :=
    match chomping with
    | .clip => last
    | .strip => []
    | .keep => last ++ breaks
  return .scalar (String.ofList (text ++ ending)) false

end PluginRegistry.Yaml.Scan
