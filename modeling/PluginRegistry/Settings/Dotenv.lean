import PluginRegistry.Text.Blank
import PluginRegistry.Text.Units

/-!
# Files of variables

Each statement of such a file binds a name to a value: `NAME=value`, with `export` before it if one
likes. A value may be quoted; without quotes it ends before a comment. A name alone is bound to
nothing. A value may refer to other variables, those of the environment and those bound before. A
statement that cannot be read is passed over with the rest of its line.
-/

namespace PluginRegistry.Dotenv

/-- A binding, or the line of a statement that could not be read. -/
inductive Statement where
  | binding (name : String) (value : Option String)
  | unreadable (line : Nat)

/-- The end of a line. -/
def isLineEnd (c : Char) : Bool := c = '\n' || c = '\r'

/-- A blank inside a line. -/
def isSpace (c : Char) : Bool := Text.isBlank c && !isLineEnd c

/-- The text without the blanks of a line at its start. -/
def skipSpace (cs : List Char) : List Char := cs.dropWhile isSpace

/-- The text after the word `export` and the blanks behind it, if it starts with them. -/
def skipExport (cs : List Char) : List Char :=
  if "export".toList.isPrefixOf cs ∧ (cs.drop 6).head?.any isSpace then skipSpace (cs.drop 6)
  else cs

/-- The name at the start of a statement, which a comment has not. -/
def name? (cs : List Char) : Option (Option (List Char) × List Char) :=
  match cs with
  | '#' :: _ => some (none, cs)
  | '\x27' :: rest =>
    let name := rest.takeWhile (· ≠ '\x27')
    match rest.drop name.length with
    | _ :: after => if name.isEmpty then none else some (some name, after)
    | [] => none
  | _ =>
    let name := cs.takeWhile fun c => !(c = '=' || c = '#' || Text.isBlank c)
    if name.isEmpty then none else some (some name, cs.drop name.length)

/-- The text up to the quote that closes it, and what follows. A backslash belongs to the text
together with the character after it, whatever that is. -/
def quoted? (mark : Char) : List Char → Option (List Char × List Char)
  | [] => none
  | '\x5c' :: c :: rest =>
    (quoted? mark rest).map fun found => ('\x5c' :: c :: found.1, found.2)
  | c :: rest =>
    if c = mark then some ([], rest)
    else (quoted? mark rest).map fun found => (c :: found.1, found.2)

/-- The character that a letter stands for after a backslash between double quotes. -/
def escaped? (c : Char) : Option Char :=
  match c with
  | '\x5c' | '\x27' | '\x22' => some c
  | 'a' => some '\x07'
  | 'b' => some '\x08'
  | 'f' => some '\x0c'
  | 'n' => some '\n'
  | 'r' => some '\r'
  | 't' => some '\t'
  | 'v' => some '\x0b'
  | _ => none

/-- The text with its escapes resolved; between single quotes there are two only. -/
def unescape (double : Bool) : List Char → List Char
  | '\x5c' :: c :: rest =>
    let plain := c = '\x5c' ∨ c = '\x27'
    match escaped? c with
    | some e =>
      if double ∨ plain then e :: unescape double rest
      else '\x5c' :: unescape double (c :: rest)
    | none => '\x5c' :: unescape double (c :: rest)
  | c :: rest => c :: unescape double rest
  | [] => []

/-- The text up to a comment, which has a blank before it. -/
def beforeComment : List Char → List Char
  | [] => []
  | c :: rest =>
    if Text.isBlank c ∧ (rest.dropWhile Text.isBlank).head? = some '#' then []
    else c :: beforeComment rest

/-- The value after the equals sign, and what follows. Blanks stand before it or not; a comment
needs them. -/
def value? (cs : List Char) : Option (List Char × List Char) :=
  let start := skipSpace cs
  match start with
  | [] => some ([], [])
  | c :: rest =>
    if c = '\x27' ∨ c = '\x22' then
      (quoted? c rest).map fun found => (unescape (c = '\x22') found.1, found.2)
    else
      let line := cs.takeWhile (!isLineEnd ·)
      let value := Text.trimEnd (beforeComment line)
      some (skipSpace value, cs.drop line.length)

/-- The text after one line end, if it starts with one. -/
def skipLineEnd : List Char → List Char
  | '\r' :: '\n' :: rest => rest
  | c :: rest => if isLineEnd c then rest else c :: rest
  | [] => []

/-- The text after the end of a statement: blanks, a comment, and the end of the line. -/
def statementEnd? (cs : List Char) : Option (List Char) :=
  let rest := skipSpace cs
  let rest := if rest.head? = some '#' then rest.dropWhile (!isLineEnd ·) else rest
  let rest := skipSpace rest
  if rest.isEmpty ∨ rest.head?.any isLineEnd then some (skipLineEnd rest) else none

/-- What was read of a statement up to where it could not be read any further. -/
abbrev Attempt := Except (List Char) (Option (List Char × Option (List Char)) × List Char)

/-- One statement, after the blanks before it. -/
def statement (cs : List Char) : Attempt := do
  let cs := skipExport cs
  let some (name, cs) := name? cs | throw cs
  let cs := skipSpace cs
  let (value, cs) ←
    match cs with
    | '=' :: rest =>
      match value? rest with
      | some (value, cs) => pure (some value, cs)
      | none => throw (skipSpace rest)
    | _ => pure (none, cs)
  let some rest := statementEnd? cs | throw cs
  return (name.map (·, value), rest)

/-- How many line ends a text has. -/
def lineEnds : List Char → Nat
  | '\r' :: '\n' :: rest => lineEnds rest + 1
  | c :: rest => lineEnds rest + if isLineEnd c then 1 else 0
  | [] => 0

/-- The statements of a text that starts on the given line. -/
def statementsFrom : Nat → Nat → List Char → List Statement
  | 0, _, _ => []
  | fuel + 1, line, cs =>
    if cs.isEmpty then []
    else
      let start := cs.dropWhile Text.isBlank
      if start.isEmpty then []
      else
        let next := fun (rest : List Char) =>
          statementsFrom fuel (line + lineEnds (cs.take (cs.length - rest.length))) rest
        match statement start with
        | .ok (some (name, value), rest) =>
          .binding (String.ofList name) (value.map String.ofList) :: next rest
        | .ok (none, rest) => next rest
        | .error stopped =>
          .unreadable line :: next (skipLineEnd (stopped.dropWhile (!isLineEnd ·)))

/-- The statements of a text. Each takes a character at least. -/
def statements (text : String) : List Statement :=
  statementsFrom (text.length + 1) 1 text.toList

/-! ## References to variables -/

/-- The value of a variable: the one bound last, else that of the environment. -/
def valueOf? (environment : List (String × String)) (bound : List (String × Option String))
    (name : String) : Option String :=
  match bound.lookup name with
  | some value => some (value.getD "")
  | none => environment.lookup name

/-- A reference after its dollar sign: the name, what stands in for a variable that is not there,
and the rest of the text. -/
def reference? (cs : List Char) : Option (String × String × List Char) :=
  match cs with
  | '\x7b' :: rest =>
    let name := rest.takeWhile fun c => !(c = '\x7d' || c = ':')
    match rest.drop name.length with
    | '\x7d' :: after => some (String.ofList name, "", after)
    | ':' :: '-' :: rest =>
      let usual := rest.takeWhile (· ≠ '\x7d')
      match rest.drop usual.length with
      | _ :: after => some (String.ofList name, String.ofList usual, after)
      | [] => none
    | _ => none
  | _ => none

/-- The text with its references replaced. -/
def expand (value : String → Option String) : Nat → List Char → List Char
  | 0, _ => []
  | _, [] => []
  | fuel + 1, c :: rest =>
    if c = '$' then
      match reference? rest with
      | some (name, usual, after) =>
        ((value name).getD usual).toList ++ expand value fuel after
      | none => c :: expand value fuel rest
    else c :: expand value fuel rest

/-- The names of the variables that a text refers to. -/
def references : List Char → List String
  | [] => []
  | c :: rest =>
    match if c = '$' then reference? rest else none with
    | some (name, _, _) => name :: references rest
    | none => references rest

/-- Binds the names one after the other. A name that is bound again keeps its place. -/
def bindAll (environment : List (String × String)) :
    List Statement → List (String × Option String) → List (String × Option String)
  | [], bound => bound
  | .unreadable _ :: rest, bound => bindAll environment rest bound
  | .binding name value :: rest, bound =>
    let value := value.map fun text =>
      String.ofList
        (expand (valueOf? environment bound) (text.length + 1) text.toList)
    bindAll environment rest
      (if bound.any (·.1 = name) then
        bound.map fun entry => if entry.1 = name then (name, value) else entry
      else bound ++ [(name, value)])

/-- The variables that a text binds, in an environment. -/
def bindings (environment : List (String × String)) (text : String) :
    List (String × Option String) :=
  bindAll environment (statements text) []

/-- What is said about the statements that could not be read. -/
def complaints (text : String) : List String :=
  (statements text).filterMap fun statement =>
    match statement with
    | .unreadable line => some s!"python-dotenv could not parse statement starting at line {line}"
    | .binding _ _ => none

end PluginRegistry.Dotenv
