import PluginRegistry.Text.Digit
import PluginRegistry.Text.Quoted

/-!
# Options and arguments

A command line is a sequence of words. An option starts with a hyphen and may be abbreviated as long
as it stays clear which one is meant; its value follows it, as the next word or behind an equals
sign. Words that look like negative numbers or hold a space are arguments, and after two hyphens all
are.

A grammar lists the options and the names of the arguments. Arguments are taken in runs between
options, as many of them as the run has words for; words that nothing takes are left over. Two
hyphens by themselves are no value, neither of an option nor of an argument.
-/

namespace PluginRegistry.CommandLine

/-- An option, by its long name. Every grammar has one for help besides. -/
structure OptionSpec where
  flag : String
  takesValue : Bool

/-- What words may stand on a command line. -/
structure Grammar where
  program : String
  options : List OptionSpec
  arguments : List String

/-- Why a command line cannot be read. -/
inductive UsageCause where
  | ambiguous (word : String) (flags : List String)
  | valueExpected (flag : String)
  | valueIgnored (flag value : String)
  | required (names : List String)
  | unknownCommand (word : String) (commands : List String)
  | leftOver (words : List String)

/-- The cause in words. -/
def UsageCause.message : UsageCause → String
  | .ambiguous word flags =>
    "ambiguous option: " ++ word ++ " could match " ++ ", ".intercalate flags
  | .valueExpected flag => "argument " ++ flag ++ ": expected one argument"
  | .valueIgnored flag value =>
    "argument " ++ flag ++ ": ignored explicit argument " ++ Text.quoted value
  | .required names => "the following arguments are required: " ++ ", ".intercalate names
  | .unknownCommand word commands =>
    "argument command: invalid choice: " ++ Text.quoted word ++ " (choose from " ++
      ", ".intercalate (commands.map Text.quoted) ++ ")"
  | .leftOver words => "unrecognized arguments: " ++ " ".intercalate words

/-- A cause, and the grammar that the words were held against. -/
structure UsageFault where
  program : String
  cause : UsageCause

/-- The fault as a line. -/
def UsageFault.message (f : UsageFault) : String := f.program ++ ": error: " ++ f.cause.message

/-- What a word stands for: an argument, the mark after which there are only arguments, or an option
with the value behind its equals sign. No option is known by some words that look like one. -/
inductive Word where
  | argument (text : String)
  | mark
  | option (text : String) (spec : Option OptionSpec) (value : Option String)

/-- The word as it was written. -/
def Word.text : Word → String
  | .argument text => text
  | .mark => "--"
  | .option text _ _ => text

/-- The words ask for help, which ends the program. -/
inductive Stop where
  | help
  | fault (fault : UsageFault)

namespace Grammar

/-- The option for help. -/
def help : OptionSpec := ⟨"--help", false⟩

/-- All options by their flags. -/
def flags (g : Grammar) : List (String × OptionSpec) :=
  ("-h", help) :: (help :: g.options).map fun spec => (spec.flag, spec)

/-- A fault of this grammar. -/
def refuse {α : Type} (g : Grammar) (cause : UsageCause) : Except Stop α :=
  .error (.fault ⟨g.program, cause⟩)

/-- A hyphen and a number. A line feed may follow. -/
def isNegativeNumber : List Char → Bool
  | '-' :: cs =>
    let cs := if cs.getLast? = some '\n' then cs.dropLast else cs
    match cs.dropWhile Text.isDigit with
    | [] => !cs.isEmpty
    | '.' :: digits => !digits.isEmpty && digits.all Text.isDigit
    | _ => false
  | _ => false

/-- The parts of a word before and after its first equals sign. -/
def splitValue (word : String) : String × Option String :=
  let cs := word.toList
  let name := cs.takeWhile (· ≠ '=')
  if name.length < cs.length then
    (String.ofList name, some (String.ofList (cs.drop (name.length + 1))))
  else (word, none)

/-- The options that a word may be short for, with the value it carries. -/
def candidates (g : Grammar) (word : String) : List (String × OptionSpec × Option String) :=
  if word.startsWith "--" then
    let (name, value) := splitValue word
    (g.flags.filter fun entry => entry.1.startsWith name).map fun entry =>
      (entry.1, entry.2, value)
  else
    let short := String.ofList (word.toList.take 2)
    g.flags.filterMap fun entry =>
      if entry.1 = short then
        some (entry.1, entry.2, some (String.ofList (word.toList.drop 2)))
      else if entry.1.startsWith word then some (entry.1, entry.2, none)
      else none

/-- What a word stands for. -/
def classify (g : Grammar) (word : String) : Except Stop Word := do
  if !word.startsWith "-" ∨ word = "-" then return .argument word
  if let some spec := g.flags.lookup word then return .option word (some spec) none
  let (name, value) := splitValue word
  if let (some spec, some value) := (g.flags.lookup name, value) then
    return .option word (some spec) (some value)
  match g.candidates word with
  | [(_, spec, value)] => return .option word (some spec) value
  | [] =>
    if isNegativeNumber word.toList ∨ word.contains ' ' then return .argument word
    else return .option word none none
  | several => g.refuse (.ambiguous word (several.map (·.1)))

/-- What the words stand for. -/
def classifyAll (g : Grammar) : List String → Except Stop (List Word)
  | [] => return []
  | word :: rest =>
    if word = "--" then return .mark :: rest.map .argument
    else do return (← g.classify word) :: (← classifyAll g rest)

end Grammar

/-- What was read so far: options and arguments with their values, as far as they have one, and what
is left over. -/
structure Found where
  options : List (String × Option String)
  arguments : List (String × Option String)
  leftOver : List String

/-- The value of an option that was given; the last one counts. -/
def Found.option? (f : Found) (flag : String) : Option (Option String) :=
  f.options.reverse.lookup flag

/-- The value of an argument. -/
def Found.argument? (f : Found) (name : String) : Option String := (f.arguments.lookup name).join

/-- The value that a word gives by itself. -/
def valueOf (word : String) : Option String := if word = "--" then none else some word

namespace Grammar

/-- The word is an option. -/
def isOption : Word → Bool
  | .option _ _ _ => true
  | _ => false

/-- The words after an argument that was taken, without the mark. -/
def afterMark : List Word → List Word
  | .mark :: rest => rest
  | words => words

/-- Takes as many arguments as there are words for at the start: the named values, the names that
are left, and the words after them. A word to which the mark belongs is a value whatever it is. -/
def takeArguments :
    List String → List Word → List (String × Option String) × List String × List Word
  | name :: names, .argument text :: rest =>
    let (taken, names, rest) := takeArguments names (afterMark rest)
    ((name, valueOf text) :: taken, names, rest)
  | name :: names, .mark :: .argument text :: rest =>
    let (taken, names, rest) := takeArguments names (afterMark rest)
    ((name, some text) :: taken, names, rest)
  | names, words => ([], names, words)

/-- Asks for help by its letter, which may be repeated without a hyphen. -/
def shortHelp {α : Type} (g : Grammar) : List Char → Except Stop α
  | [] => throw .help
  | 'h' :: rest => shortHelp g rest
  | cs => g.refuse (.valueIgnored "-h/--help" (String.ofList cs))

/-- Refuses the value of an option that takes none. -/
def refuseValue {α : Type} (g : Grammar) (text : String) (spec : OptionSpec) (value : String) :
    Except Stop α :=
  if spec.flag = help.flag then
    if text.startsWith "--" ∨ value = "" then g.refuse (.valueIgnored "-h/--help" value)
    else g.shortHelp value.toList
  else g.refuse (.valueIgnored spec.flag value)

/-- An option without a value behind it takes the next word, if that is an argument. -/
def takeOption (g : Grammar) (text : String) (spec : Option OptionSpec) (value : Option String)
    (rest : List Word) (found : Found) : Except Stop (Found × List Word) :=
  match spec with
  | none => return ({ found with leftOver := found.leftOver ++ [text] }, rest)
  | some spec =>
    let add := fun (value : Option String) =>
      { found with options := found.options ++ [(spec.flag, value)] }
    match spec.takesValue, value, rest with
    | true, some value, _ => return (add (valueOf value), rest)
    | true, none, .argument next :: rest => return (add (valueOf next), rest)
    | true, none, _ => g.refuse (.valueExpected spec.flag)
    | false, some value, _ => g.refuseValue text spec value
    | false, none, _ => if spec.flag = help.flag then throw .help else return (add none, rest)

/-- Reads the words. Where arguments stand that no name is left for, they are left over. -/
def readWords (g : Grammar) : Nat → List String → List Word → Found →
    Except Stop (Found × List String)
  | 0, names, _, found => return (found, names)
  | _, names, [], found => return (found, names)
  | fuel + 1, names, .option text spec value :: rest, found => do
    let (found, rest) ← g.takeOption text spec value rest found
    readWords g fuel names rest found
  | fuel + 1, names, words, found =>
    let (taken, names, rest) := takeArguments names words
    let found := { found with arguments := found.arguments ++ taken }
    let stuck := if taken.isEmpty then rest.takeWhile (!isOption ·) else []
    let found := { found with leftOver := found.leftOver ++ stuck.map Word.text }
    readWords g fuel names (rest.drop stuck.length) found

/-- Reads words that this grammar alone accounts for. -/
def read (g : Grammar) (words : List String) : Except Stop Found := do
  let words ← g.classifyAll words
  let (found, missing) ← g.readWords (2 * words.length + 1) g.arguments words ⟨[], [], []⟩
  if missing.isEmpty then return found else g.refuse (.required missing)

end Grammar

end PluginRegistry.CommandLine
