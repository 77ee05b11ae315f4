import PluginRegistry.Text.Quoted

/-!
# Tokens of YAML

The words and marks of a YAML text. The start and end of a block collection, which the text shows by
indentation alone, are tokens as well, and so is the key mark that an implicit key goes without.
-/

namespace PluginRegistry.Yaml

/-- A line that starts with a percent sign. -/
inductive Directive where
  | version (major minor : Nat)
  | tagHandle (handle lead : String)
  | reserved

/-- A token. A tag has a handle, unless it is written in full. -/
inductive Token where
  | streamEnd
  | directive (value : Directive)
  | documentStart
  | documentEnd
  | blockSequenceStart
  | blockMappingStart
  | blockEnd
  | flowSequenceStart
  | flowSequenceEnd
  | flowMappingStart
  | flowMappingEnd
  | blockEntry
  | flowEntry
  | key
  | value
  | reference (name : String)
  | anchor (name : String)
  | tag (handle : Option String) (suffix : String)
  | scalar (text : String) (plain : Bool)

instance : Inhabited Token := ⟨.streamEnd⟩

/-- The kind of token as messages name it. -/
def Token.name : Token → String
  | .streamEnd => "<stream end>"
  | .directive _ => "<directive>"
  | .documentStart => "<document start>"
  | .documentEnd => "<document end>"
  | .blockSequenceStart => "<block sequence start>"
  | .blockMappingStart => "<block mapping start>"
  | .blockEnd => "<block end>"
  | .flowSequenceStart => "["
  | .flowSequenceEnd => "]"
  | .flowMappingStart => "\x7b"
  | .flowMappingEnd => "\x7d"
  | .blockEntry => "-"
  | .flowEntry => ","
  | .key => "?"
  | .value => ":"
  | .reference _ => "<alias>"
  | .anchor _ => "<anchor>"
  | .tag _ _ => "<tag>"
  | .scalar _ _ => "<scalar>"

/-- Why a text is no sequence of tokens. -/
inductive TokenFault where
  | noToken
  | keyWithoutValue
  | entryPlace
  | keyPlace
  | valuePlace
  | directive
  | directiveUri
  | reference
  | anchor
  | tag
  | tagUri
  | blockScalar
  | escape
  | quotedScalar
  | codePoint
  deriving DecidableEq

/-- The first line of what is said about the fault. -/
def TokenFault.message : TokenFault → String
  | .noToken => "while scanning for the next token"
  | .keyWithoutValue => "while scanning a simple key"
  | .entryPlace => "sequence entries are not allowed here"
  | .keyPlace => "mapping keys are not allowed here"
  | .valuePlace => "mapping values are not allowed here"
  | .directive => "while scanning a directive"
  | .directiveUri => "while parsing a directive"
  | .reference => "while scanning an alias"
  | .anchor => "while scanning an anchor"
  | .tag => "while scanning a tag"
  | .tagUri => "while parsing a tag"
  | .blockScalar => "while scanning a block scalar"
  | .escape => "while scanning a double-quoted scalar"
  | .quotedScalar => "while scanning a quoted scalar"
  | .codePoint => "chr() arg not in range(0x110000)"

end PluginRegistry.Yaml
