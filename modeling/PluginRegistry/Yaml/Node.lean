import PluginRegistry.Yaml.Layout
import PluginRegistry.Yaml.Tag

/-!
# Nodes

The tree that the tokens of a document spell, each node with its tag. An alias is replaced by the
node that it names, unless it stands inside that node: then it stays an alias, and the node keeps
its name. The tokens are read one by one: a fault in the tree is found as soon as the token that
shows it is there, and a fault of the text only when the token that it prevents is needed.
-/

namespace PluginRegistry.Yaml

/-- A node of a document. -/
inductive Node where
  | scalar (tag : Tag) (text : String)
  | sequence (tag : Tag) (items : List Node)
  | mapping (tag : Tag) (pairs : List (Node × Node))
  | named (name : String) (node : Node)
  | inside (name : String) (tag : Tag)

namespace Node

instance : Inhabited Node := ⟨.scalar .null ""⟩

/-- The tag of a node. -/
def tag : Node → Tag
  | .scalar tag _ => tag
  | .sequence tag _ => tag
  | .mapping tag _ => tag
  | .named _ node => node.tag
  | .inside _ tag => tag

/-- The kind of node; what an alias stands inside is a sequence or a mapping. -/
def kind : Node → String
  | .scalar _ _ => "scalar"
  | .sequence _ _ => "sequence"
  | .mapping _ _ => "mapping"
  | .named _ node => node.kind
  | .inside _ tag => if tag = .map ∨ tag = .set then "mapping" else "sequence"

/-- The node with another tag. -/
def retag (tag : Tag) : Node → Node
  | .scalar _ text => .scalar tag text
  | .sequence _ items => .sequence tag items
  | .mapping _ pairs => .mapping tag pairs
  | .named name node => .named name (node.retag tag)
  | .inside name _ => .inside name tag

/-- What stands for a node that is left out. -/
def missing : Node := .scalar .null ""

end Node

/-- Why tokens spell no document. -/
inductive NodeFault where
  | documentStart (found : Token)
  | secondVersion
  | unknownVersion
  | secondHandle (handle : String)
  | unknownHandle
  | blockNode
  | flowNode
  | blockSequence
  | blockMapping
  | flowSequence
  | flowMapping
  | unknownAlias (name : String)
  | secondAnchor (name : String)
  | secondDocument

/-- The first line of what is said about the fault. -/
def NodeFault.message : NodeFault → String
  | .documentStart found => "expected '<document start>', but found " ++ Text.quoted found.name
  | .secondVersion => "found duplicate YAML directive"
  | .unknownVersion => "found incompatible YAML document (version 1.* is required)"
  | .secondHandle handle => "duplicate tag handle " ++ Text.quoted handle
  | .unknownHandle => "while parsing a node"
  | .blockNode => "while parsing a block node"
  | .flowNode => "while parsing a flow node"
  | .blockSequence => "while parsing a block collection"
  | .blockMapping => "while parsing a block mapping"
  | .flowSequence => "while parsing a flow sequence"
  | .flowMapping => "while parsing a flow mapping"
  | .unknownAlias name => "found undefined alias " ++ Text.quoted name
  | .secondAnchor name => "found duplicate anchor " ++ Text.quoted name ++ "; first occurrence"
  | .secondDocument => "expected a single document in the stream"

/-- The fault is one of how nodes refer to each other, or to the stream, and not of grammar. -/
def NodeFault.isReference : NodeFault → Bool
  | .unknownAlias _ | .secondAnchor _ | .secondDocument => true
  | _ => false

/-- A fault of the text, or of the tokens that it gave, or too many levels of nodes. -/
inductive ReadFault where
  | token (fault : TokenFault)
  | node (fault : NodeFault)
  | nesting

/-- How many sequences and mappings may stand inside each other. -/
def nestingLimit : Nat := 480

/-- What is left to be read, the fault behind it, the tag handles of the document, its anchors,
those of them that are used inside their nodes, and how many more levels of nodes there may be. Of a
node that is still being read only the tag is known. -/
structure Reading where
  tokens : List Token
  ending : Option TokenFault
  handles : List (String × String)
  anchors : List (String × (Tag ⊕ Node))
  inside : List String
  room : Nat

/-- Reading tokens, which may fail. -/
abbrev Parse := StateT Reading (Except ReadFault)

namespace Parse

/-- Stops at a fault of the tokens. -/
def refuse {α : Type} (fault : NodeFault) : Parse α := throw (.node fault)

/-- The next token. -/
def peek : Parse Token := do
  let s ← get
  match s.tokens, s.ending with
  | token :: _, _ => return token
  | [], some fault => throw (.token fault)
  | [], none => return .streamEnd

/-- Passes over the next token. -/
def skip : Parse Unit := modify fun s => { s with tokens := s.tokens.drop 1 }

/-- Reads what stands one level further in. -/
def within {α : Type} (action : Parse α) : Parse α := do
  let room := (← get).room
  if room = 0 then throw .nesting
  modify fun s => { s with room := room - 1 }
  let result ← action
  modify fun s => { s with room }
  return result

/-- The handles that every document has. -/
def usualHandles : List (String × String) := [("!", "!"), ("!!", Tag.lead)]

/-! ## Properties of nodes -/

/-- The anchor, if it is next. -/
def anchor? : Parse (Option String) := do
  match ← peek with
  | .anchor name =>
    skip
    return some name
  | _ => return none

/-- The tag, if it is next, with its handle. -/
def tag? : Parse (Option (Option String × String)) := do
  match ← peek with
  | .tag handle suffix =>
    skip
    return some (handle, suffix)
  | _ => return none

/-- Anchor and tag, in either order. -/
def properties : Parse (Option String × Option (Option String × String)) := do
  let first ← anchor?
  let tag ← tag?
  let anchor ← if first.isNone && tag.isSome then anchor? else pure first
  return (anchor, tag)

/-- The name of a tag, where its handle is replaced by what it stands for. -/
def tagName : Option (Option String × String) → Parse (Option String)
  | none => return none
  | some (none, suffix) => return some suffix
  | some (some handle, suffix) => do
    match (← get).handles.lookup handle with
    | some lead => return some (lead ++ suffix)
    | none => refuse .unknownHandle

/-- Makes an anchor known, whose node is about to be read. -/
def declare (tag : Tag) : Option String → Parse Unit
  | none => return
  | some name => do
    if ((← get).anchors.lookup name).isSome then refuse (.secondAnchor name)
    modify fun s => { s with anchors := (name, .inl tag) :: s.anchors }

/-- Binds an anchor to its node. -/
def bind (anchor : Option String) (node : Node) : Parse Node := do
  match anchor with
  | none => return node
  | some name =>
    let node := if (← get).inside.contains name then .named name node else node
    modify fun s => { s with anchors := (name, .inr node) :: s.anchors }
    return node

/-- The node that an alias names. -/
def resolve (name : String) : Parse Node := do
  match (← get).anchors.lookup name with
  | some (.inr node) => return node
  | some (.inl tag) =>
    modify fun s => { s with inside := name :: s.inside }
    return .inside name tag
  | none => refuse (.unknownAlias name)

/-- The tag of a collection, given the name it carries. -/
def collectionTag (usual : Tag) : Option String → Tag
  | none => usual
  | some name => if name = "!" then usual else .ofName name

/-- The tag of a scalar, given the name it carries. -/
def scalarTag (text : String) (plain : Bool) : Option String → Tag
  | none => if plain then .ofPlain text else .str
  | some name => if name = "!" then .ofPlain text else .ofName name

/-! ## Nodes -/

mutual

/-- A node. A block may start here only in a block, and a sequence whose entries are not indented
only as a key or a value. -/
def node (inBlock entries : Bool) : Nat → Parse Node
  | 0 => refuse .blockNode
  | fuel + 1 => do
    if let .reference name ← peek then
      skip
      return ← resolve name
    let (anchor, tag) ← properties
    let name ← tagName tag
    let asList := collectionTag .seq name
    let asTable := collectionTag .map name
    match ← peek with
    | .blockEntry =>
      if entries then
        declare asList anchor
        bind anchor (.sequence asList (← within (openEntries fuel)))
      else nothing anchor name
    | .scalar text plain =>
      skip
      declare .str anchor
      bind anchor (.scalar (scalarTag text plain name) text)
    | .flowSequenceStart =>
      declare asList anchor
      skip
      bind anchor (.sequence asList (← within (flowItems true fuel)))
    | .flowMappingStart =>
      declare asTable anchor
      skip
      bind anchor (.mapping asTable (← within (flowPairs true fuel)))
    | .blockSequenceStart =>
      if inBlock then
        declare asList anchor
        skip
        bind anchor (.sequence asList (← within (blockItems fuel)))
      else nothing anchor name
    | .blockMappingStart =>
      if inBlock then
        declare asTable anchor
        skip
        bind anchor (.mapping asTable (← within (blockPairs fuel)))
      else nothing anchor name
    | _ => nothing anchor name
where
  /-- A node of which only the properties are there. -/
  nothing (anchor name : Option String) : Parse Node := do
    if anchor.isNone && name.isNone then
      refuse (if inBlock then .blockNode else .flowNode)
    declare .str anchor
    bind anchor (.scalar (scalarTag "" true name) "")

/-- The entries of a sequence in a block, up to the end of the block. -/
def blockItems : Nat → Parse (List Node)
  | 0 => refuse .blockSequence
  | fuel + 1 => do
    match ← peek with
    | .blockEntry =>
      skip
      let item ←
        match ← peek with
        | .blockEntry | .blockEnd => pure Node.missing
        | _ => node true false fuel
      return item :: (← blockItems fuel)
    | .blockEnd =>
      skip
      return []
    | _ => refuse .blockSequence

/-- The entries of a sequence that is not indented, up to what is none. -/
def openEntries : Nat → Parse (List Node)
  | 0 => refuse .blockSequence
  | fuel + 1 => do
    match ← peek with
    | .blockEntry =>
      skip
      let item ←
        match ← peek with
        | .blockEntry | .key | .value | .blockEnd => pure Node.missing
        | _ => node true false fuel
      return item :: (← openEntries fuel)
    | _ => return []

/-- The pairs of a mapping in a block, up to the end of the block. -/
def blockPairs : Nat → Parse (List (Node × Node))
  | 0 => refuse .blockMapping
  | fuel + 1 => do
    match ← peek with
    | .blockEnd =>
      skip
      return []
    | .key =>
      skip
      let key ←
        match ← peek with
        | .key | .value | .blockEnd => pure Node.missing
        | _ => node true true fuel
      let value ← blockValue fuel
      return (key, value) :: (← blockPairs fuel)
    | _ => refuse .blockMapping

/-- The value after a key in a block; it may be left out. -/
def blockValue : Nat → Parse Node
  | 0 => refuse .blockMapping
  | fuel + 1 => do
    match ← peek with
    | .value =>
      skip
      match ← peek with
      | .key | .value | .blockEnd => return .missing
      | _ => node true true fuel
    | _ => return .missing

/-- The items of a sequence between brackets, up to the closing one. An item with a colon is a
mapping of one pair. -/
def flowItems (first : Bool) : Nat → Parse (List Node)
  | 0 => refuse .flowSequence
  | fuel + 1 => do
    if let .flowSequenceEnd ← peek then
      skip
      return []
    unless first do
      let .flowEntry ← peek | refuse .flowSequence
      skip
    match ← peek with
    | .flowSequenceEnd =>
      skip
      return []
    | .key =>
      skip
      let key ←
        match ← peek with
        | .value | .flowEntry | .flowSequenceEnd => pure Node.missing
        | _ => node false false fuel
      let value ← flowValue false fuel
      return .mapping .map [(key, value)] :: (← flowItems false fuel)
    | _ =>
      let item ← node false false fuel
      return item :: (← flowItems false fuel)

/-- The pairs of a mapping between braces, up to the closing one. -/
def flowPairs (first : Bool) : Nat → Parse (List (Node × Node))
  | 0 => refuse .flowMapping
  | fuel + 1 => do
    if let .flowMappingEnd ← peek then
      skip
      return []
    unless first do
      let .flowEntry ← peek | refuse .flowMapping
      skip
    match ← peek with
    | .flowMappingEnd =>
      skip
      return []
    | .key =>
      skip
      let key ←
        match ← peek with
        | .value | .flowEntry | .flowMappingEnd => pure Node.missing
        | _ => node false false fuel
      let value ← flowValue true fuel
      return (key, value) :: (← flowPairs false fuel)
    | _ =>
      let key ← node false false fuel
      return (key, .missing) :: (← flowPairs false fuel)

/-- The value after a key between brackets, or between braces; it may be left out. -/
def flowValue (inBraces : Bool) : Nat → Parse Node
  | 0 => refuse .flowNode
  | fuel + 1 => do
    match ← peek with
    | .value =>
      skip
      match ← peek, inBraces with
      | .flowEntry, _ | .flowSequenceEnd, false | .flowMappingEnd, true => return .missing
      | _, _ => node false false fuel
    | _ => return .missing

end

/-! ## Documents -/

/-- The directives in front of a document, which set its tag handles. -/
def directives (version : Bool) (handles : List (String × String)) : Nat → Parse Unit
  | 0 => return
  | fuel + 1 => do
    match ← peek with
    | .directive value =>
      skip
      match value with
      | .version major _ =>
        if version then refuse .secondVersion
        if major ≠ 1 then refuse .unknownVersion
        directives true handles fuel
      | .tagHandle handle lead =>
        if (handles.lookup handle).isSome then refuse (.secondHandle handle)
        directives version ((handle, lead) :: handles) fuel
      | .reserved => directives version handles fuel
    | _ => modify fun s => { s with handles := handles ++ usualHandles }

/-- Passes over marks that end a document. -/
def documentEnds : Nat → Parse Unit
  | 0 => return
  | fuel + 1 => do
    if let .documentEnd ← peek then
      skip
      documentEnds fuel

/-- The head of a document that is marked as one. The answer is false when the stream ends. -/
def documentStart (fuel : Nat) : Parse Bool := do
  documentEnds fuel
  if let .streamEnd ← peek then return false
  directives false [] fuel
  match ← peek with
  | .documentStart =>
    skip
    return true
  | found => refuse (.documentStart found)

/-- The content of a document that is marked as one. -/
def documentContent (fuel : Nat) : Parse Node := do
  match ← peek with
  | .directive _ | .documentStart | .documentEnd | .streamEnd => return .missing
  | _ => node true false fuel

/-- The one document of a stream, if there is one. -/
def document (fuel : Nat) : Parse (Option Node) := do
  let root ←
    match ← peek with
    | .directive _ | .documentStart | .streamEnd => do
      if ← documentStart fuel then pure (some (← documentContent fuel)) else pure none
    | _ => do
      modify fun s => { s with handles := usualHandles }
      pure (some (← node true false fuel))
  if root.isSome then
    if let .documentEnd ← peek then skip
    if ← documentStart fuel then refuse .secondDocument
  return root

end Parse

/-- A root node, and the nodes of the anchors. -/
structure Tree where
  root : Node
  anchors : List (String × Node)

/-- The nodes of a text, if its document is not empty. Between two tokens that are read there are at
most three calls. -/
def Tree.ofText? (text : List Char) : Except ReadFault (Option Tree) := do
  let (tokens, ending) := Token.ofText text
  let start : Reading := ⟨tokens, ending, [], [], [], nestingLimit⟩
  let (root, reading) ← (Parse.document (4 * tokens.length + 8)).run start
  let anchors := reading.anchors.filterMap fun (name, node) =>
    match node with
    | .inr node => some (name, node)
    | .inl _ => none
  return root.map fun root => ⟨root, anchors⟩

end PluginRegistry.Yaml
