import PluginRegistry.Yaml.Node
import PluginRegistry.Yaml.Value

/-!
# Reading YAML documents

A node becomes the value that its tag says. The pairs of a mapping that stands under a merge key
come before those of the mapping it is merged into, so that the latter win; of several mappings to
merge the first wins.

An alias that stands inside its own node makes the document hold itself.

Faults of values are looked for level by level: the one nearest to the root is reported, and of
several at one level the first.
-/

namespace PluginRegistry

namespace Yaml

/-- Why a text is no document. -/
inductive Fault where
  | character (code : Nat)
  | read (fault : ReadFault)
  | value (fault : ValueFault)

/-- The first line of what is said about the fault. -/
def Fault.message : Fault → String
  | .character code =>
    "unacceptable character #x" ++ String.ofList (Text.hex 4 code) ++
      ": special characters are not allowed"
  | .read (.token fault) => fault.message
  | .read (.node fault) => fault.message
  | .read .nesting => "maximum recursion depth exceeded"
  | .value fault => fault.message

/-- A character that a YAML text may hold. -/
def isAllowed (c : Char) : Bool :=
  let n := c.toNat
  n = 9 || n = 10 || n = 13 || (0x20 ≤ n && n ≤ 0x7e) || n = 0x85 || (0xa0 ≤ n && n ≤ 0xd7ff) ||
    (0xe000 ≤ n && n ≤ 0xfffd) || 0x10000 ≤ n

/-- The kind of value that a collection with the tag is. -/
def Tag.valueKind : Tag → String
  | .map => "dict"
  | .set => "set"
  | _ => "list"

namespace Node

/-- The text of a scalar. A mapping with a default value has the text of that. -/
def scalarText : Nat → Node → Except ValueFault String
  | _, .scalar _ text => .ok text
  | fuel + 1, .mapping _ pairs =>
    match pairs.find? fun pair => pair.1.tag = .value with
    | some pair => scalarText fuel pair.2
    | none => .error (.wrongNode "scalar" "mapping")
  | fuel + 1, .named _ node => scalarText fuel node
  | _, node => .error (.wrongNode "scalar" node.kind)

/-- Which anchors a node stands inside, each with the position of the pair that leads there. -/
abbrev Around := List (String × Nat)

/-- The pairs without those under a merge key. A key that marks a default value is a text. -/
def ownPairs (pairs : List (Node × Node)) : List (Node × Node) :=
  (pairs.filter fun pair => pair.1.tag ≠ .merge).map fun pair =>
    if pair.1.tag = .value then (pair.1.retag .str, pair.2) else pair

/-- The pairs, where the value at a position is left to what stands around. -/
def leaveOut (position : Nat) (pairs : List (Node × Node)) : List (Node × Node) :=
  pairs.zipIdx.map fun (pair, i) =>
    if i = position then (pair.1, .inside "" pair.2.tag) else pair

/-- The pairs of a mapping with those that are merged into it; `seen` are the anchors of mappings
that are being merged already. -/
def merged (anchors : List (String × Node)) (around : Around) :
    Nat → List String → List (Node × Node) → Except ValueFault (List (Node × Node))
  | 0, _, pairs => .ok (ownPairs pairs)
  | fuel + 1, seen, pairs => do
    let pairsOf := fun (node : Node) =>
      match node with
      | .mapping _ pairs => merged anchors around fuel seen pairs
      | .named name (.mapping _ pairs) => merged anchors around fuel (name :: seen) pairs
      | .inside name _ =>
        match anchors.lookup name with
        | some (.named _ (.mapping _ pairs)) =>
          if seen.contains name then .ok (ownPairs pairs)
          else do
            let pairs ← merged anchors around fuel (name :: seen) pairs
            return ((around.lookup name).map (leaveOut · pairs)).getD pairs
        | _ => .error .mapping
      | _ => .error .mapping
    let parts ← (pairs.filter fun pair => pair.1.tag = .merge).mapM fun pair =>
      match pair.2 with
      | .sequence _ items | .named _ (.sequence _ items) => do
        return (← items.mapM pairsOf).reverse.flatten
      | node => pairsOf node
    return parts.flatten ++ ownPairs pairs

/-- A value, and the faults that were met, each with its distance from the node. -/
abbrev Built := Document × List (Nat × ValueFault)

/-- A value that is missing because of a fault. -/
def faulty (distance : Nat) (fault : ValueFault) : Built := (default, [(distance, fault)])

/-- The faults, one step further away. -/
def away (faults : List (Nat × ValueFault)) : List (Nat × ValueFault) :=
  faults.map fun (distance, fault) => (distance + 1, fault)

/-- Key and value of an entry, with their faults. A key may not have parts. -/
def entry (key value : Built) : (Scalar × Document) × List (Nat × ValueFault) :=
  match key.1 with
  | .scalar k => ((k, value.1), away (key.2 ++ value.2))
  | _ => ((.null, value.1), away key.2 ++ [(1, .mapping)])

/-- The anchors around a part of a node with that anchor. -/
def beneath (anchor : Option String) (position : Nat) (around : Around) : Around :=
  match anchor with
  | some name => (name, position) :: around
  | none => around

/-- A list of pairs, each from a mapping of one pair. -/
def pairList (part : Node → Built) (fault : ValueFault) (items : List Node) : Built :=
  let parts := items.map fun item =>
    match item with
    | .mapping _ [pair] | .named _ (.mapping _ [pair]) =>
      let key := part pair.1
      let value := part pair.2
      (Document.list [key.1, value.1], away (key.2 ++ value.2))
    | _ => faulty 1 fault
  (.list (parts.map (·.1)), parts.flatMap (·.2))

/-- The value of a node that is no alias, given that of any node inside it. -/
def assemble (anchors : List (String × Node)) (fuel : Nat) (build : Around → Node → Built)
    (around : Around) (anchor : Option String) (node : Node) : Built :=
  let part := build (beneath anchor 0 around)
  let entries := fun (pairs : List (Node × Node)) =>
    (merged anchors around fuel anchor.toList pairs).map fun pairs =>
      pairs.zipIdx.map fun (pair, i) =>
        let part := build (beneath anchor i around)
        entry (part pair.1) (part pair.2)
  match node.tag, node with
  | .seq, .sequence _ items =>
    let parts := items.map part
    (.list (parts.map (·.1)), away (parts.flatMap (·.2)))
  | .seq, _ => faulty 1 (.wrongNode "sequence" node.kind)
  | .map, .mapping _ pairs =>
    match entries pairs with
    | .ok parts => (.ofEntries (parts.map (·.1)), parts.flatMap (·.2))
    | .error fault => faulty 1 fault
  | .set, .mapping _ pairs =>
    match entries pairs with
    | .ok parts => (.ofMembers (parts.map (·.1.1)), parts.flatMap (·.2))
    | .error fault => faulty 1 fault
  | .map, _ | .set, _ => faulty 1 (.wrongNode "mapping" node.kind)
  | .orderedMap, .sequence _ items => pairList part .orderedMap items
  | .orderedMap, _ => faulty 1 .orderedMap
  | .pairs, .sequence _ items => pairList part .pairs items
  | .pairs, _ => faulty 1 .pairs
  | .merge, _ | .value, _ | .other _, _ => faulty 0 (.unknownTag node.tag.name)
  | tag, _ =>
    match scalarText fuel node with
    | .ok text =>
      match tag.scalar text with
      | .ok value => (.scalar value, [])
      | .error fault => faulty 0 fault
    | .error fault => faulty 0 fault

/-- The value of a node. An alias inside its own node is told by the kind of that only. -/
def build (anchors : List (String × Node)) : Nat → Around → Node → Built
  | 0, _, _ => (default, [])
  | fuel + 1, around, .inside name tag =>
    match around.lookup name, anchors.lookup name with
    | none, some node => build anchors fuel around node
    | _, _ => (.enclosing tag.valueKind, [])
  | fuel + 1, around, .named name node =>
    assemble anchors fuel (build anchors fuel) around (some name) node
  | fuel + 1, around, node => assemble anchors fuel (build anchors fuel) around none node

end Node

end Yaml

/-- Reads a YAML text as a document. A text without content is null. -/
def Document.ofYamlText (text : String) : Except Yaml.Fault Document := do
  let cs := text.toList
  if let some c := cs.find? (!Yaml.isAllowed ·) then throw (.character c.toNat)
  match Yaml.Tree.ofText? cs with
  | .error fault => throw (.read fault)
  | .ok none => return .scalar .null
  | .ok (some tree) =>
    let (value, faults) := tree.root.build tree.anchors (3 * cs.length + 6) []
    match faults.foldl nearest none with
    | some (_, fault) => throw (.value fault)
    | none => return value
where
  /-- The nearer of two faults, the first when they are equally far. -/
  nearest (best : Option (Nat × Yaml.ValueFault)) (next : Nat × Yaml.ValueFault) :
      Option (Nat × Yaml.ValueFault) :=
    match best with
    | some b => if next.1 < b.1 then some next else some b
    | none => some next

end PluginRegistry
