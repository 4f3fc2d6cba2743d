import Scaffold.Yaml.Token.Lexer
/-!
Documents as trees of nodes, read from their tokens. An alias stands for the
node of its anchor.
-/
namespace Scaffold.Yaml

/-- A node, which may have a tag. -/
inductive Node
  | scalar (tag : Option String) (plain : Bool) (text : String)
  | sequence (tag : Option String) (items : List Node)
  | mapping (tag : Option String) (entries : List (Node × Node))
  deriving Inhabited

namespace Node

/-- The node where nothing is written. -/
def empty : Node := scalar none true ""

end Node

/-- The anchors that are known. An anchor has no node as long as that is not
complete. -/
abbrev Anchors := List (String × Option Node)

/-- What handles stand for at the beginning of tags. -/
abbrev Handles := List (String × String)

/-- The handles that need no directive. -/
def defaultHandles : Handles := [("!", "!"), ("!!", "tag:yaml.org,2002:")]

/-- The readings of tokens, which add anchors and may fail. -/
abbrev NodeReader := StateT Anchors (Except Fault)

namespace NodeReader

variable {α : Type}

def fail (tokens : List Token) (p : Problem) : NodeReader α :=
  throw ⟨p, (tokens.head?.map (·.line + 1)).getD 0⟩

def lookUp (tokens : List Token) (name : String) : NodeReader Node := do
  match (← get).lookup name with
  | some (some node) => return node
  | _ => fail tokens .unknownAlias

/-- Notes the node of an anchor, or that it is about to be read. -/
def note (name : Option String) (node : Option Node) : NodeReader Unit := do
  if let some name := name then modify ((name, node) :: ·)

end NodeReader

/-- What stands in front of the content of a node. -/
structure Properties where
  anchor : Option String := none
  /-- The tag as a handle and a suffix. -/
  tag : Option (String × String) := none
  /-- How many tokens these are. -/
  count : Nat := 0

/-- The properties at the beginning of the tokens: an anchor, a tag, or both in
either order. -/
def Properties.ofTokens : List Token → Properties
  | ⟨.anchor a, _⟩ :: ⟨.tag h s, _⟩ :: _ => ⟨some a, some (h, s), 2⟩
  | ⟨.tag h s, _⟩ :: ⟨.anchor a, _⟩ :: _ => ⟨some a, some (h, s), 2⟩
  | ⟨.anchor a, _⟩ :: _ => ⟨some a, none, 1⟩
  | ⟨.tag h s, _⟩ :: _ => ⟨none, some (h, s), 1⟩
  | _ => {}

/-- The whole text of a tag; nothing if its handle is unknown. -/
def Handles.resolve? (handles : Handles) : String × String → Option String
  | ("", suffix) => some suffix
  | (handle, suffix) => (handles.lookup handle).map (· ++ suffix)

/-- The tokens that a node of a block mapping can be missing in front of. -/
def endsMappingNode : TokenKind → Bool
  | .key | .value | .blockEnd => true
  | _ => false

/-- The tokens that an entry of a block sequence can be missing in front of. -/
def endsSequenceNode : TokenKind → Bool
  | .blockEntry | .blockEnd => true
  | _ => false

/-- The tokens that an entry of a sequence without its own indentation can be
missing in front of. -/
def endsIndentlessNode (k : TokenKind) : Bool :=
  k == .blockEntry || endsMappingNode k

/-- The tokens that a key or a value in a flow collection can be missing in
front of. -/
def endsFlowNode : TokenKind → Bool
  | .value | .flowEntry | .flowMappingEnd | .flowSequenceEnd => true
  | _ => false

namespace Node

open NodeReader (fail)

mutual

/-- Reads a node. Block collections are possible only in blocks, and a sequence
that is indented no deeper than the mapping around it only as a part of that. -/
def ofTokens (handles : Handles) (block indentless : Bool)
    (tokens : List Token) : NodeReader (Node × List Token) := do
  let properties := Properties.ofTokens tokens
  let tag ← match properties.tag with
    | none => pure none
    | some tag => match handles.resolve? tag with
      | some text => pure (some text)
      | none => fail tokens .tagHandle
  let keep (node : Node) (rest : List Token) :
      NodeReader (Node × List Token) := do
    NodeReader.note properties.anchor (some node)
    return (node, rest)
  NodeReader.note properties.anchor none
  match _h : tokens.drop properties.count with
  | ⟨.alias name, _⟩ :: rest =>
    if properties.count != 0 then fail tokens .missingContent
    else return (← NodeReader.lookUp tokens name, rest)
  | ⟨.scalar plain text, _⟩ :: rest =>
    keep (.scalar (if tag == some "!" then none else tag) plain text) rest
  | ⟨.flowSequenceStart, _⟩ :: rest =>
    let (items, rest) ← flowItems handles true rest
    keep (.sequence tag items) rest
  | ⟨.flowMappingStart, _⟩ :: rest =>
    let (entries, rest) ← flowEntries handles true rest
    keep (.mapping tag entries) rest
  | ⟨.blockEntry, line⟩ :: rest =>
    if indentless then
      let (items, rest) ← indentlessItems handles (⟨.blockEntry, line⟩ :: rest)
      keep (.sequence tag items) rest
    else if properties.count != 0 then
      keep (.scalar tag true "") (⟨.blockEntry, line⟩ :: rest)
    else fail tokens .missingContent
  | ⟨.blockSequenceStart, line⟩ :: rest =>
    if block then
      let (items, rest) ← blockItems handles rest
      keep (.sequence tag items) rest
    else if properties.count != 0 then
      keep (.scalar tag true "") (⟨.blockSequenceStart, line⟩ :: rest)
    else fail tokens .missingContent
  | ⟨.blockMappingStart, line⟩ :: rest =>
    if block then
      let (entries, rest) ← blockEntries handles rest
      keep (.mapping tag entries) rest
    else if properties.count != 0 then
      keep (.scalar tag true "") (⟨.blockMappingStart, line⟩ :: rest)
    else fail tokens .missingContent
  | rest =>
    if properties.count != 0 then keep (.scalar tag true "") rest
    else fail tokens .missingContent
termination_by (tokens.length, 1)
decreasing_by all_goals
  have := congrArg List.length _h
  simp only [List.length_drop, List.length_cons] at this
  simp only [List.length_cons, Prod.lex_def]
  omega

/-- Reads a node unless one of the given tokens shows that it is missing. -/
def orEmpty (handles : Handles) (missing : TokenKind → Bool)
    (block indentless : Bool) (tokens : List Token) :
    NodeReader (Node × List Token) :=
  if (tokens.head?.map (missing ·.kind)).getD false then pure (empty, tokens)
  else ofTokens handles block indentless tokens
termination_by (tokens.length, 2)

def blockItems (handles : Handles) (tokens : List Token) :
    NodeReader (List Node × List Token) := do
  match tokens with
  | ⟨.blockEntry, _⟩ :: rest =>
    let (item, after) ← orEmpty handles endsSequenceNode true false rest
    if after.length ≤ rest.length then
      let (items, after) ← blockItems handles after
      return (item :: items, after)
    else fail after .missingEntry
  | ⟨.blockEnd, _⟩ :: rest => return ([], rest)
  | _ => fail tokens .missingEntry
termination_by (tokens.length, 0)

def indentlessItems (handles : Handles) (tokens : List Token) :
    NodeReader (List Node × List Token) := do
  match tokens with
  | ⟨.blockEntry, _⟩ :: rest =>
    let (item, after) ← orEmpty handles endsIndentlessNode true false rest
    if after.length ≤ rest.length then
      let (items, after) ← indentlessItems handles after
      return (item :: items, after)
    else fail after .missingEntry
  | _ => return ([], tokens)
termination_by (tokens.length, 0)

def blockEntries (handles : Handles) (tokens : List Token) :
    NodeReader (List (Node × Node) × List Token) := do
  match tokens with
  | ⟨.key, _⟩ :: rest =>
    let (key, after) ← orEmpty handles endsMappingNode true true rest
    if after.length ≤ rest.length then
      let (value, after) ← value handles endsMappingNode true after
      if after.length ≤ rest.length then
        let (entries, after) ← blockEntries handles after
        return ((key, value) :: entries, after)
      else fail after .missingKey
    else fail after .missingKey
  | ⟨.blockEnd, _⟩ :: rest => return ([], rest)
  | _ => fail tokens .missingKey
termination_by (tokens.length, 0)

def value (handles : Handles) (missing : TokenKind → Bool) (block : Bool)
    (tokens : List Token) : NodeReader (Node × List Token) :=
  match tokens with
  | ⟨.value, _⟩ :: rest => orEmpty handles missing block block rest
  | _ => pure (empty, tokens)
termination_by (tokens.length, 0)

/-- Reads the items of a flow sequence. An item may be a mapping of one
entry. -/
def flowItems (handles : Handles) (first : Bool) (tokens : List Token) :
    NodeReader (List Node × List Token) := do
  let separators := if first then 0 else 1
  match tokens.head?.map (·.kind) with
  | some TokenKind.flowSequenceEnd => return ([], tokens.drop 1)
  | kind =>
    if !first && kind != some .flowEntry then fail tokens .missingSeparator
    else match _h : tokens.drop separators with
      | ⟨.flowSequenceEnd, _⟩ :: rest => return ([], rest)
      | ⟨.key, _⟩ :: rest =>
        if (rest.head?.map (endsFlowNode ·.kind)).getD true then
          fail rest .missingKey
        else
          let (key, after) ← ofTokens handles false false rest
          if after.length ≤ rest.length then
            let (value, after) ← value handles endsFlowNode false after
            if after.length ≤ rest.length then
              let (items, after) ← flowItems handles false after
              return (.mapping none [(key, value)] :: items, after)
            else fail after .missingSeparator
          else fail after .missingSeparator
      | token :: rest =>
        let (item, after) ← ofTokens handles false false (token :: rest)
        if after.length ≤ rest.length then
          let (items, after) ← flowItems handles false after
          return (item :: items, after)
        else fail after .missingSeparator
      | [] => fail tokens .missingSeparator
termination_by (tokens.length, 2)
decreasing_by all_goals
  have := congrArg List.length _h
  simp only [List.length_drop, List.length_cons] at this
  simp only [List.length_cons, Prod.lex_def]
  omega

/-- Reads the entries of a flow mapping. A key may come without its indicator
and without a value. -/
def flowEntries (handles : Handles) (first : Bool) (tokens : List Token) :
    NodeReader (List (Node × Node) × List Token) := do
  let separators := if first then 0 else 1
  match tokens.head?.map (·.kind) with
  | some TokenKind.flowMappingEnd => return ([], tokens.drop 1)
  | kind =>
    if !first && kind != some .flowEntry then fail tokens .missingSeparator
    else match _h : tokens.drop separators with
      | ⟨.flowMappingEnd, _⟩ :: rest => return ([], rest)
      | ⟨.key, _⟩ :: rest =>
        let (key, after) ← orEmpty handles endsFlowNode false false rest
        if after.length ≤ rest.length then
          let (value, after) ← value handles endsFlowNode false after
          if after.length ≤ rest.length then
            let (entries, after) ← flowEntries handles false after
            return ((key, value) :: entries, after)
          else fail after .missingSeparator
        else fail after .missingSeparator
      | token :: rest =>
        let (key, after) ← ofTokens handles false false (token :: rest)
        if after.length ≤ rest.length then
          let (entries, after) ← flowEntries handles false after
          return ((key, empty) :: entries, after)
        else fail after .missingSeparator
      | [] => fail tokens .missingSeparator
termination_by (tokens.length, 2)
decreasing_by all_goals
  have := congrArg List.length _h
  simp only [List.length_drop, List.length_cons] at this
  simp only [List.length_cons, Prod.lex_def]
  omega

end

end Node

end Scaffold.Yaml
