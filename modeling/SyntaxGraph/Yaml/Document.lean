import SyntaxGraph.Yaml.Token.Scan

/-!
# YAML documents

A document is a tree of mappings and scalars. An alias stands for the node of a *slot*. Every
anchor fills a slot: the one whose number is the count of names known before it. A slot that is
filled again holds the later node, also for aliases that were read before.
-/

namespace SyntaxGraph.Yaml

/-- A node; the keys of a mapping stand in the order of the text. -/
inductive Node where
  | scalar (tag : Option String) (style : Style) (text : String)
  | mapping (entries : List (Node × Node))
  | alias (slot : Nat)
  deriving Inhabited

/-- Where nothing is written. -/
def Node.empty : Node := .scalar none .plain ""

/-- A document. A text without any document has no root. -/
structure Document where
  root : Option Node
  /-- the anchored nodes, by the order in which they start -/
  anchored : List (Nat × Node)
  /-- for every slot the anchored node that fills it, latest first -/
  slots : List (Nat × Nat)

namespace Document

/-- A node that is no alias: the node itself, or what fills its slot. -/
def resolve (d : Document) : Node → Except Fault Node
  | .alias slot =>
    match (d.slots.lookup slot).bind fun n => d.anchored.lookup n with
    | some node => .ok node
    | none => .error .unknownAlias
  | node => .ok node

end Document

/-! ## Reading tokens -/

/-- What a reader of tokens knows. -/
structure Reader where
  tokens : List Token
  /-- the handles of tags with what they stand for -/
  handles : List (String × String) := []
  /-- the slots of names, latest first -/
  names : List (String × Nat) := []
  /-- the number of names that differ -/
  nameCount : Nat := 0
  anchorCount : Nat := 0
  anchored : List (Nat × Node) := []
  slots : List (Nat × Nat) := []

/-- Reading with a state. -/
abbrev ReadM := StateT Reader (Except Fault)

namespace Reader

def peek : ReadM (Option Token) := return (← get).tokens.head?

def skip : ReadM Unit := modify fun r => { r with tokens := r.tokens.drop 1 }

def refuse {α : Type} (f : Fault) : ReadM α := throw f

/-- A slot for an anchor; the answer is the anchor's number. -/
def reserve (name : String) : ReadM Nat := do
  let r ← get
  let known := (r.names.lookup name).isSome
  set { r with
    names := (name, r.nameCount) :: r.names
    nameCount := if known then r.nameCount else r.nameCount + 1
    slots := (r.nameCount, r.anchorCount) :: r.slots
    anchorCount := r.anchorCount + 1 }
  return r.anchorCount

/-- The slot that a name stands for. -/
def slotOf (name : String) : ReadM Nat := do
  match (← get).names.lookup name with
  | some slot => return slot
  | none => refuse .unknownAlias

/-- What a tag stands for. -/
def resolveTag (handle suffix : String) : ReadM String := do
  if handle.isEmpty then return suffix
  else match (← get).handles.lookup handle with
    | some start => return start ++ suffix
    | none => refuse .tag

/-- The anchor and tag in front of a node, in any order. -/
structure Properties where
  anchor : Option Nat := none
  tag : Option String := none

/-- An anchor, if it comes next. -/
def anchor? : ReadM (Option Nat) := do
  match ← peek with
  | some (.anchor name) =>
    skip
    return some (← reserve name)
  | _ => return none

/-- A tag, if it comes next. -/
def tag? : ReadM (Option String) := do
  match ← peek with
  | some (.tag handle suffix) =>
    skip
    return some (← resolveTag handle suffix)
  | _ => return none

/-- The properties in front of a node. -/
def properties : ReadM Properties := do
  let early ← anchor?
  let tag ← tag?
  let anchor ← if early.isNone && tag.isSome then anchor? else pure early
  return ⟨anchor, tag⟩

/-- Fill an anchor's place with its node. -/
def fill (anchor : Option Nat) (node : Node) : ReadM Node := do
  match anchor with
  | some n => modify fun r => { r with anchored := (n, node) :: r.anchored }
  | none => pure ()
  return node

/-- The next token starts no node. -/
def atNone (enders : List Token) : ReadM Bool := do
  match ← peek with
  | some t => return enders.contains t
  | none => return false

mutual

/-- A node. Every level of nesting and every entry takes one of the steps. -/
def node (steps : Nat) : ReadM Node := do
  match steps with
  | 0 => refuse .malformed
  | steps + 1 =>
    match ← peek with
    | some (.alias name) =>
      skip
      return .alias (← slotOf name)
    | _ =>
      let props ← properties
      match ← peek with
      | some (.scalar style text) =>
        skip
        fill props.anchor (.scalar props.tag style text)
      | some .flowStart =>
        skip
        fill props.anchor (.mapping (← flowEntries steps true))
      | some .mappingStart =>
        skip
        fill props.anchor (.mapping (← blockEntries steps))
      | _ =>
        if props.anchor.isSome || props.tag.isSome then
          fill props.anchor (.scalar props.tag .plain "")
        else refuse .malformed

/-- The entries of a block mapping up to its end. -/
def blockEntries (steps : Nat) : ReadM (List (Node × Node)) := do
  match steps with
  | 0 => refuse .malformed
  | steps + 1 =>
    match ← peek with
    | some .blockEnd =>
      skip
      return []
    | some .key =>
      skip
      let key ← if ← atNone [.key, .value, .blockEnd] then pure .empty else node steps
      let value ← match ← peek with
        | some .value => do
          skip
          if ← atNone [.key, .value, .blockEnd] then pure .empty else node steps
        | _ => pure .empty
      return (key, value) :: (← blockEntries steps)
    | _ => refuse .malformed

/-- The entries of a flow mapping up to its end. -/
def flowEntries (steps : Nat) (first : Bool) : ReadM (List (Node × Node)) := do
  match steps with
  | 0 => refuse .malformed
  | steps + 1 =>
    if ← atNone [.flowEnd] then
      skip
      return []
    else
      if !first then
        if ← atNone [.flowEntry] then skip else refuse .malformed
      match ← peek with
      | some .flowEnd =>
        skip
        return []
      | some .key =>
        skip
        let key ← if ← atNone [.value, .flowEntry, .flowEnd] then pure .empty else node steps
        let value ← match ← peek with
          | some .value => do
            skip
            if ← atNone [.flowEntry, .flowEnd] then pure .empty else node steps
          | _ => pure .empty
        return (key, value) :: (← flowEntries steps false)
      | _ =>
        let key ← node steps
        return (key, .empty) :: (← flowEntries steps false)

end

/-- The handles that every document knows. -/
def defaultHandles : List (String × String) := [("!", "!"), ("!!", "tag:yaml.org,2002:")]

/-- The directives in front of a document, after those already read: at most one version, 1.1 or
1.2, and every handle once. -/
def directives (version : Bool) (handles : List (String × String)) :
    List Token → Except Fault (List (String × String) × List Token)
  | .versionDirective major minor :: rest =>
    if !version && major = 1 && (minor = 1 || minor = 2) then directives true handles rest
    else .error .directive
  | .tagDirective handle start :: rest =>
    if (handles.lookup handle).isNone then directives version ((handle, start) :: handles) rest
    else .error .directive
  | rest => .ok (handles ++ defaultHandles, rest)

/-- A token starts a document of its own or ends one. -/
def isBoundary : Token → Bool
  | .versionDirective .. | .tagDirective .. | .documentStart | .documentEnd => true
  | _ => false

/-- The root of a document after its first line. -/
def root : ReadM Node := do
  match ← peek with
  | none => return .empty
  | some t => if isBoundary t then return .empty else node (2 * (← get).tokens.length)

/-- Nothing but ends of documents is left. -/
def isDone (r : Reader) : Bool := r.tokens.all (· == .documentEnd)

def document (root : ReadM Node) (r : Reader) : Except Fault Document := do
  let (node, after) ← root.run r
  if after.isDone then return ⟨some node, after.anchored, after.slots⟩ else .error .malformed

end Reader

namespace Document

/-- The document of a list of tokens; there can be no second one. A document without directives
needs no line in front. -/
def ofTokens (tokens : List Token) : Except Fault Document :=
  match tokens with
  | [] => .ok ⟨none, [], []⟩
  | first :: _ =>
    if Reader.isBoundary first && first ≠ .documentEnd then do
      let (handles, rest) ← Reader.directives false [] tokens
      match rest with
      | .documentStart :: body => Reader.document Reader.root { tokens := body, handles := handles }
      | _ => .error .malformed
    else
      Reader.document (Reader.node (2 * tokens.length))
        { tokens := tokens, handles := Reader.defaultHandles }

/-- The document of a text. -/
def ofText (s : String) : Except Fault Document := do ofTokens (← tokens s)

end Document

end SyntaxGraph.Yaml
