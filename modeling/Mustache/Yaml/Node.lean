import Mustache.Yaml.Token

/-!
The tree of a YAML document. An alias stands for the node that was given its name last,
so that a tree holds no names any more; a node cannot hold itself. The readers take steps
as long as there are tokens.
-/

namespace Mustache.Yaml

inductive Node where
  /-- A plain scalar without a tag may stand for more than its text. -/
  | scalar (tag : Option Text) (isPlain : Bool) (text : Text)
  | sequence (tag : Option Text) (items : List Node)
  | mapping (tag : Option Text) (entries : List (Node × Node))
  deriving Inhabited

namespace Node

def omitted : Node := .scalar none true []

structure Supply where
  tokens : List Token
  named : List (Text × Node)
  handles : List (Text × Text)

abbrev Read := StateT Supply Attempt

def coreTag (name : String) : Text := "tag:yaml.org,2002:".toList ++ name.toList

def usualHandles : List (Text × Text) := [("!".toList, "!".toList), ("!!".toList, coreTag "")]

def failed {α : Type} : Read α := fun _ => malformed

def peek : Read (Option Token) := return (← get).tokens.head?

def advance : Read Unit := modify fun s => { s with tokens := s.tokens.drop 1 }

def isNext (tokens : List Token) : Read Bool := return (← peek).any (tokens.contains ·)

def expect (token : Token) : Read Unit := do
  if ← isNext [token] then advance else failed

def lookUp {α : Type} (name : Text) (pairs : List (Text × α)) : Option α :=
  (pairs.find? fun pair => pair.1 = name).map (·.2)

def aliased (name : Text) : Read Node := do
  match lookUp name (← get).named with
  | some node => return node
  | none => failed

def takeName (name : Text) : Read Unit :=
  modify fun s => { s with named := s.named.filter fun pair => pair.1 ≠ name }

def giveName (name : Text) (node : Node) : Read Unit :=
  modify fun s =>
    if (lookUp name s.named).isSome then s else { s with named := (name, node) :: s.named }

def wholeTag (handle : Option Text) (suffix : Text) : Read Text := do
  match handle with
  | none => return suffix
  | some handle =>
      match lookUp handle (← get).handles with
      | some meaning => return meaning ++ suffix
      | none => failed

structure Properties where
  name : Option Text
  tag : Option Text

def readName : Read (Option Text) := do
  match ← peek with
  | some (.anchor name) => advance; return some name
  | _ => return none

def readTag : Read (Option Text) := do
  match ← peek with
  | some (.tag handle suffix) => advance; return some (← wholeTag handle suffix)
  | _ => return none

def properties : Read Properties := do
  match ← readName with
  | some name => return ⟨some name, ← readTag⟩
  | none =>
      match ← readTag with
      | some tag => return ⟨← readName, some tag⟩
      | none => return ⟨none, none⟩

def meaning (tag : Option Text) : Option Text := tag.filter (· ≠ ['!'])

mutual
/-- Reads a node. Block collections are read where `block` allows it, and items without a
block of their own where `bare` does. -/
def read : Nat → Bool → Bool → Read Node
  | 0, _, _ => failed
  | steps + 1, block, bare => do
      match ← peek with
      | some (.alias name) => advance; aliased name
      | _ =>
          let ⟨name, tag⟩ ← properties
          name.forM takeName
          let node ← readContent steps block bare (name.isSome || tag.isSome) tag
          name.forM (giveName · node)
          return node

def readContent : Nat → Bool → Bool → Bool → Option Text → Read Node
  | 0, _, _, _, _ => failed
  | steps + 1, block, bare, hasProperties, tag => do
      match ← peek with
      | some (.scalar text isPlain) =>
          advance
          return .scalar (meaning tag) ((isPlain && tag.isNone) || tag = some ['!']) text
      | some .flowSequence => advance; return .sequence (meaning tag) (← readFlowItems steps true)
      | some .flowMapping => advance; return .mapping (meaning tag) (← readFlowEntries steps true)
      | token =>
          if bare ∧ token = some .item then
            return .sequence (meaning tag) (← readBareItems steps)
          else if block ∧ token = some .blockSequence then
            advance; return .sequence (meaning tag) (← readItems steps)
          else if block ∧ token = some .blockMapping then
            advance; return .mapping (meaning tag) (← readEntries steps)
          else if hasProperties then
            return .scalar (meaning tag) (meaning tag).isNone []
          else failed

def readUnless : Nat → List Token → Bool → Read Node
  | 0, _, _ => failed
  | steps + 1, ends, bare => do
      if ← isNext ends then return omitted else read steps true bare

def readFlowUnless : Nat → List Token → Read Node
  | 0, _ => failed
  | steps + 1, ends => do
      if ← isNext ends then return omitted else read steps false false

def readItems : Nat → Read (List Node)
  | 0 => failed
  | steps + 1 => do
      if ← isNext [.item] then
        advance
        let item ← readUnless steps [.item, .blockEnd] false
        return item :: (← readItems steps)
      else
        expect .blockEnd
        return []

def readBareItems : Nat → Read (List Node)
  | 0 => failed
  | steps + 1 => do
      if ← isNext [.item] then
        advance
        let item ← readUnless steps [.item, .key, .value, .blockEnd] false
        return item :: (← readBareItems steps)
      else return []

def readEntries : Nat → Read (List (Node × Node))
  | 0 => failed
  | steps + 1 => do
      if ← isNext [.key, .value] then
        let key ← if ← isNext [.key] then do
            advance
            readUnless steps [.key, .value, .blockEnd] true
          else pure omitted
        let v ← if ← isNext [.value] then do
            advance
            readUnless steps [.key, .value, .blockEnd] true
          else pure omitted
        return (key, v) :: (← readEntries steps)
      else
        expect .blockEnd
        return []

def readFlowItems : Nat → Bool → Read (List Node)
  | 0, _ => failed
  | steps + 1, isFirst => do
      if ← isNext [.flowSequenceEnd] then
        advance
        return []
      else
        if !isFirst then expect .comma
        if ← isNext [.flowSequenceEnd] then
          advance
          return []
        else if ← isNext [.key] then
          advance
          let key ← readFlowUnless steps [.value, .comma, .flowSequenceEnd]
          let v ← if ← isNext [.value] then do
              advance
              readFlowUnless steps [.comma, .flowSequenceEnd]
            else pure omitted
          return .mapping none [(key, v)] :: (← readFlowItems steps false)
        else
          let item ← read steps false false
          return item :: (← readFlowItems steps false)

def readFlowEntries : Nat → Bool → Read (List (Node × Node))
  | 0, _ => failed
  | steps + 1, isFirst => do
      if ← isNext [.flowMappingEnd] then
        advance
        return []
      else
        if !isFirst then expect .comma
        if ← isNext [.flowMappingEnd] then
          advance
          return []
        else if ← isNext [.key, .value] then
          let key ← if ← isNext [.key] then do
              advance
              readFlowUnless steps [.value, .comma, .flowMappingEnd]
            else pure omitted
          let v ← if ← isNext [.value] then do
              advance
              readFlowUnless steps [.comma, .flowMappingEnd]
            else pure omitted
          return (key, v) :: (← readFlowEntries steps false)
        else
          let key ← read steps false false
          return (key, omitted) :: (← readFlowEntries steps false)
end

/-- Reads directives. Each handle, and the version, may be given once; `versioned` tells
whether it has been. -/
def readDirectives : Nat → Bool → Read Unit
  | 0, _ => failed
  | steps + 1, versioned => do
      match ← peek with
      | some .directive => advance; readDirectives steps versioned
      | some (.version major) =>
          if versioned ∨ major ≠ 1 then failed else advance; readDirectives steps true
      | some (.handle name meaning) =>
          if (lookUp name (← get).handles).isSome then failed
          else
            advance
            modify fun s => { s with handles := (name, meaning) :: s.handles }
            readDirectives steps versioned
      | _ => return

def readDocument (steps : Nat) : Read (Option Node) := do
  match ← peek with
  | none => return none
  | some (.version _) | some (.handle _ _) | some .directive | some .documentStart =>
      readDirectives steps false
      modify fun s => { s with handles := s.handles ++ usualHandles }
      expect .documentStart
      match ← peek with
      | none | some (.version _) | some (.handle _ _) | some .directive | some .documentStart
      | some .documentEnd => return some omitted
      | _ => return some (← read steps true false)
  | _ =>
      modify fun s => { s with handles := usualHandles }
      return some (← read steps true false)

def ofTokens (tokens : List Token) : Attempt (Option Node) := do
  let (node, after) ← (readDocument (4 * tokens.length + 16)).run ⟨tokens, [], []⟩
  if after.tokens = [] ∨ after.tokens = [.documentEnd] then pure node else malformed

end Node
end Mustache.Yaml
