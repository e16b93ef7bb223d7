import Mustache.Value.Key
import Mustache.Yaml.Build
import Mustache.Yaml.Node
import Mustache.Yaml.Plain

/-!
The values of YAML documents. A key must be new in its mapping; a sequence as a key is a
tuple. The entries of a mapping that is merged into another come before those of its own,
which go before them where the keys are equal. A key is built as a whole before its value,
and a collection after all that stands beside it.

These modules stand for the library that a host reads configuration files with.
`Options.load` takes any such reader, and nothing is proved of this one.
-/

namespace Mustache.Yaml

def truthTexts : List (Text × Bool) :=
  [("yes", true), ("no", false), ("y", true), ("n", false), ("true", true), ("false", false),
    ("on", true), ("off", false)].map fun pair => (pair.1.toList, pair.2)

def truthOf (t : Text) : Attempt Bool :=
  let lower := t.map Char.toLower
  match Node.lookUp lower truthTexts with
  | some b => .ok b
  | none => .error (.refused ⟨.key, lower⟩)

def taggedValue (tag t : Text) : Attempt Value :=
  if tag = Node.coreTag "str" then .ok (.str t)
  else if tag = Node.coreTag "null" then .ok .null
  else if tag = Node.coreTag "bool" then (truthOf t).map .bool
  else if tag = Node.coreTag "int" then (intOf t).map .int
  else if tag = Node.coreTag "float" then (floatOf t).map .float
  else if tag = Node.coreTag "timestamp" then
    match written? true t with
    | some w => w.moment.map .moment
    | none => malformed
  else malformed

def isPlainText (text : Text) : Node → Bool
  | .scalar none true t => t = text
  | _ => false

def keyOf (v : Value) : Attempt Value :=
  match v with
  | .sequence .list items => .ok (.sequence .tuple items)
  | .sequence .tuple items => .ok (.sequence .tuple items)
  | v => if v.changeable?.isSome then malformed else .ok v

def fit (key : Value) : Attempt Unit :=
  match Value.unfitKey? [key] with
  | some error => .error (.refused error)
  | none => .ok ()

def isNan : Value → Bool
  | .float .nan => true
  | _ => false

def isRepeated (a b : Value) : Bool := Value.sameKey a b || (isNan a && isNan b)

structure Part where
  key : Attempt Value
  value : Build Value

/-- The entries that `parts` make, after those with the keys `before`. Where they are `unique`
no key may come twice. -/
def gather (unique : Bool) (before : List Value) : List Part → Build (List (Value × Value))
  | [] => .ok []
  | part :: rest => do
      let key ← Build.atOnce part.key
      let later := do
        Build.atOnce (fit key)
        if unique && before.any (isRepeated · key) then Build.atOnce malformed
        else gather unique (key :: before) rest
      (part.value.both later).map fun (v, entries) => (key, v) :: entries

structure Parts where
  merged : List Part
  own : List Part
  hasMerge : Bool

def Parts.all (parts : Parts) : List Part := parts.merged ++ parts.own

def Parts.entries (parts : Parts) : Build (List (Value × Value)) :=
  if parts.merged.isEmpty then gather true [] parts.own
  else (gather false [] parts.all).map Value.entriesOf

mutual
def valueOf (deferred : Bool) : Node → Build Value
  | .scalar none isPlain text => .atOnce (if isPlain then plainValue text else .ok (.str text))
  | .scalar (some tag) _ text => .atOnce (taggedValue tag text)
  | .sequence tag items =>
      if tag = none ∨ tag = some (Node.coreTag "seq") then
        .collection deferred ((valuesOf deferred items).map (.sequence .list))
      else if tag = some (Node.coreTag "pairs") then
        .collection deferred ((pairsOf deferred items).map (.sequence .list))
      else .atOnce malformed
  | .mapping tag entries =>
      if tag = none ∨ tag = some (Node.coreTag "map") then
        .collection deferred do
          pure (.mapping .dict none (← (← .atOnce (partsOf deferred entries)).entries))
      else if tag = some (Node.coreTag "set") then
        .collection deferred do
          let entries ← (← .atOnce (partsOf deferred entries)).entries
          pure (.sequence .set (entries.map (·.1)))
      else .atOnce malformed

def valuesOf (deferred : Bool) : List Node → Build (List Value)
  | [] => .ok []
  | node :: rest =>
      ((valueOf deferred node).both (valuesOf deferred rest)).map fun (v, later) => v :: later

def partsOf (deferred : Bool) : List (Node × Node) → Attempt Parts
  | [] => .ok ⟨[], [], false⟩
  | (key, node) :: rest =>
      if isPlainText mergeText key then do
        let merged ← mergedBy deferred node
        let parts ← partsOf deferred rest
        if parts.hasMerge ∧ !merged.isEmpty then malformed
        else pure ⟨merged ++ parts.merged, parts.own, true⟩
      else do
        let built := if isPlainText valueText key then .ok (.str valueText)
          else (valueOf false key).attempt >>= keyOf
        let parts ← partsOf deferred rest
        pure { parts with own := ⟨built, valueOf deferred node⟩ :: parts.own }

/-- The parts that a node brings into a mapping: its own, or those of several mappings, of
which the first goes before the others. -/
def mergedBy (deferred : Bool) : Node → Attempt (List Part)
  | .mapping _ entries => (partsOf deferred entries).map Parts.all
  | .sequence _ items => mergedByAll deferred items
  | .scalar _ _ _ => malformed

def mergedByAll (deferred : Bool) : List Node → Attempt (List Part)
  | [] => .ok []
  | .mapping _ entries :: rest => do
      let first ← partsOf deferred entries
      pure ((← mergedByAll deferred rest) ++ first.all)
  | _ :: _ => malformed

def pairsOf (deferred : Bool) : List Node → Build (List Value)
  | [] => .ok []
  | .mapping _ [(key, node)] :: rest =>
      let pair : Build Value := ((valueOf deferred key).both (valueOf deferred node)).map
        fun (key, v) => Value.sequence .tuple [key, v]
      (pair.both (pairsOf deferred rest)).map fun (v, later) => v :: later
  | _ :: _ => .atOnce malformed
end

def unifyBreaks : Text → Text
  | [] => []
  | '\r' :: '\n' :: rest => '\n' :: unifyBreaks rest
  | '\r' :: rest => '\n' :: unifyBreaks rest
  | c :: rest => c :: unifyBreaks rest

def isAllowed (c : Char) : Bool :=
  let n := c.toNat
  n = 9 || n = 10 || n = 13 || (32 ≤ n && n ≤ 126) || n = 0x85 || (0xA0 ≤ n && n ≤ 0xFFFD) ||
    0x10000 ≤ n

def document (source : Text) : Attempt Value := do
  let text := unifyBreaks source
  if !text.all isAllowed then malformed
  else match ← Node.ofTokens (← tokens text) with
    | some node => (valueOf true node).attempt
    | none => pure .null

end Mustache.Yaml
