import Mustache.Host
import Mustache.Number.Shortest

/-!
The text of a value. A text shows as itself on its own and in quotes within
another value; a container shows the text of its members.
-/

namespace Mustache

def hexByte (b : UInt8) : Text := Text.hexOf 2 b.toNat

/-- Bytes in quotes: what is printable in ASCII as itself, the rest by number. Of changing
bytes every apostrophe is escaped, between any quotes. -/
def quotedBytes (isMutable : Bool) (content : List UInt8) : Text :=
  let chars := content.map fun b => Char.ofNat b.toNat
  let quote := Text.quoteFor chars
  let show1 (b : UInt8) : Text :=
    let c := Char.ofNat b.toNat
    if isMutable ∧ c = '\'' then ['\\', c]
    else if c = quote ∨ c = '\\' ∨ c = '\n' ∨ c = '\r' ∨ c = '\t' then Text.quoteChar quote c
    else if 32 ≤ b && b < 127 then [c]
    else '\\' :: 'x' :: hexByte b
  'b' :: quote :: (content.flatMap show1 ++ [quote])

def showCall (name : Text) (argument : Text) : Text := name ++ ['('] ++ argument ++ [')']

def showExact (form : NumberForm) (text : Text) : Text :=
  match form with
  | .decimal => showCall "Decimal".toList text.quoted
  | .fraction =>
      let denominator := (text.dropWhile (· != '/')).drop 1
      showCall "Fraction".toList
        (text.takeWhile (· != '/') ++ [',', ' '] ++
          (if denominator = [] then ['1'] else denominator))

def showItems (shape : SequenceShape) (items : List Text) : Text :=
  let list := Text.listed ['['] [']'] items
  match shape with
  | .list | .userList => list
  | .tuple => Text.tupled items
  | .set => if items = [] then "set()".toList else Text.listed ['\x7b'] ['\x7d'] items
  | .frozenSet =>
      showCall "frozenset".toList
        (if items = [] then [] else Text.listed ['\x7b'] ['\x7d'] items)
  | .deque => showCall "deque".toList list
  | .orderedSet => showCall "OrderedSet".toList list

def showEntries (entries : List (Value × Text × Text)) : Text :=
  Text.listed ['\x7b'] ['\x7d']
    (entries.map fun entry => entry.2.1 ++ [':', ' '] ++ entry.2.2)

def entriesAfter (changes : List Change) (made : Nat → Text → Text)
    (entries : List (Value × Text × Text)) : List (Value × Text × Text) :=
  Change.applyAll (fun index key => (key.quoted, made index key))
    (fun key text => (key.quoted, text.quoted)) 0 changes entries

def showFields (className : Text) (fields : List (Text × Text)) : Text :=
  showCall className (Text.join [',', ' '] (fields.map fun field => field.1 ++ ['='] ++ field.2))

def Layer.shown : Layer → Text → Text
  | .reference, _ => "<weakref>".toList
  | .box, inner | .subBox, inner => showCall "Box".toList inner
  | .loudBox, inner => showCall "LoudBox".toList inner

namespace Value

mutual
/-- The text of a value within another. `base` is the slot of whatever made it up. -/
def shownWithin (host : Host) (base : Slot) : Value → Text
  | .null => "None".toList
  | .missing => "MISSING".toList
  | .bool b => Text.ofBool b
  | .int n => Text.ofInt n
  | .float x => x.text
  | .exactNumber form text => showExact form text
  | .str text => text.quoted
  | .bytes isMutable content =>
      let quoted := quotedBytes isMutable content
      if isMutable then showCall "bytearray".toList quoted else quoted
  | .moment m => m.shown
  | .range stop => showCall "range".toList ("0, ".toList ++ Text.ofInt stop)
  | .sequence shape items => showItems shape (itemsWithin host base items)
  | .mapping shape address entries =>
      let entries := entriesWithin host base entries
      let shown := showEntries (match address with
        | none => entries
        | some address =>
            entriesAfter (host.changes (address.within base)) (fun _ key => key.quoted) entries)
      match shape with
      | .dict | .userDict => shown
      | .raising _ => showCall "RaisingMap".toList shown
  | .filling address entries fill =>
      let slot := address.within base
      let made (index : Nat) (_ : Text) := shownWithin host (slot ++ [index]) fill
      showCall "defaultdict".toList
        ("<factory>, ".toList ++
          showEntries (entriesAfter (host.changes slot) made (entriesWithin host base entries)))
  | .namedTuple className fields => showFields className (fieldsWithin host base fields)
  | .object look members =>
      if look.showsFields then showFields look.className (membersWithin host base members)
      else ['<'] ++ look.className ++ ['>']
  | .function _ _ => "<function>".toList
  | .wrapped layer _ inner => layer.shown (shownWithin host base inner)
  | .reversedList text _ => text
  | .onceList text => text
  | .bare lineage => ['<'] ++ (Value.bare lineage).typeName ++ ['>']

def itemsWithin (host : Host) (base : Slot) : List Value → List Text
  | [] => []
  | v :: rest => shownWithin host base v :: itemsWithin host base rest

def entriesWithin (host : Host) (base : Slot) :
    List (Value × Value) → List (Value × Text × Text)
  | [] => []
  | (key, v) :: rest =>
      (key, shownWithin host base key, shownWithin host base v) :: entriesWithin host base rest

def fieldsWithin (host : Host) (base : Slot) : List (Text × Value) → List (Text × Text)
  | [] => []
  | (name, v) :: rest => (name, shownWithin host base v) :: fieldsWithin host base rest

def membersWithin (host : Host) (base : Slot) :
    List (Text × Access × Value) → List (Text × Text)
  | [] => []
  | (name, access, v) :: rest =>
      match access with
      | .field => (name, shownWithin host base v) :: membersWithin host base rest
      | _ => membersWithin host base rest
end

def shownInside (host : Host) (v : Value) : Text := shownWithin host [] v

def shown (host : Host) : Value → Text
  | .str text => text
  | .exactNumber _ text => text
  | .object look members => look.text.getD (shownInside host (.object look members))
  | v => shownInside host v

end Value
end Mustache
