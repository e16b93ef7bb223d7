import Mustache.Text.Basic

/-!
The classes of values, and the order in which the classes above a class are
consulted. Every lineage ends with the class of all objects.
-/

namespace Mustache

inductive ClassName where
  | object
  | noneType
  | missing
  | bool
  | int
  | float
  | decimal
  | fraction
  | str
  | bytes
  | bytearray
  | date
  | dateTime
  | range
  | list
  | tuple
  | set
  | frozenSet
  | deque
  | userList
  | orderedSet
  | dict
  | userDict
  | defaultDict
  | raisingMap
  | abstractMapping
  | abstractSet
  | abstractSequence
  | namedTuple
  | record
  | function
  | method
  | reference
  | box
  | subBox
  | loudBox
  | customList
  | customOnce
  /-- A class the host defined; its number tells classes of one name apart. -/
  | defined (number : Nat) (name : Text)
  deriving DecidableEq

namespace ClassName

def name : ClassName → Text
  | .object => "object".toList
  | .noneType => "NoneType".toList
  | .missing => "_Missing".toList
  | .bool => "bool".toList
  | .int => "int".toList
  | .float => "float".toList
  | .decimal => "Decimal".toList
  | .fraction => "Fraction".toList
  | .str => "str".toList
  | .bytes => "bytes".toList
  | .bytearray => "bytearray".toList
  | .date => "date".toList
  | .dateTime => "datetime".toList
  | .range => "range".toList
  | .list => "list".toList
  | .tuple => "tuple".toList
  | .set => "set".toList
  | .frozenSet => "frozenset".toList
  | .deque => "deque".toList
  | .userList => "UserList".toList
  | .orderedSet => "OrderedSet".toList
  | .dict => "dict".toList
  | .userDict => "UserDict".toList
  | .defaultDict => "defaultdict".toList
  | .raisingMap => "RaisingMap".toList
  | .abstractMapping => "Mapping".toList
  | .abstractSet => "Set".toList
  | .abstractSequence => "Sequence".toList
  | .namedTuple => "tuple".toList
  | .record => "object".toList
  | .function => "function".toList
  | .method => "method".toList
  | .reference => "ReferenceType".toList
  | .box => "Box".toList
  | .subBox => "SubBox".toList
  | .loudBox => "LoudBox".toList
  | .customList => "CustomList".toList
  | .customOnce => "CustomOnce".toList
  | .defined _ name => name

def fullName : ClassName → Text
  | .decimal => "decimal.Decimal".toList
  | .date => "datetime.date".toList
  | .dateTime => "datetime.datetime".toList
  | .deque => "collections.deque".toList
  | .defaultDict => "collections.defaultdict".toList
  | .reference => "weakref.ReferenceType".toList
  | className => className.name

/-- A class and the classes above it, nearest first; for a class the host defined
only its own two ends are known from its name. -/
def lineage : ClassName → List ClassName
  | .object => [.object]
  | .bool => [.bool, .int, .object]
  | .userList => [.userList, .abstractSequence, .object]
  | .orderedSet => [.orderedSet, .abstractSet, .object]
  | .userDict => [.userDict, .abstractMapping, .object]
  | .dateTime => [.dateTime, .date, .object]
  | .defaultDict => [.defaultDict, .dict, .object]
  | .raisingMap => [.raisingMap, .abstractMapping, .object]
  | .namedTuple => [.namedTuple, .tuple, .object]
  | .subBox => [.subBox, .box, .object]
  | name => [name, .object]

inductive DefineError where
  | duplicateBase (base : ClassName)
  | inconsistent (heads : List ClassName)
  deriving DecidableEq

def DefineError.message : DefineError → Text
  | .duplicateBase base => "duplicate base class ".toList ++ base.name
  | .inconsistent heads =>
      "Cannot create a consistent method resolution\norder (MRO) for bases ".toList ++
        Text.join [',', ' '] (heads.map name)

def nextClass? (lines : List (List ClassName)) : Option ClassName :=
  (lines.filterMap List.head?).find? fun head => lines.all fun line => !(line.drop 1).contains head

/-- Merges lineages so that the order within each is kept. Every round takes a class
off at least one lineage, so as many rounds as they hold classes are enough. -/
def merge : Nat → List (List ClassName) → Except DefineError (List ClassName)
  | 0, _ => .ok []
  | rounds + 1, lines =>
      let left := lines.filter (· ≠ [])
      if left = [] then .ok []
      -- A class waits while any lineage still has it behind another class.
      else match nextClass? left with
        | none => .error (.inconsistent (left.filterMap List.head?).eraseDups)
        | some head =>
            let shorter := left.map fun line => if line.head? = some head then line.drop 1 else line
            (merge rounds shorter).map (head :: ·)

def firstRepeated? : List ClassName → Option ClassName
  | [] => none
  | base :: rest => if rest.contains base then some base else firstRepeated? rest

def define (number : Nat) (name : Text) (bases : List (List ClassName)) :
    Except DefineError (List ClassName) :=
  let new := ClassName.defined number name
  let heads := bases.filterMap List.head?
  match firstRepeated? heads, bases with
  | some base, _ => .error (.duplicateBase base)
  | none, [] => .ok [new, .object]
  | none, _ =>
      let lines := bases ++ [heads]
      (merge (lines.flatten.length + 1) lines).map (new :: ·)

end ClassName
end Mustache
