import Mustache.Calendar
import Mustache.ClassName
import Mustache.Number.Binary64
import Mustache.Text.Quoted

/-!
The data a template is rendered with. A value is a finite tree. The only parts of
it that change are the counts of counting functions and the entries of mappings:
some make up an entry when they are asked for an absent key, and the host may edit
those it passes as partials. A value names such a part by an address, and the parts
themselves are kept by the host, so that one part may be shared by several values.
-/

namespace Mustache

inductive HostErrorKind where
  | runtime
  | value
  | type
  | attribute
  | key
  | os
  | zeroDivision
  | lookup
  deriving DecidableEq

structure HostError where
  kind : HostErrorKind
  argument : Text
  deriving DecidableEq

/-- A key error shows its key as a quoted text. -/
def HostError.message (error : HostError) : Text :=
  match error.kind with
  | .key => error.argument.quoted
  | _ => error.argument

/-- Where the host keeps a changing part. What a mapping makes up has slots below the
mapping's own. -/
abbrev Slot := List Nat

inductive Address where
  | fixed (slot : Slot)
  /-- Below the slot of whatever makes the value up. -/
  | below (slot : Slot)
  deriving DecidableEq

def Address.within (base : Slot) : Address → Slot
  | .fixed slot => slot
  | .below slot => base ++ slot

def Address.moveTo (base : Slot) (address : Address) : Address := .fixed (address.within base)

inductive Act where
  | returns
  | raises (error : HostError)
  | counts (address : Address)
  deriving DecidableEq

def Act.moveTo (base : Slot) : Act → Act
  | .counts address => .counts (address.moveTo base)
  | act => act

inductive ParameterKind where
  | positionalOnly
  | positionalOrKeyword
  | varPositional
  | keywordOnly
  | varKeyword
  deriving DecidableEq

structure Parameter where
  kind : ParameterKind
  hasDefault : Bool
  deriving DecidableEq

/-- Whether a call must give an argument. The parameters for any number of arguments also
take none. -/
def Parameter.isRequired (parameter : Parameter) : Bool :=
  match parameter.kind with
  | .varPositional | .varKeyword => false
  | .positionalOnly | .positionalOrKeyword | .keywordOnly => !parameter.hasDefault

structure Call where
  /-- What is left to be given where the function is read; `none` if this cannot be told. -/
  parameters : Option (List Parameter)
  act : Act
  /-- Whether the function becomes a method when it is read from an object. -/
  isMethod : Bool
  deriving DecidableEq

def Call.needsArguments (call : Call) : Bool :=
  match call.parameters with
  | none => true
  | some parameters => parameters.any Parameter.isRequired

inductive Access where
  /-- An attribute of the object itself. -/
  | field
  /-- An attribute of the object's class, such as a method. -/
  | shared
  /-- An attribute whose value a function gives on every access. -/
  | computed
  /-- An attribute found only where nothing else has its name. -/
  | dynamic
  deriving DecidableEq

structure Look where
  className : Text
  truth : Option Bool
  length : Option Nat
  text : Option Text
  showsFields : Bool
  deriving DecidableEq

inductive NumberForm where
  | decimal
  | fraction
  deriving DecidableEq

inductive SequenceShape where
  | list
  | tuple
  | set
  | frozenSet
  | deque
  | userList
  | orderedSet
  deriving DecidableEq

inductive MappingShape where
  | dict
  | userDict
  /-- Asking for an absent key raises an error. -/
  | raising (error : HostError)
  deriving DecidableEq

inductive Layer where
  | reference
  | box
  | subBox
  | loudBox
  deriving DecidableEq

inductive Value where
  | null
  /-- Stands for a value that was not found. -/
  | missing
  | bool (b : Bool)
  | int (n : Int)
  | float (x : Binary64)
  | exactNumber (form : NumberForm) (text : Text)
  | str (text : Text)
  | bytes (isMutable : Bool) (content : List UInt8)
  | moment (m : Moment)
  /-- The numbers from zero up to `stop`, which is none of them. -/
  | range (stop : Int)
  | sequence (shape : SequenceShape) (items : List Value)
  /-- A mapping without an address is never edited. -/
  | mapping (shape : MappingShape) (address : Option Address) (entries : List (Value × Value))
  /-- A mapping that puts a new `fill` under every absent key it is asked for. -/
  | filling (address : Address) (entries : List (Value × Value)) (fill : Value)
  | namedTuple (className : Text) (fields : List (Text × Value))
  | object (look : Look) (members : List (Text × Access × Value))
  /-- A function; `result` is what it returns if it returns a fixed value. -/
  | function (call : Call) (result : Value)
  /-- A layer around `inner`; `exposed` are the names the layer answers itself. -/
  | wrapped (layer : Layer) (exposed : List (Text × Value)) (inner : Value)
  | reversedList (text : Text) (items : List Value)
  | onceList (text : Text)
  /-- An object without members, of a class with this lineage. -/
  | bare (lineage : List ClassName)
  deriving Inhabited

namespace Value

def isMissing : Value → Bool
  | .missing => true
  | _ => false

def isNull : Value → Bool
  | .null => true
  | _ => false

def isAbsent (v : Value) : Bool := v.isNull || v.isMissing

def lineage : Value → List ClassName
  | .null => ClassName.noneType.lineage
  | .missing => ClassName.missing.lineage
  | .bool _ => ClassName.bool.lineage
  | .int _ => ClassName.int.lineage
  | .float _ => ClassName.float.lineage
  | .exactNumber .decimal _ => ClassName.decimal.lineage
  | .exactNumber .fraction _ => ClassName.fraction.lineage
  | .str _ => ClassName.str.lineage
  | .bytes isMutable _ => (if isMutable then ClassName.bytearray else ClassName.bytes).lineage
  | .moment (.day _) => ClassName.date.lineage
  | .moment (.time _ _) => ClassName.dateTime.lineage
  | .range _ => ClassName.range.lineage
  | .sequence .list _ => ClassName.list.lineage
  | .sequence .tuple _ => ClassName.tuple.lineage
  | .sequence .set _ => ClassName.set.lineage
  | .sequence .frozenSet _ => ClassName.frozenSet.lineage
  | .sequence .deque _ => ClassName.deque.lineage
  | .sequence .userList _ => ClassName.userList.lineage
  | .sequence .orderedSet _ => ClassName.orderedSet.lineage
  | .mapping .dict _ _ => ClassName.dict.lineage
  | .mapping .userDict _ _ => ClassName.userDict.lineage
  | .mapping (.raising _) _ _ => ClassName.raisingMap.lineage
  | .filling _ _ _ => ClassName.defaultDict.lineage
  | .namedTuple _ _ => ClassName.namedTuple.lineage
  | .object _ _ => ClassName.record.lineage
  | .function call _ => (if call.isMethod then ClassName.method else .function).lineage
  | .wrapped .reference _ _ => ClassName.reference.lineage
  | .wrapped .box _ _ => ClassName.box.lineage
  | .wrapped .subBox _ _ => ClassName.subBox.lineage
  | .wrapped .loudBox _ _ => ClassName.loudBox.lineage
  | .reversedList _ _ => ClassName.customList.lineage
  | .onceList _ => ClassName.customOnce.lineage
  | .bare lineage => lineage

def typeName (v : Value) : Text :=
  match v with
  | .object look _ => look.className
  | .namedTuple className _ => className
  | v => (v.lineage.head?.getD .object).name

def fullTypeName (v : Value) : Text :=
  match v with
  | .object _ _ | .namedTuple _ _ => v.typeName
  | v => (v.lineage.head?.getD .object).fullName

/-! A new copy of a value made up at `base`. -/

mutual
def moveTo (base : Slot) : Value → Value
  | .sequence shape items => .sequence shape (moveAll base items)
  | .mapping shape address entries =>
      .mapping shape (address.map (·.moveTo base)) (moveEntries base entries)
  | .filling address entries fill => .filling (address.moveTo base) (moveEntries base entries) fill
  | .namedTuple className fields => .namedTuple className (moveFields base fields)
  | .object look members => .object look (moveMembers base members)
  | .function call result =>
      .function { call with act := call.act.moveTo base } (result.moveTo base)
  | .wrapped layer exposed inner =>
      .wrapped layer (moveFields base exposed) (inner.moveTo base)
  | .reversedList text items => .reversedList text (moveAll base items)
  | v => v

def moveAll (base : Slot) : List Value → List Value
  | [] => []
  | v :: rest => v.moveTo base :: moveAll base rest

def moveEntries (base : Slot) : List (Value × Value) → List (Value × Value)
  | [] => []
  | (key, v) :: rest => (key.moveTo base, v.moveTo base) :: moveEntries base rest

def moveFields (base : Slot) : List (Text × Value) → List (Text × Value)
  | [] => []
  | (name, v) :: rest => (name, v.moveTo base) :: moveFields base rest

def moveMembers (base : Slot) : List (Text × Access × Value) → List (Text × Access × Value)
  | [] => []
  | (name, access, v) :: rest => (name, access, v.moveTo base) :: moveMembers base rest
end

def find? {α : Type} (name : Text) : List (Value × α) → Option α
  | [] => none
  | (.str key, v) :: rest => if key = name then some v else find? name rest
  | _ :: rest => find? name rest

theorem mem_of_find? {α : Type} {name : Text} {entries : List (Value × α)} {v : α}
    (found : find? name entries = some v) : (.str name, v) ∈ entries := by
  fun_induction find? name entries with
  | case1 => cases found
  | case2 w rest =>
      cases found
      exact List.mem_cons_self
  | case3 key w rest _ ih => exact List.mem_cons_of_mem _ (ih found)
  | case4 first rest _ ih => exact List.mem_cons_of_mem _ (ih found)

def field? (name : Text) (fields : List (Text × Value)) : Option Value :=
  (fields.find? fun field => field.1 = name).map (·.2)

def isZeroText (t : Text) : Bool :=
  let digits := (t.takeWhile fun c => c != 'e' && c != 'E' && c != '/').filter Char.isAlphanum
  digits != [] && digits.all (· = '0')

/-! Errors about what a value's class lacks. -/

def typeError (before after : String) (v : Value) : HostError :=
  ⟨.type, before.toList ++ v.fullTypeName ++ after.toList⟩

def noLength : Value → HostError := typeError "object of type '" "' has no len()"

def notIterable : Value → HostError := typeError "'" "' object is not iterable"

def notCallable : Value → HostError := typeError "'" "' object is not callable"

/-- An object with dynamic members only repeats the name that it lacks. -/
def noAttribute (v : Value) (name : Text) : HostError :=
  let plain : HostError := ⟨.attribute,
    ['\''] ++ v.fullTypeName ++ "' object has no attribute '".toList ++ name ++ ['\'']⟩
  match v with
  | .object _ members => if members.any (·.2.1 = .dynamic) then ⟨.attribute, name⟩ else plain
  | _ => plain

def notKeyed (v : Value) : HostError :=
  let positions (name : String) : HostError :=
    ⟨.type, name.toList ++ " indices must be integers or slices, not str".toList⟩
  match v with
  | .sequence .list _ | .sequence .userList _ => positions "list"
  | .sequence .tuple _ | .namedTuple _ _ => positions "tuple"
  | .sequence .deque _ => ⟨.type, "sequence index must be integer, not 'str'".toList⟩
  | .range _ => positions "range"
  | .bytes isMutable _ => positions (if isMutable then "bytearray" else "byte")
  | .str _ => ⟨.type, "string indices must be integers, not 'str'".toList⟩
  | v => v.typeError "'" "' object is not subscriptable"

end Value
end Mustache
