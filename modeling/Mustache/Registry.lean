import Mustache.Adapter
import Mustache.Note

/-!
Which adapter reads which value. An adapter is registered for a class and serves
the classes below it too: of the classes a value has, the nearest one with an
adapter decides, and of its adapters the one registered last. Other values are
read by a rule about the kinds of their classes. What a lineage was found to need
is remembered until the next registration.
-/

namespace Mustache

namespace ClassName

def isMapping : ClassName → Bool
  | .dict | .userDict | .defaultDict | .raisingMap | .abstractMapping => true
  | _ => false

def isScalar : ClassName → Bool
  | .bool | .int | .float | .decimal | .fraction | .str | .bytes | .bytearray => true
  | _ => false

def isSequence : ClassName → Bool
  | .range | .list | .tuple | .set | .frozenSet | .deque | .userList | .orderedSet
  | .abstractSet | .abstractSequence => true
  | _ => false

end ClassName

/-- The adapter for a lineage of whose classes none has an adapter registered. A class is of
the kinds of the classes above it. -/
def Adapter.builtIn (lineage : List ClassName) : Adapter :=
  if lineage.contains .namedTuple then .object
  else if lineage.any ClassName.isMapping then .mapping
  else if lineage.any ClassName.isScalar then .scalar
  else if lineage.any ClassName.isSequence then .sequence
  else .object

structure Registry where
  registered : List (ClassName × Adapter)
  remembered : List (List ClassName × Adapter)

namespace Registry

def fresh : Registry := ⟨[(.reference, .reference)], []⟩

def standard : Registry :=
  ⟨[(.customOnce, .once), (.customList, .reversed), (.loudBox, .loud), (.box, .box),
    (.reference, .reference)], []⟩

def registered? (registry : Registry) (name : ClassName) : Option Adapter :=
  (registry.registered.find? fun pair => pair.1 = name).map (·.2)

def register (name : ClassName) (adapter : Adapter) (registry : Registry) : Registry :=
  ⟨(name, adapter) :: registry.registered, []⟩

def registerNotes (name : ClassName) (registry : Registry) : List Note :=
  if (registry.registered? name).isSome then [.adapterReplaced name.name] else []

def resolve (registry : Registry) (lineage : List ClassName) : Adapter :=
  (lineage.findSome? registry.registered?).getD (.builtIn lineage)

/-- The adapter for a value, remembered for the next of its lineage. -/
def adapterFor (registry : Registry) (v : Value) : Adapter × Registry :=
  match registry.remembered.find? fun pair => pair.1 = v.lineage with
  | some pair => (pair.2, registry)
  | none =>
      let adapter := registry.resolve v.lineage
      (adapter, { registry with remembered := (v.lineage, adapter) :: registry.remembered })

def adapterOf (registry : Registry) (v : Value) : Adapter := (registry.adapterFor v).1

end Registry
end Mustache
