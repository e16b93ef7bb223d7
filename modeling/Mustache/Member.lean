import Mustache.Host

/-!
What a value holds under a name: methods, attributes and entries, and the content of
those values that are layers around another. `Value.missing` answers a name that is not
found. What is inside a value is smaller than the value, so layers come to an end.

Left out are the members of the host's built-in types, such as those of texts, lists and
dates: their values answer no name but the keys they hold.
-/

namespace Mustache

inductive Opening where
  | closed
  | opens (inner : Value)
  /-- What is inside is the count of a counting function. -/
  | counts (slot : Slot)
  | fails (error : HostError)

inductive Held where
  /-- A function, which is called under its name. -/
  | routine (call : Call) (result : Value)
  | computed (call : Call) (result : Value)
  | plain (v : Value)

/-- A function is a routine where the object or its class holds it. What a dynamic member
makes up is not. -/
def Access.holds : Access → Value → Held
  | .field, .function call result | .shared, .function call result => .routine call result
  | .computed, .function call result => .computed call result
  | _, v => .plain v

def Held.value : Held → Value
  | .routine call result | .computed call result => .function call result
  | .plain v => v

@[simp] theorem Access.value_holds (access : Access) (v : Value) :
    (access.holds v).value = v := by
  unfold Access.holds
  split <;> rfl

theorem Value.function_or_data (v : Value) :
    (∃ call result, v = .function call result) ∨ ∀ call result, v ≠ .function call result := by
  by_cases function : ∃ call result, v = .function call result
  · exact .inl function
  · exact .inr fun call result same => function ⟨call, result, same⟩

theorem Access.holds_data (access : Access) {v : Value}
    (data : ∀ call result, v ≠ .function call result) : access.holds v = .plain v := by
  unfold Access.holds
  split
  · exact absurd rfl (data _ _)
  · exact absurd rfl (data _ _)
  · exact absurd rfl (data _ _)
  · rfl

def Call.opening (call : Call) (result : Value) : Opening :=
  match call.act with
  | .returns => .opens result
  | .raises error => .fails error
  | .counts address => .counts (address.within [])

def countCall (slot : Slot) : Eval Value := do
  modify (Host.countCall slot)
  return .int ((← get).calls slot)

def Opening.take (opening : Opening) (v : Value) : Eval Value :=
  match opening with
  | .closed => return v
  | .opens inner => return inner
  | .counts slot => countCall slot
  | .fails error => throw (.host error)

def Call.run (call : Call) (result : Value) : Eval Value := (call.opening result).take result

namespace Value

def isPrivate (name : Text) : Bool := name.head? = some '_'

def member? (name : Text) (members : List (Text × Access × Value)) : Option (Access × Value) :=
  (members.find? fun member => member.1 = name && member.2.1 != .dynamic).map (·.2)

def dynamicMember? (name : Text) (members : List (Text × Access × Value)) : Option Value :=
  (members.find? fun member => member.1 = name && member.2.1 == .dynamic).map (·.2.2)

def dynamicMember (name : Text) (members : List (Text × Access × Value)) : Value :=
  (dynamicMember? name members).getD .missing

def held? (name : Text) (members : List (Text × Access × Value)) : Option Held :=
  (member? name members).map fun member => member.1.holds member.2

def invoke (v : Value) (name : Text) : Eval Value :=
  if isPrivate name then return .missing
  else match v with
    | .object _ members =>
        match held? name members with
        | some (.routine call result) =>
            if call.needsArguments then return .missing else call.run result
        | _ => return .missing
    | _ => return .missing

/-- The value of a computed member; an attribute error means that it has none. -/
def computed (call : Call) (result otherwise : Value) : Eval Value :=
  match call.act with
  | .raises ⟨.attribute, _⟩ => return otherwise
  | _ => call.run result

def editError? (host : Host) (v : Value) (change : Change) : Option HostError :=
  let refused (before after : String) : Option HostError := some (v.typeError before after)
  match v, change with
  | .mapping (.raising _) _ _, .erase _ => refused "'" "' object doesn't support item deletion"
  | .mapping (.raising _) _ _, _ => refused "'" "' object does not support item assignment"
  | .mapping _ _ _, .erase name | .filling _ _ _, .erase name =>
      if (find? name (host.entries v)).isNone then some ⟨.key, name⟩ else none
  | .mapping _ _ _, _ | .filling _ _ _, _ => none
  | v, _ => some v.notKeyed

def edit (v : Value) (change : Change) : Eval Unit := do
  match v.editError? (← get) change, v with
  | some error, _ => throw (.host error)
  | none, .mapping _ (some address) _ | none, .filling address _ _ =>
      modify (Host.change (address.within []) change)
  | none, _ => return

def contentName : Text := "value".toList

def exposedName : Text := "members".toList

def exposedMapping (exposed : List (Text × Value)) : Value :=
  .mapping .dict none (exposed.map fun field => (.str field.1, field.2))

def attributeOf (v : Value) (name : Text) : Eval Value :=
  if isPrivate name then return .missing
  else match v with
    | .object _ members =>
        match held? name members with
        | some (.routine _ _) => return .missing
        | some (.computed call result) => computed call result (dynamicMember name members)
        | some (.plain v) => return v
        | none => return dynamicMember name members
    | .namedTuple _ fields => return (field? name fields).getD .missing
    | .wrapped .reference _ _ => return .missing
    | .wrapped layer exposed inner =>
        if name = contentName then return inner
        else if layer = .loudBox ∧ name = exposedName then return exposedMapping exposed
        else return .missing
    | _ => return .missing

/-- Looks a key up. A key error or a type error means that it is absent. -/
def entry (v : Value) (name : Text) : Eval Value := do
  match (← get).entry v name with
  | .found v => return v
  | .absent => return .missing
  | .made slot v =>
      modify (Host.change slot (.fill name))
      return v
  | .fails error =>
      if error.kind = .key ∨ error.kind = .type then return .missing else throw (.host error)

def dynamicContent (v : Value) (members : List (Text × Access × Value)) : Opening :=
  match dynamicMember? contentName members with
  | some inner => .opens inner
  | none => .fails (v.noAttribute contentName)

/-- Looks into a value as into a box: whatever it holds as its content is inside. -/
def content (v : Value) : Opening :=
  match v with
  | .wrapped .reference _ _ => .fails (v.noAttribute contentName)
  | .wrapped _ _ inner => .opens inner
  | .namedTuple _ fields =>
      match field? contentName fields with
      | some inner => .opens inner
      | none => .fails (v.noAttribute contentName)
  | .object _ members =>
      match held? contentName members with
      | some (.routine call result) => .opens (.function call result)
      | some (.computed call result) =>
          match call.act with
          | .raises ⟨.attribute, argument⟩ =>
              if members.any (·.2.1 = .dynamic) then dynamicContent v members
              else .fails ⟨.attribute, argument⟩
          | _ => call.opening result
      | some (.plain inner) => .opens inner
      | none => dynamicContent v members
  | v => .fails (v.noAttribute contentName)

end Value

/-! What is inside a value is smaller than the value. -/

namespace Value

theorem size_member {name : Text} {members : List (Text × Access × Value)} {access : Access}
    {inner : Value} (found : member? name members = some (access, inner)) :
    sizeOf inner < sizeOf members := by
  obtain ⟨⟨first, reached⟩, here, same⟩ := Option.map_eq_some_iff.mp found
  have smaller := List.sizeOf_lt_of_mem (List.mem_of_find?_eq_some here)
  cases same
  simp only [Prod.mk.sizeOf_spec] at smaller
  omega

theorem member_of_held {name : Text} {members : List (Text × Access × Value)} {held : Held}
    (found : held? name members = some held) :
    ∃ access, member? name members = some (access, held.value) := by
  obtain ⟨⟨access, v⟩, here, rfl⟩ := Option.map_eq_some_iff.mp found
  exact ⟨access, by rw [Access.value_holds, here]⟩

theorem size_held {name : Text} {members : List (Text × Access × Value)} {held : Held}
    (found : held? name members = some held) : sizeOf held.value < sizeOf members := by
  obtain ⟨access, here⟩ := member_of_held found
  exact size_member here

theorem size_dynamic_member {name : Text} {members : List (Text × Access × Value)}
    {inner : Value} (found : dynamicMember? name members = some inner) :
    sizeOf inner < sizeOf members := by
  obtain ⟨member, here, same⟩ := Option.map_eq_some_iff.mp found
  have smaller := List.sizeOf_lt_of_mem (List.mem_of_find?_eq_some here)
  obtain ⟨first, access, v⟩ := member
  cases same
  simp only [Prod.mk.sizeOf_spec] at smaller
  show sizeOf v < _
  omega

theorem size_field {name : Text} {fields : List (Text × Value)} {inner : Value}
    (found : field? name fields = some inner) : sizeOf inner < sizeOf fields := by
  obtain ⟨field, here, same⟩ := Option.map_eq_some_iff.mp found
  have smaller := List.sizeOf_lt_of_mem (List.mem_of_find?_eq_some here)
  obtain ⟨first, v⟩ := field
  cases same
  simp only [Prod.mk.sizeOf_spec] at smaller
  show sizeOf v < _
  omega

end Value

theorem Call.result_of_opening {call : Call} {result inner : Value}
    (opens : call.opening result = .opens inner) : inner = result := by
  unfold Call.opening at opens
  split at opens <;> cases opens
  rfl

namespace Value

theorem size_dynamic_content {v inner : Value} {members : List (Text × Access × Value)}
    (opens : dynamicContent v members = .opens inner) : sizeOf inner < sizeOf members := by
  unfold dynamicContent at opens
  split at opens
  · next found => cases opens; exact size_dynamic_member found
  · cases opens

theorem size_content {v inner : Value} (opens : v.content = .opens inner) :
    sizeOf inner < sizeOf v := by
  unfold content at opens
  split at opens
  · cases opens
  · cases opens
    simp only [wrapped.sizeOf_spec]
    omega
  · split at opens
    · next found =>
        cases opens
        have smaller := size_field found
        simp only [namedTuple.sizeOf_spec]
        omega
    · cases opens
  · simp only [object.sizeOf_spec]
    split at opens
    · next found =>
        cases opens
        have smaller : sizeOf (function _ _) < _ := size_held found
        omega
    · next found =>
        have smaller : sizeOf (function _ _) < _ := size_held found
        simp only [function.sizeOf_spec] at smaller
        split at opens
        · split at opens
          · have := size_dynamic_content opens
            omega
          · cases opens
        · cases Call.result_of_opening opens
          omega
    · next found =>
        cases opens
        have smaller : sizeOf inner < _ := size_held found
        omega
    · have := size_dynamic_content opens
      omega
  · cases opens

end Value

end Mustache
