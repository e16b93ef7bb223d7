import Mustache.Value.Display
import Mustache.Value.Order

/-!
Where the text of a partial comes from. The mappings behind providers belong to the
host, who may change them between renderings. Left out are providers that run code of their own.
-/

namespace Mustache

inductive Provider where
  /-- Every partial is empty. -/
  | empty
  | dictionary (partials : Value)
  /-- As a dictionary in which absent names are blank; remembers what it was asked for. -/
  | recording (partials : Value) (number : Nat)
  | failing (kind : HostErrorKind) (reason : Text)

namespace Provider

def ofValue (v : Value) : Except Fault Provider :=
  match v with
  | .null => .ok .empty
  | .mapping _ _ _ | .filling _ _ _ => .ok (.dictionary v)
  | v => .error (.host ⟨.type, "Unsupported partials source: ".toList ++ v.typeName⟩)

def fetch (provider : Provider) (name : Text) : Eval Value := do
  match provider with
  | .empty => return .str []
  | .failing kind reason => throw (.host ⟨kind, reason ++ ": ".toList ++ name⟩)
  | .recording partials number =>
      modify (Host.ask number name)
      return (Value.find? name ((← get).entries partials)).getD (.str [])
  | .dictionary partials =>
      match (← get).entry partials name with
      | .found v => return v
      | .absent => throw (.partialNotFound name)
      | .made slot v =>
          modify (Host.change slot (.fill name))
          return v
      | .fails error =>
          if error.kind = .key then throw (.partialNotFound name) else throw (.host error)

/-- The text of a partial, indented. Nothing but a text can be searched for tags, and only
a text has lines to indent. -/
def textOf (host : Host) (indent : Text) (v : Value) : Except HostError Text :=
  match v with
  | .str text => .ok text
  | .bytes _ _ =>
      .error ⟨.type, (if indent = [] then "argument should be integer or bytes-like object, not 'str'"
        else "cannot use a string pattern on a bytes-like object").toList⟩
  | v =>
      if indent ≠ [] then .error (v.typeError "expected string or bytes-like object, got '" "'")
      else if (host.length? v).isNone then .error v.noLength
      else .error (v.noAttribute "find".toList)

def describe (host : Host) : Provider → Except HostError Text
  | .empty => .ok "EmptyProvider()".toList
  | .dictionary partials => do
      let names ← match host.elements? partials with
        | some names => Value.sorted names
        | none => .error partials.notIterable
      pure ("StaticProvider(".toList ++
        Text.listed ['['] [']'] (names.map (Value.shownInside host)) ++ [')'])
  | .recording _ _ => .ok "RecordingProvider()".toList
  | .failing _ _ => .ok "FailingProvider()".toList

end Provider
end Mustache
