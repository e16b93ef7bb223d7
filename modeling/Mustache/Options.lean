import Mustache.Cursor
import Mustache.Value.Display
import Mustache.Value.Order

/-!
The options of a template: whether a variable that is not found is an error, and
the delimiters its source starts with. They are given one by one or as a mapping
with the two names below.
-/

namespace Mustache

structure Options where
  errorOnMissing : Bool
  delimiters : Delimiters
  deriving DecidableEq

inductive ConfigError where
  | unknownOptions (names : List Text)
  | flagType (typeName : Text)
  | delimitersType (typeName : Text)
  | delimitersShape (shown : Text)
  | notMapping (path : Text)
  deriving DecidableEq

def ConfigError.message : ConfigError → Text
  | .unknownOptions names => "Unknown option(s): ".toList ++ Text.join [',', ' '] names
  | .flagType typeName => "error_on_missing: expected bool, got ".toList ++ typeName
  | .delimitersType typeName => "delimiters: expected string or list, got ".toList ++ typeName
  | .delimitersShape shown =>
      "delimiters: expected two non-empty strings, got ".toList ++ shown
  | .notMapping path => path ++ ": top-level mapping expected".toList

inductive OptionsError where
  | config (error : ConfigError)
  | host (error : HostError)
  deriving DecidableEq

inductive LoadError (ε : Type) where
  | unread (error : ε)
  | refused (error : OptionsError)

namespace Options

def standard : Options := ⟨false, .standard⟩

def withErrorOnMissing (enabled : Bool) (options : Options) : Options :=
  { options with errorOnMissing := enabled }

def make (errorOnMissing : Bool) (delimiters : List Text) : Except ConfigError Options :=
  match delimiters with
  | [opening, closing] =>
      if opening = [] ∨ closing = [] then refuse else .ok ⟨errorOnMissing, ⟨opening, closing⟩⟩
  | _ => refuse
where
  refuse : Except ConfigError Options :=
    .error (.delimitersShape (Text.tupled (delimiters.map Text.quoted)))

def flagName : Text := "error_on_missing".toList
def delimitersName : Text := "delimiters".toList

def text? : Value → Option Text
  | .str text => some text
  | _ => none

/-- Names that are no options. They are shown in order, so all of them must be texts. -/
def refuseNames (unknown : List Value) : OptionsError :=
  match Value.sorted unknown with
  | .error error => .host error
  | .ok names =>
      match names.mapM text? with
      | some texts => .config (.unknownOptions texts)
      | none => .host (notText 0 names)
where
  notText (index : Nat) : List Value → HostError
    | .str _ :: rest => notText (index + 1) rest
    | v :: _ => ⟨.type, "sequence item ".toList ++ Text.ofNat index ++
        ": expected str instance, ".toList ++ v.fullTypeName ++ " found".toList⟩
    | [] => ⟨.type, []⟩

def readDelimiters (host : Host) (v : Value) : Except ConfigError Delimiters :=
  match v with
  | .str text => pair v (text.words.map Value.str)
  | .sequence .list items | .sequence .tuple items => pair v items
  | .namedTuple _ fields => pair v (fields.map (·.2))
  | v => .error (.delimitersType v.typeName)
where
  pair (whole : Value) (parts : List Value) : Except ConfigError Delimiters :=
    match parts with
    | [.str opening, .str closing] =>
        if opening.isBlank ∨ closing.isBlank then .error (.delimitersShape (whole.shownInside host))
        else .ok ⟨opening, closing⟩
    | _ => .error (.delimitersShape (whole.shownInside host))

def readFlag : Value → Except ConfigError Bool
  | .bool flag => .ok flag
  | v => .error (.flagType v.typeName)

def isName (name : Text) : Value → Bool
  | .str text => text = name
  | _ => false

/-- What is set for a name. A mapping that raises an error for an absent name does so here
too, unless the error only says that the name is absent; a value without keys may hold the
name itself, but has nothing under it. -/
def setting? (host : Host) (v : Value) (name : Text) : Except HostError (Option Value) :=
  match v with
  | .mapping (.raising error) address entries =>
      match Value.find? name (host.entries (.mapping (.raising error) address entries)) with
      | some found => .ok (some found)
      | none => if error.kind = .key then .ok none else .error error
  | .mapping _ _ _ | .filling _ _ _ => .ok (Value.find? name (host.entries v))
  | .bytes _ _ => .error ⟨.type, "a bytes-like object is required, not 'str'".toList⟩
  | v =>
      if ((host.elements? v).getD []).any (isName name) then .error v.notKeyed else .ok none

def keys (host : Host) (v : Value) : Except HostError (List Value) :=
  match host.elements? v with
  | none => .error v.notIterable
  | some keys =>
      match Value.unfitKey? keys with
      | some error => .error error
      | none => .ok (Value.distinct keys)

/-- Options from a mapping of the host. Unknown names are refused, so that a misspelt name
is not lost. An absent name has its standard value. -/
def ofMapping (host : Host) (v : Value) : Except OptionsError Options := do
  let keys ← (keys host v).mapError .host
  let unknown := keys.filter fun key => !isName flagName key && !isName delimitersName key
  if !unknown.isEmpty then .error (refuseNames unknown)
  else
    let flag ← setting flagName readFlag standard.errorOnMissing
    let delimiters ← setting delimitersName (readDelimiters host) standard.delimiters
    pure ⟨flag, delimiters⟩
where
  setting {α : Type} (name : Text) (read : Value → Except ConfigError α) (usual : α) :
      Except OptionsError α :=
    match setting? host v name with
    | .ok (some found) => (read found).mapError .config
    | .ok none => .ok usual
    | .error error => .error (.host error)

def ofDocument (path : Text) (host : Host) (document : Value) : Except OptionsError Options :=
  match document with
  | .mapping _ _ _ => ofMapping host document
  | document =>
      if host.isTrue document then .error (.config (.notMapping path)) else .ok standard

/-- Options from the configuration file at `path`, of which `read` makes a document. Without a
file they are the standard ones. -/
def load {ε : Type} (read : Text → Except ε Value) (path : Text) (host : Host) :
    Option Text → Except (LoadError ε) Options
  | none => .ok standard
  | some source =>
      match read source with
      | .error error => .error (.unread error)
      | .ok document => (ofDocument path host document).mapError .refused

def describe (options : Options) : Text :=
  "TemplateOptions(error_on_missing=".toList ++ Text.ofBool options.errorOnMissing ++
    ", delimiters=".toList ++
    Text.tupled [options.delimiters.opening.quoted, options.delimiters.closing.quoted] ++ [')']

end Options
end Mustache
