import Mustache.Value.Basic

/-!
Why a YAML text has no value: it is not well formed, or something it spells out, such
as a day that does not exist, is refused.
-/

namespace Mustache.Yaml

inductive Failure where
  | malformed
  | refused (error : HostError)
  deriving DecidableEq

abbrev Attempt := Except Failure

def malformed {α : Type} : Attempt α := .error .malformed

def refused {α : Type} (message : Text) : Attempt α := .error (.refused ⟨.value, message⟩)

end Mustache.Yaml
