import Mustache.ParseError
import Mustache.Value.Basic

/-!
Why a template is not rendered.
-/

namespace Mustache

inductive Fault where
  | host (error : HostError)
  | parse (error : ParseError)
  | partialNotFound (name : Text)
  | missingVariable (name : Text)
  | unknownNode (kind : Text)
  /-- Partials are nested deeper than the caller allows. -/
  | tooDeep
  deriving DecidableEq

def Fault.message : Fault → Text
  | .host error => error.message
  | .parse error => error.message
  | .partialNotFound name => "Partial '".toList ++ name ++ "' not found".toList
  | .missingVariable name => "Missing variable \"".toList ++ name ++ ['"']
  | .unknownNode kind => "Unknown node type: ".toList ++ kind
  | .tooDeep => "partials are nested too deeply".toList

end Mustache
