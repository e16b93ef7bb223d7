import Mustache.Text.Basic

/-!
What can be wrong with a template's source, and the line it is reported at.
-/

namespace Mustache

inductive ParseFault where
  | unmatchedOpenTag
  | emptyTag
  | invalidMetaTag
  | unmatchedCloseTag
  | interleavedClosingTag (name : Text)
  | unclosedSection (name : Text)
  deriving DecidableEq

structure ParseError where
  fault : ParseFault
  line : Nat
  deriving DecidableEq

def ParseFault.message : ParseFault → Text
  | .unmatchedOpenTag => "unmatched open tag".toList
  | .emptyTag => "empty tag".toList
  | .invalidMetaTag => "Invalid meta tag".toList
  | .unmatchedCloseTag => "unmatched close tag".toList
  | .interleavedClosingTag name => "interleaved closing tag: ".toList ++ name
  | .unclosedSection name => "Section ".toList ++ name ++ " has no closing tag".toList

def ParseError.message (error : ParseError) : Text :=
  "line ".toList ++ Text.ofNat error.line ++ ": ".toList ++ error.fault.message

end Mustache
