import Mustache.Text.Quoted

/-!
What the engine reports about its own work, besides its results.
-/

namespace Mustache

inductive Note where
  | parsed (nodes lines : Nat)
  | delimitersChanged (opening closing : Text) (line : Nat)
  | delimitersIgnored (line : Nat)
  | expanded (name : Text) (nodes : Nat)
  | adapterReplaced (className : Text)
  deriving DecidableEq

def Note.message : Note → Text
  | .parsed nodes lines =>
      "Parsed template -> ".toList ++ Text.ofNat nodes ++ " root nodes, ".toList ++
        Text.ofNat lines ++ " lines".toList
  | .delimitersChanged opening closing line =>
      "Delimiters changed to ".toList ++ Text.quoted opening ++ [' '] ++ Text.quoted closing ++
        " at line ".toList ++ Text.ofNat line
  | .delimitersIgnored line =>
      "Ignoring delimiter tag without two delimiters at line ".toList ++ Text.ofNat line
  | .expanded name nodes =>
      "Expanding partial '".toList ++ name ++ "' -> ".toList ++ Text.ofNat nodes ++ " nodes".toList
  | .adapterReplaced className =>
      "Adapter for '".toList ++ className ++ "' overwrites existing adapter".toList

end Mustache
