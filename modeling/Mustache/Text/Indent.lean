import Mustache.Text.Basic

/-!
Indenting a text: the indent is written at the start of every line that holds at
least one character. Empty lines stay empty.
-/

namespace Mustache.Text

/-- The rest of a text whose first character does (`fresh`) or does not start a line. -/
def indentFrom (indent : Text) : Bool → Text → Text
  | _, [] => []
  | fresh, c :: rest =>
      if c = '\n' then '\n' :: indentFrom indent true rest
      else if fresh then indent ++ c :: indentFrom indent false rest
      else c :: indentFrom indent false rest

def indentLines (indent t : Text) : Text := indentFrom indent true t

end Mustache.Text
