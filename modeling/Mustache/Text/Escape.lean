import Mustache.Text.Basic

/-!
Escaping for HTML: five characters become entities, and the null character, which
no document may hold, becomes the replacement character.
-/

namespace Mustache.Text

def escapeChar (c : Char) : Text :=
  if c = '&' then "&amp;".toList
  else if c = '<' then "&lt;".toList
  else if c = '>' then "&gt;".toList
  else if c = '"' then "&#34;".toList
  else if c = '\'' then "&#39;".toList
  else if c = '\x00' then ['\uFFFD']
  else [c]

def escapeHtml (t : Text) : Text := t.flatMap escapeChar

theorem escape_html_append (a b : Text) : escapeHtml (a ++ b) = escapeHtml a ++ escapeHtml b := by
  simp [escapeHtml]

end Mustache.Text
