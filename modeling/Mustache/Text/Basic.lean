/-!
Text as a list of characters, so that positions, lengths and cuts count
characters. Lines end with a line feed and with nothing else. Two classes of
blank characters are kept apart: the padding that may surround a tag standing
alone on its line, and the wider class of spaces trimmed from a tag's body.
-/

namespace Mustache

abbrev Text := List Char

namespace Text

/-- The padding around a tag that stands alone on its line. -/
def isPadding (c : Char) : Bool := c = ' ' || c = '\t'

def isSpace (c : Char) : Bool :=
  let n := c.toNat
  (9 ≤ n && n ≤ 13) || (28 ≤ n && n ≤ 32) || n = 0x85 || n = 0xA0 || n = 0x1680 ||
    (0x2000 ≤ n && n ≤ 0x200A) || n = 0x2028 || n = 0x2029 || n = 0x202F || n = 0x205F ||
    n = 0x3000

def trimLeft (t : Text) : Text := t.dropWhile isSpace

def trimRight (t : Text) : Text := (t.reverse.dropWhile isSpace).reverse

def trim (t : Text) : Text := trimRight (trimLeft t)

def isBlank (t : Text) : Bool := t.all isSpace

def newlines (t : Text) : Nat := t.count '\n'

def wordsFrom : Text → Text → List Text
  | [], [] => []
  | word, [] => [word.reverse]
  | word, c :: rest =>
      if isSpace c then
        if word = [] then wordsFrom [] rest else word.reverse :: wordsFrom [] rest
      else wordsFrom (c :: word) rest

def words (t : Text) : List Text := wordsFrom [] t

def join (separator : Text) : List Text → Text
  | [] => []
  | [piece] => piece
  | piece :: rest => piece ++ separator ++ join separator rest

def sorted (texts : List Text) : List Text := texts.mergeSort fun a b => !decide (b < a)

def ofBool (b : Bool) : Text := if b then "True".toList else "False".toList

def ofNat (n : Nat) : Text := Nat.toDigits 10 n

def ofInt : Int → Text
  | .ofNat n => ofNat n
  | .negSucc n => '-' :: ofNat (n + 1)

theorem is_space_of_padding (c : Char) (h : isPadding c = true) : isSpace c = true := by
  simp only [isPadding, Bool.or_eq_true, decide_eq_true_eq] at h
  rcases h with h | h <;> subst h <;> decide

theorem newlines_append (a b : Text) : newlines (a ++ b) = newlines a + newlines b := by
  simp [newlines]

end Text
end Mustache
