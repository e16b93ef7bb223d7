import Mustache.Text.Basic

/-!
Names of values. A dot leads from one segment to the next; a dot that stands alone
where a segment would start names the context itself.
-/

namespace Mustache

abbrev Path := List Text

namespace Path

def self : Text := ['.']

/-- The segments of a name whose first character does (`fresh`) or does not start one. -/
def segmentsFrom : Bool → Text → Path
  | _, [] => [[]]
  | fresh, c :: rest =>
      if c = '.' then
        if fresh ∧ rest = [] then [self] else [] :: segmentsFrom true rest
      else match segmentsFrom false rest with
        | [] => [[c]]
        | segment :: later => (c :: segment) :: later

def ofName (name : Text) : Path := segmentsFrom true name

theorem segments_from_ne_nil (fresh : Bool) (name : Text) : segmentsFrom fresh name ≠ [] := by
  cases name with
  | nil => simp [segmentsFrom]
  | cons c rest =>
      simp only [segmentsFrom]
      split
      · split <;> simp
      · split <;> simp

end Path
end Mustache
