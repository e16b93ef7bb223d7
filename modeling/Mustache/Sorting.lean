/-!
Sorting by a comparison that may fail. What is in order already, or in the reverse
order, is kept or turned round; each further value is put in its place by halving.
-/

namespace Mustache

namespace Sorting

variable {α ε : Type} (less : α → α → Except ε Bool)

/-- Takes values as long as each is less than the one before it, or as long as none is
(`falling` is false), and gives them with the last one first. -/
def run (falling : Bool) (last : α) (taken : List α) : List α → Except ε (List α × List α)
  | [] => .ok (last :: taken, [])
  | next :: rest => do
      let falls ← less next last
      if falls = falling then run falling next (last :: taken) rest
      else pure (last :: taken, next :: rest)

/-- The first position from `low` on, below `high`, before which `v` belongs. Every step
halves the distance, so as many steps as there are positions are enough. -/
def position (sorted : Array α) (v : α) : Nat → Nat → Nat → Except ε Nat
  | 0, low, _ => .ok low
  | steps + 1, low, high =>
      if low < high then
        let middle := low + (high - low) / 2
        match sorted[middle]? with
        | none => .ok low
        | some other => do
            if ← less v other then position sorted v steps low middle
            else position sorted v steps (middle + 1) high
      else .ok low

def insertAll (sorted : List α) : List α → Except ε (List α)
  | [] => .ok sorted
  | v :: rest => do
      let place ← position less sorted.toArray v sorted.length 0 sorted.length
      insertAll (sorted.take place ++ v :: sorted.drop place) rest

def sort : List α → Except ε (List α)
  | first :: second :: rest => do
      let falling ← less second first
      let (taken, later) ← run less falling second [first] rest
      insertAll less (if falling then taken else taken.reverse) later
  | values => .ok values

end Sorting

end Mustache
