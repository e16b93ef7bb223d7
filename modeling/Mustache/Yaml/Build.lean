import Mustache.Yaml.Failure

/-!
The building of a value from its parts, any of which may fail. A collection is built
after what stands beside it, so that of several failures the outermost counts, and of
equally deep ones the first.
-/

namespace Mustache.Yaml

structure Deep where
  depth : Nat
  failure : Failure
  deriving DecidableEq

abbrev Build := Except Deep

namespace Build

def atOnce {α : Type} (attempt : Attempt α) : Build α := attempt.mapError (⟨0, ·⟩)

/-- The building of a collection as seen from the one around it, unless it is not
`deferred`. -/
def collection {α : Type} (deferred : Bool) (build : Build α) : Build α :=
  build.mapError fun e => if deferred then ⟨e.depth + 1, e.failure⟩ else e

def attempt {α : Type} (build : Build α) : Attempt α := build.mapError Deep.failure

def both {α β : Type} (a : Build α) (b : Build β) : Build (α × β) :=
  match a, b with
  | .ok x, .ok y => .ok (x, y)
  | .error d, .error e => .error (if e.depth < d.depth then e else d)
  | .error e, .ok _ | .ok _, .error e => .error e

end Build
end Mustache.Yaml
