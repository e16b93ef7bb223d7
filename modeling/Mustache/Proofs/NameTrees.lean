import Mustache.Proofs.NestedIndents
import Mustache.Proofs.OuterContexts
import Mustache.Proofs.PlainData

/-!
Trees of names, and the partial that shows one. The partial names itself inside the section
over the kids, so it is rendered once for each node, with the node in front of all the nodes
around it. What ends the rendering is the tree: at a leaf the section is left out.
-/

namespace Mustache

inductive NameTree where
  | node (name : Text) (kids : List NameTree)

def nameKey : Text := "name".toList

def kidsKey : Text := "kids".toList

def nodeName : Text := "node".toList

/-- The partial that shows a node. -/
def nodeSource : Text := "\x7b\x7bname\x7d\x7d\x7b\x7b#kids\x7d\x7d(\x7b\x7b>node\x7d\x7d)\x7b\x7b/kids\x7d\x7d".toList

def treeSource : Text := "\x7b\x7b>node\x7d\x7d".toList

def nodeTag : Node := .partialTag nodeName [] true

def kidNodes : List Node := [.text ['('], nodeTag, .text [')']]

def nodeNodes : List Node :=
  [.variableTag nameKey true, .sectionTag kidsKey false 1 kidNodes]

namespace NameTree

mutual
/-- The name of the root, escaped, and behind it each kid in brackets. -/
def written : NameTree → Text
  | .node name kids => name.escapeHtml ++ writtenAll kids

def writtenAll : List NameTree → Text
  | [] => []
  | kid :: rest => ['('] ++ kid.written ++ [')'] ++ writtenAll rest
end

mutual
def height : NameTree → Nat
  | .node _ kids => heightAll kids + 1

def heightAll : List NameTree → Nat
  | [] => 0
  | kid :: rest => max kid.height (heightAll rest)
end

theorem height_all_le {kids : List NameTree} {n : Nat} :
    heightAll kids ≤ n ↔ ∀ kid ∈ kids, kid.height ≤ n := by
  induction kids with
  | nil => simp [heightAll]
  | cons kid rest ih => simp [heightAll, ih]

mutual
def value : NameTree → Value
  | .node name kids =>
      .mapping .dict none
        [(.str nameKey, .str name), (.str kidsKey, .sequence .list (values kids))]

def values : List NameTree → List Value
  | [] => []
  | kid :: rest => kid.value :: values rest
end

/-- A value holds a tree: it is read as a mapping that has the name of the root and a list of
values, which hold the kids. -/
inductive HeldBy (adapterOf : Value → Adapter) (host : Host) : NameTree → Value → Prop
  | node {name : Text} {kids : List NameTree} {v list : Value} {items : List Value} :
      adapterOf v = .mapping → host.entry v nameKey = .found (.str name) →
      (adapterOf (.str name)).opening (.str name) = .closed →
      host.entry v kidsKey = .found list → adapterOf list = .sequence →
      host.elements? list = some items → List.Forall₂ (HeldBy adapterOf host) kids items →
      HeldBy adapterOf host (.node name kids) v

mutual
theorem value_holds {adapterOf : Value → Adapter} (plain : PlainReading adapterOf) (host : Host)
    (tree : NameTree) : tree.HeldBy adapterOf host tree.value := by
  match tree with
  | .node name kids =>
      refine .node (plain.dictionary _ _) rfl ?_ rfl (plain.list _) rfl
        (values_hold plain host kids)
      rw [plain.text]
      rfl

theorem values_hold {adapterOf : Value → Adapter} (plain : PlainReading adapterOf) (host : Host)
    (kids : List NameTree) : List.Forall₂ (HeldBy adapterOf host) kids (values kids) := by
  match kids with
  | [] => exact .nil
  | kid :: rest => exact .cons (value_holds plain host kid) (values_hold plain host rest)
end

/-- A part of a tree, the value that holds it, and the contexts behind this value: those of the
nodes around the part, and at last the ones around the whole tree. -/
inductive Descent (adapterOf : Value → Adapter) (host : Host) (tree : NameTree) (outer : Chain) :
    NameTree → Value → Chain → Prop
  | root {v : Value} : HeldBy adapterOf host tree v → Descent adapterOf host tree outer tree v outer
  | kid {name : Text} {kids : List NameTree} {part : NameTree} {v w : Value} {around : Chain} :
      Descent adapterOf host tree outer (.node name kids) v around → part ∈ kids →
      HeldBy adapterOf host part w → Descent adapterOf host tree outer part w (v :: around)

end NameTree

abbrev Host.Same (a b : Host) : Prop := Host.Like (fun _ _ => True) a b

theorem same_trans {a b c : Host} (first : a.Same b) (second : b.Same c) : a.Same c :=
  ⟨first.calls.trans second.calls, first.changes.trans second.changes, fun _ => trivial⟩

theorem same_asked (host : Host) (asked : Nat → List Text) : host.Same { host with asked } :=
  ⟨rfl, rfl, fun _ => trivial⟩

theorem same_eq {a b : Host} (same : a.Same b) : b = { a with asked := b.asked } := by
  obtain ⟨calls, changes, asked⟩ := b
  obtain ⟨rfl, rfl, _⟩ := same
  rfl

theorem maps_same {provider : Provider} {name text : Text} {a b : Host} (same : a.Same b)
    (maps : provider.Maps name text a) : provider.Maps name text b := by
  obtain ⟨asked, fetched⟩ := maps
  have agree := (steady_fetch (fun _ _ _ _ => trivial) provider name).agree a b same
  rw [fetched] at agree
  obtain ⟨after, fetched', like⟩ := agree_of_ok agree
  have left : b.Same after :=
    ⟨same.calls.symm.trans like.calls, same.changes.symm.trans like.changes, fun _ => trivial⟩
  exact ⟨after.asked, (same_eq left) ▸ fetched'⟩

section Held
variable {adapterOf : Value → Adapter} {host host' : Host} {name : Text} {kids : List NameTree}
  {v : Value}

theorem name_found (held : (NameTree.node name kids).HeldBy adapterOf host v)
    (same : host.Same host') :
    lookupInFrame adapterOf nameKey v host' = .ok (.str name) host' := by
  cases held with
  | node reads named _ _ _ _ _ =>
      rw [Host.entry_like same] at named
      exact lookup_entry reads (by decide) named

theorem kids_found (held : (NameTree.node name kids).HeldBy adapterOf host v)
    (same : host.Same host') :
    ∃ list items, lookupInFrame adapterOf kidsKey v host' = .ok list host' ∧
      adapterOf list = .sequence ∧ host'.elements? list = some items ∧
      List.Forall₂ (NameTree.HeldBy adapterOf host) kids items := by
  cases held with
  | @node _ _ _ list items reads _ _ listed sequence elements all =>
      rw [Host.entry_like same] at listed
      rw [Host.elements_like same] at elements
      exact ⟨list, items, lookup_entry reads (by decide) listed, sequence, elements, all⟩

theorem present_of_elements {list : Value} {items : List Value}
    (elements : host.elements? list = some items) : list.isAbsent = false := by
  cases list with
  | null | missing => cases elements
  | _ => rfl

end Held

end Mustache
