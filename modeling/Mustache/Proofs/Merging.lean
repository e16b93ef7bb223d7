import Mustache.Proofs.Composition
import Mustache.Proofs.Simulation

/-!
The rendering of siblings put together. Siblings put after others are rendered after them,
and it makes no difference whether a text stands in one node or in two, nor on which lines
the sections stand.
-/

namespace Mustache

open Render

section Siblings
variable (settings : Settings) (expand : Expand)

theorem nodes_append (first second : List Node) (chain : Chain) :
    nodes settings expand (first ++ second) chain =
      nodes settings expand first chain >>= fun _ => nodes settings expand second chain := by
  induction first with
  | nil => exact (pure_bind _ _).symm
  | cons node rest ih =>
      rw [List.cons_append, nodes, nodes, ih, bind_assoc]

theorem nodes_snoc (siblings : List Node) (last : Node) (chain : Chain) :
    nodes settings expand (siblings ++ [last]) chain =
      nodes settings expand siblings chain >>= fun _ => node settings expand last chain := by
  have alone : nodes settings expand [last] chain = node settings expand last chain :=
    bind_pure (node settings expand last chain)
  rw [nodes_append, alone]

mutual
theorem node_later (lines : Nat) (first : Node) (chain : Chain) :
    node settings expand (first.later lines) chain = node settings expand first chain := by
  match first with
  | .sectionTag name inverted line children =>
      have inside : nodes settings expand (Node.laterAll lines children) =
          nodes settings expand children := funext (nodes_later lines children)
      rw [Node.later, node, node, inside]
  | .text _ | .variableTag _ _ | .partialTag _ _ _ | .unknownTag _ | .unknown => rfl

theorem nodes_later (lines : Nat) (siblings : List Node) (chain : Chain) :
    nodes settings expand (Node.laterAll lines siblings) chain =
      nodes settings expand siblings chain := by
  match siblings with
  | [] => rfl
  | first :: rest =>
      rw [Node.laterAll, nodes, nodes, node_later lines first chain, nodes_later lines rest chain]
end

end Siblings

section Texts
variable (settings : Settings) {expand : Expand}

theorem strict_write (first second : Text) :
    Sim .strict (write (first ++ second)) (write first >>= fun _ => write second) where
  grows start roomy := by
    rw [write_roomy _ start roomy]
    exact ⟨Host.before_refl _, rfl⟩
  agree a b like _ := by
    rw [write_roomy _ a like.roomy, bind_of_ok (write_roomy _ b like.roomy'), write_roomy _ _ rfl]
    refine ⟨rfl, { like with text := ?_, roomy := rfl, roomy' := rfl }⟩
    have same : (⟨a.sink.written, none⟩ : Sink).text = (⟨b.sink.written, none⟩ : Sink).text :=
      like.text
    simp only [text_cons, same, List.append_assoc]

theorem strict_write_nil : Sim .strict (pure ()) (write []) where
  grows _ roomy := ⟨Host.before_refl _, roomy⟩
  agree a b like _ := by
    rw [write_roomy _ b like.roomy']
    refine ⟨rfl, { like with text := ?_, roomy' := rfl }⟩
    rw [text_cons, List.append_nil]
    exact like.text

variable (blind : SimExpand .strict expand expand)
include blind

theorem strict_push_text (content : Text) (before : List Node) (chain : Chain) :
    Sim .strict (nodes settings expand (Node.pushText content before).reverse chain)
      (nodes settings expand before.reverse chain >>= fun _ => write content) := by
  have rest (siblings : List Node) := sim_nodes settings blind siblings chain
  by_cases empty : content = []
  · rw [empty, Node.push_text_nil]
    have same := sim_bind (rest before.reverse) fun _ => strict_write_nil
    rw [show (fun _ => pure ()) = (pure : Unit → Render Unit) from rfl, bind_pure] at same
    exact same
  · unfold Node.pushText
    rw [if_neg empty]
    split
    · next previous before =>
        rw [List.reverse_cons, List.reverse_cons, nodes_snoc, nodes_snoc, bind_assoc]
        exact sim_bind (rest before.reverse) fun _ => strict_write previous content
    · rw [List.reverse_cons, nodes_snoc]
      exact sim_bind (rest before.reverse) fun _ => sim_write content

theorem strict_join (earlier later : List Node) (chain : Chain) :
    Sim .strict (nodes settings expand (Node.joinSiblings earlier later) chain)
      (nodes settings expand earlier chain >>= fun _ => nodes settings expand later chain) := by
  have rest (siblings : List Node) := sim_nodes settings blind siblings chain
  unfold Node.joinSiblings
  split
  · next before after following last =>
      obtain ⟨front, rfl⟩ := List.getLast?_eq_some_iff.mp last
      rw [List.dropLast_concat, nodes_append, nodes_snoc, nodes, nodes, bind_assoc]
      refine sim_bind (rest front) fun _ => ?_
      have joined := sim_bind (strict_write before after) fun _ => rest following
      rw [bind_assoc] at joined
      exact joined
  · rw [nodes_append]
    exact sim_bind (rest earlier) fun _ => rest _

end Texts
end Mustache
