import Mustache.Node
import Mustache.Text.Quoted

/-!
A tree written out for a reader, with every field of every node.
-/

namespace Mustache.Node

mutual
def description : Node → Text
  | .text content => "TextNode(text=".toList ++ content.quoted ++ [')']
  | .variableTag name escape =>
      "VariableNode(name=".toList ++ name.quoted ++ ", escape=".toList ++ Text.ofBool escape ++ [')']
  | .sectionTag name inverted line children =>
      "SectionNode(name=".toList ++ name.quoted ++ ", inverted=".toList ++ Text.ofBool inverted ++
        ", line=".toList ++ Text.ofInt line ++ ", children=".toList ++
        Text.tupled (descriptions children) ++ [')']
  | .partialTag name indent _ =>
      "PartialNode(name=".toList ++ name.quoted ++ ", indent=".toList ++ indent.quoted ++ [')']
  | .unknownTag name => "TagNode(name=".toList ++ name.quoted ++ [')']
  | .unknown => "TemplateNode()".toList

def descriptions : List Node → List Text
  | [] => []
  | node :: rest => node.description :: descriptions rest
end

def describe (nodes : List Node) : Text := Text.tupled (descriptions nodes)

end Mustache.Node
