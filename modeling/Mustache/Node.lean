import Mustache.Text.Basic

/-!
The tree of a template. Sections hold their children; a partial is only named, and
its text is asked for anew whenever it is rendered. A tree put together by hand
may hold nodes of no known kind, which no scan yields.
-/

namespace Mustache

inductive Node where
  | text (content : Text)
  | variableTag (name : Text) (escape : Bool)
  | sectionTag (name : Text) (inverted : Bool) (line : Int) (children : List Node)
  /-- A partial that is not `linked` has no provider to ask. -/
  | partialTag (name indent : Text) (linked : Bool)
  | unknownTag (name : Text)
  | unknown
  deriving Inhabited

inductive TagType where
  | invalid
  | variableTag
  | sectionTag
  | invertedSection
  | partialTag
  deriving DecidableEq

inductive Mark where
  | text (content : Text)
  | variableTag (name : Text) (escape : Bool)
  | enter (name : Text) (inverted : Bool) (line : Int)
  | leave (name : Text)
  | partialTag (name indent : Text)
  | unknownTag (name : Text)
  | unknown
  deriving DecidableEq

namespace Node

mutual
def marks : Node → List Mark
  | .text content => [.text content]
  | .variableTag name escape => [.variableTag name escape]
  | .sectionTag name inverted line children =>
      .enter name inverted line :: (marksAll children ++ [.leave name])
  | .partialTag name indent _ => [.partialTag name indent]
  | .unknownTag name => [.unknownTag name]
  | .unknown => [.unknown]

def marksAll : List Node → List Mark
  | [] => []
  | node :: rest => node.marks ++ marksAll rest
end

def tagType? : Node → Option TagType
  | .text _ => none
  | .variableTag _ _ => some .variableTag
  | .sectionTag _ inverted _ _ => some (if inverted then .invertedSection else .sectionTag)
  | .partialTag _ _ _ => some .partialTag
  | .unknownTag _ => some .invalid
  | .unknown => none

def isTag (node : Node) : Bool := node.tagType?.isSome

def tagsOf (nodes : List Node) : List Node := nodes.filter isTag

inductive TagsError where
  | variableTag
  | abstractTag
  deriving DecidableEq

def TagsError.message : TagsError → Text
  | .variableTag => "tags() is not supported on Variable tags".toList
  | .abstractTag => []

/-- The tags inside a tag; a partial shows none, since its text is not fetched. -/
def tags : Node → Except TagsError (List Node)
  | .variableTag _ _ => .error .variableTag
  | .sectionTag _ _ _ children => .ok (tagsOf children)
  | .partialTag _ _ _ => .ok []
  | .text _ | .unknownTag _ | .unknown => .error .abstractTag

/-- Puts a text after the siblings `before`, nearest first. It joins a text that
stands there already, and an empty text leaves no node. -/
def pushText (content : Text) (before : List Node) : List Node :=
  if content = [] then before
  else match before with
    | .text previous :: rest => .text (previous ++ content) :: rest
    | _ => .text content :: before

end Node
end Mustache
