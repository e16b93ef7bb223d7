import Mustache.Node.Description
import Mustache.Options
import Mustache.Registry
import Mustache.Render

/-!
Compiled templates. A template is never changed after it is compiled, so it can be
rendered any number of times; only its partials are fetched anew each time.
-/

namespace Mustache

structure Template where
  nodes : List Node
  delimiters : Delimiters
  provider : Provider
  options : Options

namespace Template

def compile (source : Text) (provider : Provider) (options : Options) :
    Except ParseError Template :=
  (parse source options.delimiters).map fun parsed =>
    ⟨parsed.nodes, parsed.delimiters, provider, options⟩

def compileNotes (source : Text) (options : Options) : List Note :=
  parseNotes source options.delimiters

def withErrorOnMissing (enabled : Bool) (template : Template) : Template :=
  { template with options := template.options.withErrorOnMissing enabled }

def tags (template : Template) : List Node := Node.tagsOf template.nodes

def settings (registry : Registry) (template : Template) : Settings :=
  ⟨registry.adapterOf, template.options.errorOnMissing, template.options.delimiters,
    template.provider⟩

section Rendering
variable (registry : Registry) (depth : Nat)

def renderTo (template : Template) (contexts : Chain) : Render Unit :=
  Render.tree (template.settings registry) depth template.nodes contexts

def render (template : Template) (contexts : Chain) : Render Text :=
  Render.toText (template.renderTo registry depth contexts)

def contentName : Text := "content".toList

def contentFrame (content : Text) : Value :=
  .mapping .dict none [(.str contentName, .str content)]

def renderToInLayout (page layout : Template) (contexts : Chain) : Render Unit := do
  let content ← page.render registry depth contexts
  layout.renderTo registry depth (contentFrame content :: contexts)

def renderInLayout (page layout : Template) (contexts : Chain) : Render Text :=
  Render.toText (page.renderToInLayout registry depth layout contexts)

end Rendering

def describe (host : Host) (template : Template) : Except HostError Text :=
  (template.provider.describe host).map fun provider =>
    "Template(nodes=".toList ++ Text.ofNat template.nodes.length ++ ", provider=".toList ++
      provider ++ ", options=".toList ++ template.options.describe ++ [')']

end Template
end Mustache
