import Mustache.Proofs.Appending

/-!
What data can put into an output through escaped tags: no character that delimits markup, and
no ampersand that does not start an entity. Texts like this can be put together, so it is
enough that every piece is one, and a piece is either text of a template or an escaped value.
-/

namespace Mustache

open Render

namespace Text

def delimitsMarkup (c : Char) : Bool :=
  c = '<' || c = '>' || c = '"' || c = '\'' || c = '\x00'

def isPlain (c : Char) : Bool := !delimitsMarkup c && c ≠ '&'

def entities : List Text :=
  ["&amp;".toList, "&lt;".toList, "&gt;".toList, "&#34;".toList, "&#39;".toList]

/-- Text that a document shows as it stands, and that starts no markup. -/
structure Inert (t : Text) : Prop where
  delimits : ∀ c ∈ t, delimitsMarkup c = false
  ampersand : ∀ before rest, t = before ++ '&' :: rest →
    ∃ entity ∈ entities, entity <+: '&' :: rest

theorem inert_of_plain {t : Text} (plain : ∀ c ∈ t, isPlain c = true) : Inert t where
  delimits c inside := by
    have kept := plain c inside
    simp only [isPlain, Bool.and_eq_true, Bool.not_eq_true'] at kept
    exact kept.1
  ampersand before rest split := by
    have never := plain '&' (by simp [split])
    simp [isPlain] at never

theorem inert_append {a b : Text} (first : Inert a) (second : Inert b) : Inert (a ++ b) where
  delimits c inside := by
    rcases List.mem_append.mp inside with left | right
    · exact first.delimits c left
    · exact second.delimits c right
  ampersand before rest split := by
    rcases List.append_eq_append_iff.mp split with ⟨mid, rfl, right⟩ | ⟨mid, rfl, right⟩
    · exact second.ampersand mid rest right
    · cases mid with
      | nil => exact second.ampersand [] rest right.symm
      | cons c mid =>
          -- The ampersand is in the first text, and so is the entity that it starts.
          obtain ⟨rfl, rfl⟩ := List.cons.inj right
          obtain ⟨entity, known, starts⟩ := first.ampersand before mid rfl
          exact ⟨entity, known, starts.trans (List.prefix_append ('&' :: mid) b)⟩

theorem inert_entity {entity : Text} (known : entity ∈ entities) : Inert entity := by
  have shape : ∀ entity ∈ entities, entity.head? = some '&' ∧ ∀ c ∈ entity.tail, isPlain c := by
    simp [entities, isPlain, delimitsMarkup]
  obtain ⟨starts, plain⟩ := shape entity known
  obtain ⟨tail, rfl⟩ := List.head?_eq_some_iff.mp starts
  constructor
  · intro c inside
    rcases List.mem_cons.mp inside with rfl | later
    · rfl
    · exact (inert_of_plain plain).delimits c later
  · intro before rest split
    cases before with
    | nil => exact ⟨'&' :: tail, known, split ▸ List.prefix_refl _⟩
    | cons _ before =>
        obtain ⟨-, rfl⟩ := List.cons.inj split
        exact (inert_of_plain plain).ampersand before rest rfl

theorem inert_escape_char (c : Char) : Inert (escapeChar c) := by
  unfold escapeChar
  split
  · exact inert_entity (by simp [entities])
  split
  · exact inert_entity (by simp [entities])
  split
  · exact inert_entity (by simp [entities])
  split
  · exact inert_entity (by simp [entities])
  split
  · exact inert_entity (by simp [entities])
  split
  · exact inert_of_plain (by simp [isPlain, delimitsMarkup])
  · -- None of the characters that are escaped.
    apply inert_of_plain
    intro d inside
    rw [List.mem_singleton.mp inside]
    simp [isPlain, delimitsMarkup, *]

theorem inert_escape_html (t : Text) : Inert (escapeHtml t) := by
  induction t with
  | nil => exact inert_of_plain (by simp [escapeHtml])
  | cons c rest ih => exact inert_append (inert_escape_char c) ih

end Text

mutual
/-- No variable is written as it stands, and no text holds what would have to be escaped. -/
def Node.isHarmless : Node → Bool
  | .text content => content.all Text.isPlain
  | .variableTag _ escape => escape
  | .sectionTag _ _ _ children => Node.allHarmless children
  | .partialTag _ _ _ | .unknownTag _ | .unknown => true

def Node.allHarmless : List Node → Bool
  | [] => true
  | first :: rest => first.isHarmless && Node.allHarmless rest
end

theorem Node.all_harmless_cons (first : Node) (rest : List Node) :
    Node.allHarmless (first :: rest) = true ↔
      first.isHarmless = true ∧ Node.allHarmless rest = true := by
  rw [Node.allHarmless, Bool.and_eq_true]

theorem inert_of_prints {node : Node} {text : Text} (harmless : node.isHarmless = true)
    (prints : Ahead.Prints node text) : text.Inert := by
  cases prints with
  | text content =>
      apply Text.inert_of_plain
      exact List.all_eq_true.mp harmless
  | value name escape v host =>
      cases escape with
      | true => exact Text.inert_escape_html _
      | false => cases harmless

namespace Ahead
variable {settings : Settings}

/-- Nothing harmful is ahead: neither in the nodes at hand nor in the tree of a partial that
the rendering comes to. -/
structure Harmless (settings : Settings) (ahead : Ahead) : Prop where
  nodes : Node.allHarmless ahead.nodes = true
  included : ∀ depth name indent linked rest chain state inside after,
    Reaches settings ahead ⟨depth + 1, .partialTag name indent linked :: rest, chain, state⟩ →
    partialNodes settings name indent linked state = .ok inside after →
    Node.allHarmless inside = true

theorem harmless_next {a b : Ahead} (next : Next settings a b) (harmless : Harmless settings a) :
    Harmless settings b where
  nodes := by
    cases next with
    | sibling _ => exact ((Node.all_harmless_cons _ _).mp harmless.nodes).2
    | child _ _ => exact ((Node.all_harmless_cons _ _).mp harmless.nodes).1
    | included ran => exact harmless.included _ _ _ _ _ _ _ _ _ (.here _) ran
  included depth name indent linked rest chain state inside after reached ran :=
    harmless.included depth name indent linked rest chain state inside after
      (.later next reached) ran

def AddsInert (start : Progress) (result : EStateM.Result Fault Progress Unit) : Prop :=
  ∃ written, (final result).sink.pieces = start.sink.pieces ++ written ∧
    Text.Inert written.flatten

theorem adds_nothing {start : Progress} {result : EStateM.Result Fault Progress Unit}
    (kept : (final result).sink = start.sink) : AddsInert start result :=
  ⟨[], by simp [kept], Text.inert_of_plain (by simp)⟩

theorem adds_then {start between : Progress} {result : EStateM.Result Fault Progress Unit}
    (first : AddsInert start (.ok () between)) (rest : AddsInert between result) :
    AddsInert start result := by
  obtain ⟨earlier, kept, inert⟩ := first
  obtain ⟨later, kept', inert'⟩ := rest
  refine ⟨earlier ++ later, ?_, ?_⟩
  · rw [kept', ← List.append_assoc]
    exact congrArg (· ++ later) kept
  · rw [List.flatten_append]
    exact Text.inert_append inert inert'

theorem own_adds_inert (depth : Nat) {first : Node} (harmless : first.isHarmless = true)
    (chain : Chain) (start : Progress) :
    AddsInert start (own settings depth first chain start) := by
  rcases own_writes depth first chain start with kept | ⟨text, after, ran, prints, wrote⟩
  · exact adds_nothing kept
  · refine ⟨[text], ?_, ?_⟩
    · rw [ran]
      simp [final, Sink.pieces, wrote]
    · simpa using inert_of_prints harmless prints

theorem run_adds_inert {ahead : Ahead} (harmless : Harmless settings ahead) :
    AddsInert ahead.start (ahead.run settings) := by
  have keeps : Keeps settings AddsInert ahead :=
    { nothing := fun _ => adds_nothing rfl
      andThen := fun _ _ _ => adds_then
      own := by
        intro depth first rest chain start reached
        have here := (reaches_keep (fun _ _ => harmless_next) reached harmless).nodes
        exact own_adds_inert depth ((Node.all_harmless_cons first rest).mp here).1 chain start }
  exact run_keeps keeps

end Ahead

/-- Whatever the data are, a rendering writes only inert text if all variables are escaped and
no text of the template or of a partial has to be: also if it fails, and if the sink does. -/
theorem output_is_inert (template : Template) (registry : Registry) (depth : Nat)
    (contexts : Chain) (start : Progress)
    (harmless : (template.ahead depth contexts start).Harmless (template.settings registry)) :
    ∃ written, (final (template.renderTo registry depth contexts start)).sink.pieces =
        start.sink.pieces ++ written ∧
      Text.Inert written.flatten :=
  Ahead.run_adds_inert harmless

def hostilePage : Template :=
  ⟨[.sectionTag ['l'] false 1 [.partialTag ['p'] [' '] true]], .standard,
    .dictionary (.mapping .dict none [(.str ['p'], .str "{{.}}\n".toList)]), .standard⟩

def hostileData : Chain :=
  [.mapping .dict none [(.str ['l'], .sequence .list [.str ['<', '&'], .str ['\'', '\x00', 'a']])]]

def hostileStart : Progress := ⟨.initial, .open none, []⟩

inductive HostileAhead : Ahead → Prop
  | page (chain : Chain) (start : Progress) :
      HostileAhead ⟨1, [.sectionTag ['l'] false 1 [.partialTag ['p'] [' '] true]], chain, start⟩
  | item (chain : Chain) (start : Progress) :
      HostileAhead ⟨1, [.partialTag ['p'] [' '] true], chain, start⟩
  | done (chain : Chain) (start : Progress) : HostileAhead ⟨1, [], chain, start⟩
  | inside (nodes : List Node) (chain : Chain) (start : Progress) :
      HostileAhead ⟨0, nodes, chain, start⟩

theorem hostile_next (a b : Ahead) (next : Ahead.Next (hostilePage.settings .standard) a b)
    (here : HostileAhead a) : HostileAhead b := by
  cases here with
  | page chain start =>
      cases next with
      | sibling _ => exact .done _ _
      | child _ _ => exact .item _ _
  | item chain start =>
      cases next with
      | sibling _ => exact .done _ _
      | included _ => exact .inside _ _ _
  | done chain start => cases next
  | inside nodes chain start => cases next <;> exact .inside _ _ _

theorem hostile_page_harmless :
    (hostilePage.ahead 1 hostileData hostileStart).Harmless (hostilePage.settings .standard) where
  nodes := rfl
  included := by
    intro depth name indent linked rest chain state inside after reached ran
    have here := Ahead.reaches_keep hostile_next reached (.page _ _)
    cases here with
    | item =>
        have source : fetchPartial (hostilePage.settings .standard) ['p'] [' '] true state =
            .ok " {{.}}\n".toList state := by rfl
        have parsed : parse " {{.}}\n".toList .standard =
            .ok ⟨[.text [' '], .variableTag ['.'] true, .text ['\n']], .standard⟩ := by cbv
        have delimiters : (hostilePage.settings .standard).delimiters = .standard := rfl
        rw [partialNodes, bind_of_ok source, delimiters, parsed] at ran
        cases ran
        rfl

theorem hostile_page_inert :
    ∃ written, (final (hostilePage.renderTo .standard 1 hostileData hostileStart)).sink.pieces =
        hostileStart.sink.pieces ++ written ∧
      Text.Inert written.flatten ∧
      written.flatten = " &lt;&amp;\n &#39;\uFFFDa\n".toList := by
  obtain ⟨written, adds, inert⟩ := output_is_inert hostilePage .standard 1 hostileData hostileStart
    hostile_page_harmless
  have text : (final (hostilePage.renderTo .standard 1 hostileData hostileStart)).sink.text =
      " &lt;&amp;\n &#39;\uFFFDa\n".toList := by cbv
  refine ⟨written, adds, inert, ?_⟩
  rw [Sink.text, adds] at text
  exact text

end Mustache
