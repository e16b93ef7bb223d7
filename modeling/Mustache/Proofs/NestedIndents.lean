import Mathlib
import Mustache.Proofs.Inclusion
import Mustache.Proofs.Indenting

/-!
Partials within partials, each alone on an indented line of the one around it. What is rendered
for the outermost one is the texts of all levels put into each other, where every line that is not
empty stands behind the indents of all the levels around it, from the outermost on.
-/

namespace Mustache

/-! Lines of an indented text. -/

namespace Text

def indentLine (indent line : Text) : Text := if line = [] then [] else indent ++ line

theorem intercalate_append (separator front first : Text) (rest : List Text) :
    separator.intercalate ((front ++ first) :: rest) =
      front ++ separator.intercalate (first :: rest) := by
  cases rest with
  | nil => simp
  | cons next later => simp [List.intercalate_cons_cons]

theorem indent_from_lines (indent t : Text) :
    ∃ first rest, t.splitOn '\n' = first :: rest ∧
      indentFrom indent true t =
        ['\n'].intercalate (indentLine indent first :: rest.map (indentLine indent)) ∧
      indentFrom indent false t = ['\n'].intercalate (first :: rest.map (indentLine indent)) := by
  induction t with
  | nil => exact ⟨[], [], rfl, rfl, rfl⟩
  | cons c t ih =>
      -- Both ways to begin are needed, since a line break turns one into the other.
      obtain ⟨first, rest, lines, fresh, inside⟩ := ih
      rw [List.splitOn_cons_eq_if_modifyHead, lines]
      by_cases feed : c = '\n'
      · subst feed
        have broken : '\n' :: indentFrom indent true t =
            ['\n'].intercalate ([] :: (first :: rest).map (indentLine indent)) := by
          rw [fresh, List.map_cons, List.intercalate_cons_cons]
          rfl
        refine ⟨[], first :: rest, by simp, ?_, ?_⟩
        · rw [indent_line_break, broken]
          rfl
        · rw [indent_line_break, broken]
      · have held : c :: indentFrom indent false t =
            ['\n'].intercalate ((c :: first) :: rest.map (indentLine indent)) := by
          rw [inside]
          exact (intercalate_append ['\n'] [c] first _).symm
        refine ⟨c :: first, rest, by simp [feed], ?_, ?_⟩
        · rw [indent_cons _ _ _ _ feed, held, indentLine, if_neg (List.cons_ne_nil c first)]
          exact (intercalate_append ['\n'] indent (c :: first) _).symm
        · rw [indent_cons _ _ _ _ feed, held]
          rfl

theorem indent_lines_eq (indent t : Text) :
    indentLines indent t = ['\n'].intercalate ((t.splitOn '\n').map (indentLine indent)) := by
  obtain ⟨first, rest, lines, fresh, -⟩ := indent_from_lines indent t
  rw [indentLines, fresh, lines, List.map_cons]

/-- No tag opens in the text. -/
def Tagless (t : Text) : Prop := ¬ Delimiters.standard.opening <:+: t

instance (t : Text) : Decidable t.Tagless :=
  inferInstanceAs (Decidable (¬ Delimiters.standard.opening <:+: t))

theorem tagless_indented {t : Text} (plain : t.Tagless) {indent : Text}
    (blank : ∀ c ∈ indent, isPadding c = true) : (indentLines indent t).Tagless := by
  have opens : Delimiters.standard.opening ≠ [] := by decide
  have found := up_to_indent (fun c member => is_space_of_padding c (blank c member))
    Delimiters.standard.opening opens (by simp [Delimiters.standard, isSpace]) [] t
  rw [(up_to_none_iff _ _).mpr plain] at found
  exact (up_to_none_iff _ _).mp found

end Text

theorem scan_tagless {t : Text} (plain : t.Tagless) :
    scan t .standard = ⟨[], .ok ⟨t, 1, .standard⟩⟩ := by
  let cursor := Cursor.start t .standard
  have absent : Text.upTo? cursor.delimiters.opening cursor.rest = none :=
    (Text.up_to_none_iff Delimiters.standard.opening t).mpr plain
  have stepped : cursor.step = .finish t cursor.runOut := by
    rw [Cursor.step_eq, absent]
    rfl
  exact Cursor.scan_finish stepped

def PartialLine.behind {pair : Delimiters} (line : PartialLine pair) (indent : Text)
    (blank : ∀ c ∈ indent, Text.isPadding c = true) : PartialLine pair where
  pad := indent ++ line.pad
  name := line.name
  brk := line.brk
  opens := line.opens
  visible := line.visible
  blank := List.forall_mem_append.mpr ⟨blank, line.blank⟩
  trimmed := line.trimmed
  closed := line.closed
  ended := line.ended

theorem PartialLine.indent_source {pair : Delimiters} (line : PartialLine pair)
    (inline : '\n' ∉ line.name) {indent : Text}
    (blank : ∀ c ∈ indent, Text.isPadding c = true) :
    Text.indentLines indent line.source = (line.behind indent blank).source := by
  -- What stands before the line break is one line, so only its first character is indented.
  obtain ⟨first, rest, front⟩ := List.exists_cons_of_ne_nil
    (show line.pad ++ pair.opening ++ ('>' :: line.name) ++ pair.closing ≠ [] by simp)
  have unbroken : '\n' ∉ first :: rest := by
    rw [← front]
    intro member
    simp only [List.mem_append, List.mem_cons] at member
    rcases member with ((pad | opening) | char | name) | closing
    · exact absurd (line.blank _ pad) (by decide)
    · exact absurd (line.visible _ (List.mem_append_left _ opening)) (by decide)
    · exact absurd char (by decide)
    · exact inline name
    · exact absurd (line.visible _ (List.mem_append_right _ closing)) (by decide)
  obtain ⟨other, later⟩ := List.ne_and_not_mem_of_not_mem_cons unbroken
  have broken : Text.indentFrom indent false line.brk = line.brk := by
    rcases line.ended with brk | brk <;> rw [brk] <;> rfl
  have within : Cursor.startsLine ((first :: rest).reverse ++ []) = false := by
    rw [← Bool.not_eq_true, List.append_nil, ← Text.ends_line_iff]
    exact fun ends => unbroken (Text.ends_line_mem _ ends (List.cons_ne_nil first rest))
  have whole := Text.indent_append indent [] (first :: rest) line.brk
  rw [within, broken, Cursor.startsLine, Text.indent_cons _ _ _ _ other.symm,
    Text.indent_inline _ _ later] at whole
  rw [Text.indentLines, source, front, whole, source]
  simp only [behind, ← front, if_true, List.append_assoc]

/-- The text of a partial in which another one stands alone on its line, and no other tag. -/
structure Level where
  above : Text
  line : PartialLine .standard
  below : Text
  ends : above.EndsLine
  inline : '\n' ∉ line.name
  above_plain : above.Tagless
  below_plain : below.Tagless

namespace Level
variable (level : Level) {indent : Text} (blank : ∀ c ∈ indent, Text.isPadding c = true)

def source : Text := level.above ++ (level.line.source ++ level.below)

theorem indent_source : Text.indentLines indent level.source =
    Text.indentLines indent level.above ++
      ((level.line.behind indent blank).source ++ Text.indentLines indent level.below) := by
  have line_ends : level.line.source.EndsLine := by
    refine Or.inr ?_
    rw [PartialLine.source, List.getLast?_append]
    rcases level.line.ended with brk | brk <;> rw [brk] <;> rfl
  have first := Text.indent_append indent [] level.above (level.line.source ++ level.below)
  have second := Text.indent_append indent [] level.line.source level.below
  rw [List.append_nil, (Text.ends_line_iff _).mp level.ends] at first
  rw [List.append_nil, (Text.ends_line_iff _).mp line_ends] at second
  rw [← level.line.indent_source level.inline blank]
  exact first.trans (congrArg _ second)

def nodes (indent : Text) : List Node :=
  (Node.pushText (Text.indentLines indent level.below)
    (.partialTag level.line.name (indent ++ level.line.pad) true ::
      Node.pushText (Text.indentLines indent level.above) [])).reverse

include blank in
theorem parse_indented : parse (Text.indentLines indent level.source) .standard =
    .ok ⟨level.nodes indent, .standard⟩ := by
  let line := level.line.behind indent blank
  have above := scan_tagless (Text.tagless_indented level.above_plain blank)
  have below := scan_tagless (Text.tagless_indented level.below_plain blank)
  have whole := tree_append (Text.indentLines indent level.above)
    (line.source ++ Text.indentLines indent level.below) .standard 0 _ line.inline
    (indent_lines_ends _ _ level.ends) (congrArg Scan.ending above) .bottom
  rw [Scan.later_zero, Scan.later_zero, above, ← level.indent_source blank] at whole
  rw [parse_eq_tree, whole]
  refine (line.tree_source _ _ _).trans ?_
  rw [below]
  rfl

end Level

/-- What the partials come to that are named one in the other, the outermost one behind `indent`
and the innermost one the text itself. -/
def indented (text : Text) : List Level → Text → Text
  | [], indent => Text.indentLines indent text
  | level :: deeper, indent =>
      Text.indentLines indent level.above ++ indented text deeper (indent ++ level.line.pad) ++
        Text.indentLines indent level.below

def pieces (text : Text) : List Level → Text → List (Text × Text)
  | [], indent => [(indent, text)]
  | level :: deeper, indent =>
      (indent, level.above) :: pieces text deeper (indent ++ level.line.pad) ++
        [(indent, level.below)]

/-- Nothing but the lines of the texts is left, each behind the indents around it. -/
theorem indented_eq_pieces (text : Text) (levels : List Level) (indent : Text) :
    indented text levels indent = (pieces text levels indent).flatMap fun piece =>
      ['\n'].intercalate ((piece.2.splitOn '\n').map (Text.indentLine piece.1)) := by
  simp only [← Text.indent_lines_eq]
  induction levels generalizing indent with
  | nil => exact (List.append_nil _).symm
  | cons level deeper ih => simp [indented, pieces, ih]

theorem Host.eq_of_like {a b : Host} (like : Host.Like Eq a b) : a = b := by
  obtain ⟨calls, changes, asked⟩ := a
  obtain ⟨rfl, rfl, same⟩ := like
  rw [show asked = b.asked from funext same]

/-- What a provider gives when it is asked for `name` and then for what each text names: the
levels one after the other, and the text at the end. -/
def Provider.Serves (provider : Provider) (text : Text) :
    List Level → Text → Host → Host → Prop
  | [], name, host, after => provider.fetch name host = .ok (.str text) after
  | level :: deeper, name, host, after => ∃ between,
      provider.fetch name host = .ok (.str level.source) between ∧
        provider.Serves text deeper level.line.name between after

def Adds (text : Text) (host : Host) (start : Progress)
    (result : EStateM.Result Fault Progress Unit) : Prop :=
  ∃ done, result = .ok () done ∧ done.host = host ∧ done.sink.room = none ∧
    done.sink.text = start.sink.text ++ text

section Rendering
open Render
variable {settings : Settings} {text more : Text} {host after : Host} {start : Progress}

theorem adds_then {first second : Render Unit} (here : Adds text host start (first start))
    (next : ∀ done : Progress, done.host = host → done.sink.room = none →
      Adds more after done (second done)) :
    Adds (text ++ more) after start ((first >>= fun _ => second) start) := by
  obtain ⟨between, ran, left, roomy, wrote⟩ := here
  obtain ⟨done, ran', left', roomy', wrote'⟩ := next between left roomy
  refine ⟨done, (bind_of_ok ran _).trans ran', left', roomy', ?_⟩
  rw [wrote', wrote, List.append_assoc]

theorem adds_nothing (start : Progress) {expand : Expand} {chain : Chain}
    (roomy : start.sink.room = none) :
    Adds [] start.host start (nodes settings expand ([] : List Node).reverse chain start) :=
  ⟨start, rfl, rfl, roomy, (List.append_nil _).symm⟩

theorem adds_write (content : Text) (roomy : start.sink.room = none) :
    Adds content start.host start (write content start) :=
  ⟨_, write_roomy content start roomy, rfl, rfl, text_cons content start.sink.written none⟩

theorem adds_push (depth : Nat) (content : Text) {before : List Node} {chain : Chain}
    (here : Adds text host start
      (nodes settings (expandPartial settings depth) before.reverse chain start))
    (roomy : start.sink.room = none) :
    Adds (text ++ content) host start
      (nodes settings (expandPartial settings depth) (Node.pushText content before).reverse chain
        start) := by
  have both : Adds (text ++ content) host start
      ((nodes settings (expandPartial settings depth) before.reverse chain >>= fun _ =>
        write content) start) :=
    adds_then here fun done left roomy => left ▸ adds_write content roomy
  -- The siblings with the text are rendered like the siblings and then the text.
  have same := strict_agree
    (strict_push_text settings (expand_alone settings depth) content before chain) start roomy
  obtain ⟨done, ran, left, open_, wrote⟩ := both
  rw [ran] at same
  obtain ⟨done', ran', like⟩ :=
    agree_of_ok (agree_flip (fun _ _ => like_flip fun _ _ => Eq.symm) same)
  refine ⟨done', ran', ?_, like.roomy', like.text ▸ wrote⟩
  rw [← left]
  exact (Host.eq_of_like like.host).symm

/-- By induction on the levels: each one is read with the indent that the levels around it have
piled up, and hands it on to the next one with its own pad. -/
theorem expand_levels (standard : settings.delimiters = .standard) (plain : text.Tagless)
    (levels : List Level) {name indent : Text} (blank : ∀ c ∈ indent, Text.isPadding c = true)
    (chain : Chain) (roomy : start.sink.room = none)
    (serves : settings.provider.Serves text levels name start.host after) {depth : Nat}
    (deep : levels.length < depth) :
    Adds (indented text levels indent) after start
      (expandPartial settings depth name indent true chain start) := by
  induction levels generalizing name indent start depth with
  | nil =>
      obtain ⟨depth, rfl⟩ := Nat.exists_eq_add_one_of_ne_zero (Nat.ne_zero_of_lt deep)
      have read : parse (Text.indentLines indent text) settings.delimiters =
          .ok ⟨(Node.pushText (Text.indentLines indent text) []).reverse, .standard⟩ := by
        rw [standard, parse_eq_tree, scan_tagless (Text.tagless_indented plain blank)]
        rfl
      obtain ⟨notes, expanded⟩ := expand_fetched settings serves read depth chain
      rw [expanded]
      exact adds_push depth (Text.indentLines indent text)
        (adds_nothing ⟨after, start.sink, notes⟩ roomy) roomy
  | cons level deeper ih =>
      obtain ⟨depth, rfl⟩ := Nat.exists_eq_add_one_of_ne_zero (Nat.ne_zero_of_lt deep)
      obtain ⟨between, fetched, serves⟩ := serves
      have read := level.parse_indented blank
      rw [← standard] at read
      obtain ⟨notes, expanded⟩ := expand_fetched settings fetched read depth chain
      have inside : Adds (Text.indentLines indent level.above ++
          indented text deeper (indent ++ level.line.pad)) after ⟨between, start.sink, notes⟩
          (nodes settings (expandPartial settings depth)
            (.partialTag level.line.name (indent ++ level.line.pad) true ::
              Node.pushText (Text.indentLines indent level.above) []).reverse chain
            ⟨between, start.sink, notes⟩) := by
        rw [List.reverse_cons, nodes_snoc]
        -- The tag is reached in the data that the text of this level was fetched with.
        refine adds_then (adds_push depth (Text.indentLines indent level.above)
          (adds_nothing ⟨between, start.sink, notes⟩ roomy) roomy) fun done left roomy => ?_
        exact ih (List.forall_mem_append.mpr ⟨blank, level.line.blank⟩) roomy
          (left ▸ serves) (Nat.lt_of_succ_lt_succ deep)
      rw [expanded]
      exact adds_push depth (Text.indentLines indent level.below) inside roomy

end Rendering

theorem PartialLine.parse_source (line : PartialLine .standard) :
    parse line.source .standard = .ok ⟨[.partialTag line.name line.pad true], .standard⟩ := by
  have whole := line.tree_source [] 0 .bottom
  rw [Scan.later_zero, List.append_nil] at whole
  rw [parse_eq_tree, whole, scan_tagless (by decide : Text.Tagless [])]
  rfl

/-- The indents of nested partials pile up: the line of the outermost one is rendered as the
texts of all levels put into each other, in which each line stands behind the indents of all the
levels around it, unless it is empty. -/
theorem nested_indents_accumulate (options : Options) (standard : options.delimiters = .standard)
    (provider : Provider) (page : PartialLine .standard) (levels : List Level) (text : Text)
    (plain : text.Tagless) (registry : Registry) (contexts : Chain) {start : Progress}
    {after : Host} (serves : provider.Serves text levels page.name start.host after) {depth : Nat}
    (deep : levels.length < depth) :
    (∃ template, Template.compile page.source provider options = .ok template ∧
      ∃ notes, template.render registry depth contexts start =
        .ok (indented text levels page.pad) ⟨after, start.sink, notes⟩) ∧
    indented text levels page.pad = (pieces text levels page.pad).flatMap fun piece =>
      ['\n'].intercalate ((piece.2.splitOn '\n').map (Text.indentLine piece.1)) := by
  let template : Template :=
    ⟨[.partialTag page.name page.pad true], .standard, provider, options⟩
  refine ⟨⟨template, ?_, ?_⟩, indented_eq_pieces text levels page.pad⟩
  · rw [Template.compile, standard, page.parse_source]
    rfl
  · let opened : Progress := { start with sink := .open none }
    let settings := options.settings provider registry
    -- The page is its partial and nothing else, so the induction on the levels applies to it.
    have alone : Adds (indented text levels page.pad ++ []) after opened
        (Render.nodes settings (Render.expandPartial settings depth)
          [.partialTag page.name page.pad true] contexts opened) :=
      adds_then (expand_levels standard plain levels page.blank contexts rfl serves deep)
        fun done left roomy => ⟨done, rfl, left, roomy, (List.append_nil _).symm⟩
    obtain ⟨done, ran, left, -, wrote⟩ := alone
    refine ⟨done.notes, ?_⟩
    have rendered : template.renderTo registry depth contexts opened = .ok () done := ran
    rw [List.append_nil] at wrote
    rw [Template.render, Render.toText, rendered]
    dsimp only
    rw [wrote, left]
    rfl

def outerLevel : Level where
  above := "a\n\n".toList
  line :=
    { pageLine with
      pad := [' ', ' ']
      name := ['q']
      blank := by simp [Text.isPadding]
      trimmed := by decide
      closed := by decide }
  below := "b\n".toList
  ends := by decide
  inline := by decide
  above_plain := by decide
  below_plain := by decide

def innerLevel : Level where
  above := []
  line :=
    { pageLine with
      pad := ['\t']
      name := ['r']
      blank := by simp [Text.isPadding]
      trimmed := by decide
      closed := by decide }
  below := "\nc\n".toList
  ends := by decide
  inline := by decide
  above_plain := by decide
  below_plain := by decide

def levelsProvider : Provider :=
  .dictionary (.mapping .dict none
    [(.str ['p'], .str outerLevel.source), (.str ['q'], .str innerLevel.source),
      (.str ['r'], .str "x\n\ny\n".toList)])

theorem three_indents_accumulate :
    ∃ template, Template.compile pageLine.source levelsProvider .standard = .ok template ∧
      ∃ notes, template.render .standard 3 [] pageStart =
        .ok " \ta\n\n \t  \tx\n\n \t  \ty\n\n \t  c\n \tb\n".toList
          ⟨.initial, pageStart.sink, notes⟩ := by
  have served : levelsProvider.Serves "x\n\ny\n".toList [outerLevel, innerLevel] pageLine.name
      pageStart.host .initial := ⟨_, rfl, _, rfl, rfl⟩
  have nested := nested_indents_accumulate .standard rfl levelsProvider pageLine
    [outerLevel, innerLevel] "x\n\ny\n".toList (by decide) .standard [] served
    (by decide : 2 < 3)
  have layout : indented "x\n\ny\n".toList [outerLevel, innerLevel] pageLine.pad =
      " \ta\n\n \t  \tx\n\n \t  \ty\n\n \t  c\n \tb\n".toList := by decide
  rw [layout] at nested
  exact nested.1

end Mustache
