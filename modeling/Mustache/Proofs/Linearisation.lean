import Mathlib.Data.List.Chain
import Mustache.Proofs.OpenSections

/-!
A flat reference for reading a tree: the tags of a scan are matched with a stack of
names, and what they leave behind is written down in the order of the source, texts
that meet joined into one. The tree of the source, read from left to right, is the
same sequence, and where the reference fails reading fails with the same error.
-/

namespace Mustache

def joinTexts : List Mark → List Mark
  | [] => []
  | .text content :: rest =>
      match joinTexts rest with
      | .text more :: later => .text (content ++ more) :: later
      | later => if content = [] then later else .text content :: later
  | mark :: rest => mark :: joinTexts rest

def Token.tagMarks (token : Token) : List Mark :=
  match token.tag with
  | .comment | .stray | .delimiters _ => []
  | .value name escape => [.variableTag name escape]
  | .inclusion name => [.partialTag name token.padding]
  | .opening inverted name => [.enter name inverted token.line]
  | .closing name => [.leave name]

def Token.marks (token : Token) : List Mark :=
  .text token.text :: .text (if token.standalone then [] else token.padding) :: token.tagMarks

/-- The sections that are open after the tags, or the first closing tag that names
another section than the innermost open one. -/
def matchTags (opens : List OpenSection) : List Token → Except ParseError (List OpenSection)
  | [] => .ok opens
  | token :: rest =>
      match token.tag with
      | .opening _ name => matchTags (⟨name, token.line⟩ :: opens) rest
      | .closing name =>
          match opens with
          | [] => .error ⟨.unmatchedCloseTag, token.endLine⟩
          | innermost :: outer =>
              if name = innermost.name then matchTags outer rest
              else .error ⟨.interleavedClosingTag name, token.endLine⟩
      | _ => matchTags opens rest

/-- A source without its tree: the marks it leaves in order, and its last delimiters. -/
def Scan.flat (scanned : Scan) : Except ParseError (List Mark × Delimiters) :=
  match matchTags [] scanned.tokens, scanned.ending with
  | .error error, _ | .ok _, .error error => .error error
  | .ok (innermost :: _), .ok _ => .error ⟨.unclosedSection innermost.name, innermost.line⟩
  | .ok [], .ok ending =>
      .ok (joinTexts (scanned.tokens.flatMap Token.marks ++ [.text ending.tail]),
        ending.delimiters)

/-- The sections that are open after the tags, whatever names the closing tags have. -/
def openAfter (opens : List OpenSection) : List Token → List OpenSection
  | [] => opens
  | token :: rest =>
      match token.tag with
      | .opening _ name => openAfter (⟨name, token.line⟩ :: opens) rest
      | .closing _ => openAfter opens.tail rest
      | _ => openAfter opens rest

/-- Every closing tag names the section that is innermost where it stands. -/
def ClosesInnermost (opens : List OpenSection) (tokens : List Token) : Prop :=
  ∀ earlier token later name, tokens = earlier ++ token :: later → token.tag = .closing name →
    (openAfter opens earlier).head?.map (·.name) = some name

/-! Joining texts from the left, with what is joined so far kept nearest first. -/
section Joining

def Mark.push (mark : Mark) (before : List Mark) : List Mark :=
  match mark, before with
  | .text [], before => before
  | .text content, .text previous :: rest => .text (previous ++ content) :: rest
  | mark, before => mark :: before

def pushMarks (before marks : List Mark) : List Mark :=
  marks.foldl (fun before mark => mark.push before) before

def Mark.isText : Mark → Bool
  | .text _ => true
  | _ => false

/-- No text is empty, and no two texts meet. Read backwards this says the same. -/
def Joined (marks : List Mark) : Prop :=
  .text [] ∉ marks ∧ marks.IsChain fun a b => a.isText = false ∨ b.isText = false

theorem joined_reverse (marks : List Mark) (joined : Joined marks) : Joined marks.reverse := by
  refine ⟨by simpa using joined.1, List.isChain_reverse.mpr ?_⟩
  exact joined.2.imp fun a b apart => apart.symm

theorem push_text (content : Text) (before : List Mark) :
    (Mark.text content).push before =
      if content = [] then before
      else match before with
        | .text previous :: rest => .text (previous ++ content) :: rest
        | before => .text content :: before := by
  cases content with
  | nil => rfl
  | cons c later =>
      cases before with
      | nil => rfl
      | cons mark rest => cases mark <;> rfl

theorem push_joined (mark : Mark) (before : List Mark) (joined : Joined before) :
    Joined (mark.push before) := by
  obtain ⟨visible, apart⟩ := joined
  cases mark with
  | text content =>
      rw [push_text]
      by_cases empty : content = []
      · simpa [empty] using ⟨visible, apart⟩
      · rw [if_neg empty]
        cases before with
        | nil => simp [Joined, Ne.symm empty]
        | cons mark rest =>
            cases mark with
            | text previous =>
                rw [List.isChain_cons] at apart
                exact ⟨by simp_all, List.isChain_cons.mpr apart⟩
            | _ =>
                exact ⟨by simp_all [Ne.symm empty],
                  List.isChain_cons.mpr ⟨by simp [Mark.isText], apart⟩⟩
  | _ =>
      exact ⟨by simpa [Mark.push] using visible,
        List.isChain_cons.mpr ⟨by simp [Mark.isText], apart⟩⟩

theorem join_texts_append (a b c : List Mark) (same : joinTexts b = joinTexts c) :
    joinTexts (a ++ b) = joinTexts (a ++ c) := by
  induction a with
  | nil => exact same
  | cons mark rest ih => cases mark <;> simp [joinTexts, ih]

theorem join_texts_text (first second : Text) (rest : List Mark) :
    joinTexts (.text first :: .text second :: rest) = joinTexts (.text (first ++ second) :: rest) := by
  rw [joinTexts, joinTexts, joinTexts]
  cases joinTexts rest with
  | nil => by_cases empty : second = [] <;> simp [empty]
  | cons mark later =>
      cases mark with
      | text more => simp
      | _ => by_cases empty : second = [] <;> simp [empty]

theorem join_texts_empty (rest : List Mark) : joinTexts (.text [] :: rest) = joinTexts rest := by
  rw [joinTexts]
  cases joinTexts rest with
  | nil => rfl
  | cons mark later => cases mark <;> rfl

theorem join_texts_push (mark : Mark) (before later : List Mark) :
    joinTexts (before.reverse ++ mark :: later) = joinTexts ((mark.push before).reverse ++ later) := by
  cases mark with
  | text content =>
      rw [push_text]
      by_cases empty : content = []
      · rw [if_pos empty, empty]
        exact join_texts_append _ _ _ (join_texts_empty later)
      · rw [if_neg empty]
        cases before with
        | nil => rfl
        | cons previous rest =>
            cases previous with
            | text previous =>
                simp only [List.reverse_cons, List.append_assoc, List.cons_append, List.nil_append]
                exact join_texts_append _ _ _ (join_texts_text previous content later)
            | _ => simp
  | _ => simp [Mark.push]

theorem join_texts_joined (marks : List Mark) (joined : Joined marks) :
    joinTexts marks = marks := by
  induction marks with
  | nil => rfl
  | cons mark rest ih =>
      obtain ⟨visible, apart⟩ := joined
      rw [List.isChain_cons] at apart
      have tail := ih ⟨fun member => visible (List.mem_cons_of_mem mark member), apart.2⟩
      cases mark with
      | text content =>
          have nonempty : content ≠ [] := by
            rintro rfl
            exact visible List.mem_cons_self
          rw [joinTexts, tail]
          cases rest with
          | nil => simp [nonempty]
          | cons next later =>
              -- A text next to this one is ruled out, and before a tag nothing is joined.
              cases next with
              | text more => simp [Mark.isText] at apart
              | _ => simp [nonempty]
      | _ => simp [joinTexts, tail]

theorem push_marks_join (before marks : List Mark) (joined : Joined before) :
    joinTexts (before.reverse ++ marks) = (pushMarks before marks).reverse := by
  induction marks generalizing before with
  | nil =>
      rw [List.append_nil]
      exact join_texts_joined _ (joined_reverse before joined)
  | cons mark rest ih =>
      rw [join_texts_push, ih (mark.push before) (push_joined mark before joined)]
      rfl

end Joining

/-! The marks of a stack, nearest first, and what a tag adds to them. -/
section StackMarks

def backMarks (before : List Node) : List Mark := (Node.marksAll before.reverse).reverse

def Frame.marks (frame : Frame) : List Mark :=
  .enter frame.opened.name frame.inverted frame.opened.line :: backMarks frame.before

def Stack.marks (stack : Stack) : List Mark :=
  backMarks stack.before ++ stack.frames.flatMap Frame.marks

def Stack.opens (stack : Stack) : List OpenSection := stack.frames.map (·.opened)

theorem marks_all_append (first second : List Node) :
    Node.marksAll (first ++ second) = Node.marksAll first ++ Node.marksAll second := by
  induction first with
  | nil => rfl
  | cons node rest ih => simp [Node.marksAll, ih]

theorem back_marks_cons (node : Node) (before : List Node) :
    backMarks (node :: before) = node.marks.reverse ++ backMarks before := by
  simp [backMarks, marks_all_append, Node.marksAll]

theorem push_text_marks (content : Text) (before : List Node) (outer : List Mark)
    (apart : ∀ more, outer.head? ≠ some (.text more)) :
    backMarks (Node.pushText content before) ++ outer =
      (Mark.text content).push (backMarks before ++ outer) := by
  rw [push_text]
  unfold Node.pushText
  by_cases empty : content = []
  · simp [empty]
  · rw [if_neg empty, if_neg empty]
    cases before with
    | nil =>
        cases outer with
        | nil => rfl
        | cons mark rest =>
            cases mark with
            | text more => exact absurd rfl (apart more)
            | _ => rfl
    | cons node rest =>
        cases node with
        | text previous => simp [back_marks_cons, Node.marks]
        | _ => simp [back_marks_cons, Node.marks]

theorem frames_marks_head (frames : List Frame) (more : Text) :
    (frames.flatMap Frame.marks).head? ≠ some (.text more) := by
  cases frames with
  | nil => simp
  | cons frame outer => simp [Frame.marks]

theorem with_text_marks (token : Token) (stack : Stack) :
    backMarks (token.withText stack.before) ++ stack.frames.flatMap Frame.marks =
      pushMarks stack.marks
        [.text token.text, .text (if token.standalone then [] else token.padding)] := by
  have apart := frames_marks_head stack.frames
  simp only [pushMarks, List.foldl_cons, List.foldl_nil, Stack.marks, Token.withText]
  cases token.standalone with
  | true => simp [push_text_marks _ _ _ apart, push_text]
  | false => simp [push_text_marks _ _ _ apart]

theorem step_marks (token : Token) (stack after : Stack) (stepped : stack.step token = .ok after) :
    after.marks = pushMarks stack.marks token.marks := by
  -- The text before the tag comes first, whatever the tag does.
  have spaced := with_text_marks token stack
  have split : pushMarks stack.marks token.marks =
      pushMarks (backMarks (token.withText stack.before) ++ stack.frames.flatMap Frame.marks)
        token.tagMarks := by
    rw [spaced]
    rfl
  rw [split]
  unfold Stack.step at stepped
  cases tag : token.tag with
  | comment | stray | delimiters =>
      simp only [tag] at stepped
      cases stepped
      simp [Token.tagMarks, tag, pushMarks, Stack.marks]
  | value name escape | inclusion name =>
      simp only [tag] at stepped
      cases stepped
      simp [Token.tagMarks, tag, pushMarks, Stack.marks, back_marks_cons, Node.marks, Mark.push]
  | opening inverted name =>
      simp only [tag] at stepped
      cases stepped
      simp [Token.tagMarks, tag, pushMarks, Stack.marks, Mark.push, Frame.marks]
      rfl
  | closing name =>
      simp only [tag] at stepped
      cases frames : stack.frames with
      | nil => simp [frames] at stepped
      | cons frame outer =>
          simp only [frames] at stepped
          by_cases fits : name = frame.opened.name
          · rw [if_pos fits] at stepped
            cases stepped
            simp [Token.tagMarks, tag, pushMarks, Stack.marks, Mark.push, Frame.marks, fits,
              Frame.close, back_marks_cons, Node.marks]
            rfl
          · rw [if_neg fits] at stepped
            cases stepped

theorem run_marks (tokens : List Token) (stack after : Stack)
    (ran : stack.run tokens = .ok after) :
    after.marks = pushMarks stack.marks (tokens.flatMap Token.marks) := by
  induction tokens generalizing stack with
  | nil => cases ran; rfl
  | cons token rest ih =>
      cases stepped : stack.step token with
      | error error => simp [Stack.run, stepped, Except.bind] at ran
      | ok next =>
          simp only [Stack.run, stepped, Except.bind] at ran
          rw [ih next ran, step_marks token stack next stepped]
          simp [pushMarks]

theorem run_opens (tokens : List Token) (stack : Stack) :
    (stack.run tokens).map Stack.opens = matchTags stack.opens tokens := by
  induction tokens generalizing stack with
  | nil => rfl
  | cons token rest ih =>
      simp only [Stack.run, Stack.step, matchTags]
      -- Only sections count; a closing tag is compared with the same name on both sides.
      cases tag : token.tag with
      | opening inverted name => exact ih _
      | closing name =>
          cases frames : stack.frames with
          | nil => simp [Stack.opens, frames, Except.bind, Except.map]
          | cons frame outer =>
              by_cases fits : name = frame.opened.name
              · simp only [Stack.opens, frames, List.map_cons, if_pos fits]
                exact ih _
              · simp [Stack.opens, frames, fits, Except.bind, Except.map]
      | _ => exact ih _

end StackMarks

theorem open_after_cons (opens : List OpenSection) (token : Token) (rest : List Token) :
    openAfter opens (token :: rest) = openAfter (openAfter opens [token]) rest := by
  simp only [openAfter]
  cases token.tag <;> rfl

theorem closes_innermost_cons (opens : List OpenSection) (token : Token) (rest : List Token) :
    ClosesInnermost opens (token :: rest) ↔
      (∀ name, token.tag = .closing name → opens.head?.map (·.name) = some name) ∧
        ClosesInnermost (openAfter opens [token]) rest := by
  constructor
  · intro fits
    refine ⟨fun name => fits [] token rest name rfl, ?_⟩
    intro earlier closing later name split tag
    have inner := fits (token :: earlier) closing later name (by rw [split]; rfl) tag
    rwa [open_after_cons] at inner
  · rintro ⟨first, fits⟩ earlier closing later name split tag
    cases earlier with
    | nil =>
        cases split
        exact first name tag
    | cons head earlier =>
        cases split
        rw [open_after_cons]
        exact fits earlier closing later name rfl tag

theorem match_tags_ok (opens after : List OpenSection) (tokens : List Token) :
    matchTags opens tokens = .ok after ↔
      ClosesInnermost opens tokens ∧ openAfter opens tokens = after := by
  induction tokens generalizing opens with
  | nil => simp [matchTags, openAfter, ClosesInnermost]
  | cons token rest ih =>
      rw [closes_innermost_cons, open_after_cons, matchTags]
      -- By the first tag: a closing one has to fit now, and the rest is the induction hypothesis.
      cases tag : token.tag with
      | opening inverted name => simp [ih, openAfter, tag]
      | closing name =>
          cases opens with
          | nil => simp
          | cons innermost outer =>
              by_cases fits : name = innermost.name
              · simp [ih, openAfter, tag, fits]
              · simp [fits, Ne.symm fits]
      | _ => simp [ih, openAfter, tag]

theorem tree_flat (scanned : Scan) :
    (scanned.tree .bottom).map (fun parsed => (Node.marksAll parsed.nodes, parsed.delimiters)) =
      scanned.flat := by
  have matched := run_opens scanned.tokens .bottom
  rw [Scan.tree, Scan.flat]
  cases ran : Stack.bottom.run scanned.tokens with
  | error error =>
      rw [ran] at matched
      rw [show matchTags [] scanned.tokens = .error error from matched.symm]
      rfl
  | ok stack =>
      rw [ran] at matched
      rw [show matchTags [] scanned.tokens = .ok stack.opens from matched.symm]
      cases ended : scanned.ending with
      | error error => simp [Except.bind, Stack.finish, Except.map]
      | ok ending =>
          cases frames : stack.frames with
          | cons frame outer => simp [Except.bind, Stack.finish, Except.map, Stack.opens, frames]
          | nil =>
              -- Only here is there a tree: its marks are those of the tokens and of the last text,
              -- joined.
              have marks := run_marks scanned.tokens .bottom stack ran
              have last := push_text_marks ending.tail stack.before [] (by simp)
              have whole := push_marks_join []
                (scanned.tokens.flatMap Token.marks ++ [.text ending.tail])
                ⟨List.not_mem_nil, .nil⟩
              have written : Node.marksAll (Node.pushText ending.tail stack.before).reverse =
                  joinTexts (scanned.tokens.flatMap Token.marks ++ [.text ending.tail]) := by
                simp only [Stack.marks, frames, List.flatMap_nil, List.append_nil] at marks last
                rw [List.reverse_nil, List.nil_append, pushMarks, List.foldl_append] at whole
                rw [whole, List.foldl_cons, List.foldl_nil, ← List.reverse_eq_iff]
                exact last.trans (congrArg (Mark.push _) marks)
              simp only [Stack.opens, frames, List.map_nil, Except.bind, Stack.finish, Except.map,
                written]

theorem tree_ok_iff (scanned : Scan) :
    (∃ parsed, scanned.tree .bottom = .ok parsed) ↔
      (∃ ending, scanned.ending = .ok ending) ∧
        ClosesInnermost [] scanned.tokens ∧ openAfter [] scanned.tokens = [] := by
  rw [← match_tags_ok]
  have flat := tree_flat scanned
  rw [Scan.flat] at flat
  constructor
  · rintro ⟨parsed, read⟩
    rw [read] at flat
    cases ended : scanned.ending with
    | error error =>
        cases matched : matchTags [] scanned.tokens <;>
          simp [matched, ended, Except.map] at flat
    | ok ending =>
        refine ⟨⟨ending, rfl⟩, ?_⟩
        cases matched : matchTags [] scanned.tokens with
        | error error => simp [matched, Except.map] at flat
        | ok opens =>
            cases opens with
            | nil => rfl
            | cons innermost outer => simp [matched, ended, Except.map] at flat
  · rintro ⟨⟨ending, ended⟩, matched⟩
    rw [ended, matched] at flat
    cases read : scanned.tree .bottom with
    | error error => simp [read, Except.map] at flat
    | ok parsed => exact ⟨parsed, rfl⟩

theorem parse_ok_marks {source : Text} {delimiters : Delimiters} {parsed : Parsed}
    (read : parse source delimiters = .ok parsed) :
    ∃ ending, (scan source delimiters).ending = .ok ending ∧
      Node.marksAll parsed.nodes =
        joinTexts ((scan source delimiters).tokens.flatMap Token.marks ++ [.text ending.tail]) ∧
      parsed.delimiters = ending.delimiters := by
  rw [parse_eq_tree] at read
  obtain ⟨⟨ending, ended⟩, matched⟩ := (tree_ok_iff _).mp ⟨parsed, read⟩
  have flat := tree_flat (scan source delimiters)
  rw [← match_tags_ok] at matched
  rw [read, Scan.flat, matched, ended] at flat
  simp only [Except.map, Except.ok.injEq, Prod.mk.injEq] at flat
  exact ⟨ending, ended, flat.1, flat.2⟩

/-- Reading a source gives the tree whose marks, from left to right, are those of the
flat reference, with the same delimiters at the end, or fails with the same error. It
gives a tree just if the scan ends well, every closing tag names the innermost open
section and no section is open at the end. -/
theorem parse_agrees_with_flat_scan (source : Text) (delimiters : Delimiters) :
    (parse source delimiters).map
        (fun parsed => (Node.marksAll parsed.nodes, parsed.delimiters)) =
      (scan source delimiters).flat ∧
    ((∃ parsed, parse source delimiters = .ok parsed) ↔
      (∃ ending, (scan source delimiters).ending = .ok ending) ∧
        ClosesInnermost [] (scan source delimiters).tokens ∧
        openAfter [] (scan source delimiters).tokens = []) := by
  rw [parse_eq_tree]
  exact ⟨tree_flat _, tree_ok_iff _⟩

end Mustache
