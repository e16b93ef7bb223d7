import Mustache.Proofs.Linearisation
import Mustache.Proofs.Scanning

/-!
The text of a tree is the source without its tags. A tag that stands alone takes the
rest of its line with it, and whether it does is told by what stands around it in the
source: where the cursor was when the tag was read makes no difference.
-/

namespace Mustache

def Text.outside (gone : Nat → Bool) (position : Nat) : Text → Text
  | [] => []
  | c :: rest =>
      if gone position then outside gone (position + 1) rest
      else c :: outside gone (position + 1) rest

def Token.tagText (token : Token) : Text :=
  token.delimiters.opening ++ token.raw ++ token.delimiters.closing

/-- A tag in a source, from its opening delimiter up to the position after its closing one. -/
structure Place where
  token : Token
  start : Nat
  stop : Nat

def placesFrom (position : Nat) : List Token → List Place
  | [] => []
  | token :: rest =>
      let start := position + (token.text ++ token.padding).length
      ⟨token, start, start + token.tagText.length⟩ ::
        placesFrom (position + token.source.length) rest

def Scan.places (scanned : Scan) : List Place := placesFrom 0 scanned.tokens

namespace Place

/-- A tag that may stand alone does so if there are only spaces and tabs on its line,
before it and after it. -/
structure StandsAlone (source : Text) (place : Place) : Prop where
  sigil : ∃ c ∈ standaloneSigils, place.token.raw.trim.head? = some c
  before : ∃ lines padding, source.take place.start = lines ++ padding ∧ Text.EndsLine lines ∧
    ∀ c ∈ padding, Text.isPadding c = true
  after : ∃ padding ahead, source.drop place.stop = padding ++ ahead ∧
    (∀ c ∈ padding, Text.isPadding c = true) ∧
    (ahead = [] ∨ ['\n'] <+: ahead ∨ ['\r', '\n'] <+: ahead)

def first (source : Text) (place : Place) : Nat :=
  if place.token.standalone then
    place.start - ((source.take place.start).reverse.takeWhile Text.isPadding).length
  else place.start

def last (source : Text) (place : Place) : Nat :=
  if place.token.standalone then
    place.stop + ((Cursor.lineEnd? (source.drop place.stop)).getD []).length
  else place.stop

def covers (source : Text) (place : Place) (position : Nat) : Bool :=
  place.first source ≤ position && position < place.last source

end Place

mutual
/-- The static text of a tree, in the order of the source. -/
def Node.content : Node → Text
  | .text content => content
  | .sectionTag _ _ _ children => Node.contentAll children
  | _ => []

def Node.contentAll : List Node → Text
  | [] => []
  | node :: rest => node.content ++ Node.contentAll rest
end

section Outside
variable (gone : Nat → Bool)

theorem outside_append (position : Nat) (a b : Text) :
    Text.outside gone position (a ++ b) =
      Text.outside gone position a ++ Text.outside gone (position + a.length) b := by
  induction a generalizing position with
  | nil => rfl
  | cons c rest ih =>
      by_cases out : gone position = true <;>
        simp [Text.outside, out, ih, Nat.add_assoc, Nat.add_comm 1]

theorem outside_kept (position : Nat) (t : Text)
    (kept : ∀ p, position ≤ p → p < position + t.length → gone p = false) :
    Text.outside gone position t = t := by
  induction t generalizing position with
  | nil => rfl
  | cons c rest ih =>
      simp only [List.length_cons] at kept
      have here := kept position (Nat.le_refl _) (by omega)
      have later := ih (position + 1) fun p low high => kept p (by omega) (by omega)
      simp [Text.outside, here, later]

theorem outside_gone (position : Nat) (t : Text)
    (out : ∀ p, position ≤ p → p < position + t.length → gone p = true) :
    Text.outside gone position t = [] := by
  induction t generalizing position with
  | nil => rfl
  | cons c rest ih =>
      simp only [List.length_cons] at out
      have here := out position (Nat.le_refl _) (by omega)
      have later := ih (position + 1) fun p low high => out p (by omega) (by omega)
      simp [Text.outside, here, later]

theorem outside_congr (other : Nat → Bool) (position : Nat) (t : Text)
    (same : ∀ p, position ≤ p → gone p = other p) :
    Text.outside gone position t = Text.outside other position t := by
  induction t generalizing position with
  | nil => rfl
  | cons c rest ih =>
      have later := ih (position + 1) fun p low => same p (by omega)
      simp [Text.outside, same position (Nat.le_refl _), later]

end Outside

theorem line_start_iff (t : Text) :
    Cursor.startsLine (t.reverse.dropWhile Text.isPadding) = true ↔
      ∃ lines padding, t = lines ++ padding ∧ Text.EndsLine lines ∧
        ∀ c ∈ padding, Text.isPadding c = true := by
  constructor
  · intro start
    refine ⟨(t.reverse.dropWhile Text.isPadding).reverse,
      (t.reverse.takeWhile Text.isPadding).reverse, ?_, ?_, ?_⟩
    · rw [← List.reverse_append, List.takeWhile_append_dropWhile, List.reverse_reverse]
    · rwa [Text.ends_line_iff, List.reverse_reverse]
    · intro c member
      exact List.all_eq_true.mp List.all_takeWhile c (List.mem_reverse.mp member)
  · rintro ⟨lines, padding, rfl, ends, blank⟩
    rw [Text.ends_line_iff] at ends
    rw [List.reverse_append, List.dropWhile_append_of_pos (by simpa using blank)]
    cases back : lines.reverse with
    | nil => rfl
    | cons c rest =>
        have newline : c = '\n' := by simpa [back, Cursor.startsLine] using ends
        simp [newline, Cursor.startsLine, Text.isPadding]

theorem line_end_some_iff (t : Text) :
    (Cursor.lineEnd? t).isSome = true ↔
      ∃ padding ahead, t = padding ++ ahead ∧ (∀ c ∈ padding, Text.isPadding c = true) ∧
        (ahead = [] ∨ ['\n'] <+: ahead ∨ ['\r', '\n'] <+: ahead) := by
  rw [Option.isSome_iff_exists]
  constructor
  · rintro ⟨trail, found⟩
    obtain ⟨padding, brk, ahead, split, blank, stop, -⟩ := (Cursor.line_end_iff t trail).mp found
    refine ⟨padding, brk ++ ahead, by rw [split, List.append_assoc], blank, ?_⟩
    rcases stop with ⟨rfl, rfl⟩ | rfl | rfl
    · exact Or.inl rfl
    · exact Or.inr (Or.inl (List.prefix_append _ _))
    · exact Or.inr (Or.inr (List.prefix_append _ _))
  · rintro ⟨padding, ahead, split, blank, stop⟩
    rcases stop with rfl | ⟨later, rfl⟩ | ⟨later, rfl⟩
    · exact ⟨_, (Cursor.line_end_iff t _).mpr
        ⟨padding, [], [], by simpa using split, blank, Or.inl ⟨rfl, rfl⟩, rfl⟩⟩
    · exact ⟨_, (Cursor.line_end_iff t _).mpr
        ⟨padding, _, later, by rw [split, List.append_assoc], blank, Or.inr (Or.inl rfl), rfl⟩⟩
    · exact ⟨_, (Cursor.line_end_iff t _).mpr
        ⟨padding, _, later, by rw [split, List.append_assoc], blank, Or.inr (Or.inr rfl), rfl⟩⟩

/-! The closing delimiter of a tag, or a brace, stands right before the cursor, unless a
line break does. So looking back over padding from a later tag never passes the cursor. -/
section Settled

def Delimiters.ClosesVisibly (d : Delimiters) : Prop :=
  ∀ c, d.closing.getLast? = some c → Text.isPadding c = false

/-- No padding stands right before the cursor, as long as there is something ahead. -/
def Cursor.Settled (c : Cursor) : Prop :=
  c.rest = [] ∨ ∀ char, c.before.head? = some char → Text.isPadding char = false

theorem named_closes_visibly (d : Delimiters) (named : d.Named) : d.ClosesVisibly := by
  intro c last
  have visible := named.closing c last
  rw [Bool.eq_false_iff] at visible ⊢
  exact fun padding => visible (Text.is_space_of_padding c padding)

theorem settled_start (source : Text) (d : Delimiters) : (Cursor.start source d).Settled :=
  Or.inr (by simp [Cursor.start])

theorem raw_tag_last {c : Cursor} {raw : Text} (visibly : c.delimiters.ClosesVisibly)
    (found : c.rawTag? = some raw) (visible : raw.trim ≠ []) (char : Char)
    (last : (raw ++ c.delimiters.closing).getLast? = some char) : Text.isPadding char = false := by
  rw [List.getLast?_append] at last
  cases closing : c.delimiters.closing.getLast? with
  | some closed =>
      rw [closing] at last
      cases last
      exact visibly char closing
  | none =>
      have empty : c.delimiters.closing = [] := List.getLast?_eq_none_iff.mp closing
      rw [closing] at last
      unfold Cursor.rawTag? at found
      split at found
      · obtain ⟨name, -, rfl⟩ := Option.map_eq_some_iff.mp found
        have brace : '}' = char := by simpa using last
        subst brace
        decide
      · have blank : raw = [] := by
          rw [empty] at found
          cases rest : c.rest <;> simp_all [Text.upTo?]
        exact absurd (by rw [blank]; rfl) visible

/-- A tag that stands alone takes its line up to the break, or to the end. -/
theorem solo_trail_cases {c next : Cursor} {token : Token} (reads : Cursor.Reads c token next)
    (solo : token.standalone = true) :
    Cursor.lineEnd? (token.trail ++ next.rest) = some token.trail ∧
      (next.rest = [] ∨ token.trail.getLast? = some '\n') := by
  obtain ⟨-, -, trail⟩ := Cursor.of_standalone reads solo
  refine ⟨trail, ?_⟩
  obtain ⟨padding, brk, ahead, split, -, stop, whole⟩ := (Cursor.line_end_iff _ _).mp trail
  rw [whole] at split ⊢
  have same : next.rest = ahead := List.append_cancel_left split
  rcases stop with ⟨-, rfl⟩ | rfl | rfl
  · exact Or.inl same
  · exact Or.inr (by simp)
  · exact Or.inr (by simp)

theorem settled_next {c next : Cursor} {token : Token} (visibly : c.delimiters.ClosesVisibly)
    (reads : Cursor.Reads c token next) : next.Settled := by
  have closed : ∀ char, (token.raw ++ token.delimiters.closing).getLast? = some char →
      Text.isPadding char = false := by
    intro char last
    exact raw_tag_last (c := c.advance _) visibly reads.raw reads.visible char (reads.delimiters ▸ last)
  cases solo : token.standalone with
  | true =>
      rcases (solo_trail_cases reads solo).2 with rest | newline
      · exact Or.inl rest
      · refine Or.inr fun char head => ?_
        rw [reads.before, List.head?_append, List.head?_reverse, Token.source,
          List.getLast?_append, newline] at head
        cases head
        decide
  | false =>
      refine Or.inr fun char head => closed char ?_
      have nonempty := Cursor.raw_nonempty reads
      obtain ⟨final, last⟩ : ∃ final,
          (token.raw ++ token.delimiters.closing).getLast? = some final :=
        Option.ne_none_iff_exists'.mp (by simp [nonempty])
      rw [reads.before, List.head?_append, List.head?_reverse, Token.source, reads.noTrail solo,
        List.append_nil, List.append_assoc, List.getLast?_append, last] at head
      cases head
      exact last

end Settled

section Steps
variable {c next : Cursor} {token : Token}

theorem source_kept (reads : Cursor.Reads c token next) : next.source = c.source :=
  Cursor.passes_source (Cursor.reads_passes reads)

theorem position_next (reads : Cursor.Reads c token next) :
    next.position = c.position + token.source.length :=
  Cursor.passes_position (Cursor.reads_passes reads)

def placeAt (c : Cursor) (token : Token) : Place :=
  let start := c.position + (token.text ++ token.padding).length
  ⟨token, start, start + token.tagText.length⟩

theorem take_start (reads : Cursor.Reads c token next) :
    c.source.take (placeAt c token).start = c.before.reverse ++ (token.text ++ token.padding) := by
  have split : c.source = c.before.reverse ++ (token.text ++ token.padding) ++
      (token.tagText ++ token.trail ++ next.rest) := by
    rw [Cursor.source, reads.rest]
    simp [Token.source, Token.tagText]
  rw [split]
  exact List.take_left' (by simp [placeAt, Cursor.position])

theorem drop_start (reads : Cursor.Reads c token next) :
    c.source.drop (placeAt c token).start = token.tagText ++ (token.trail ++ next.rest) := by
  have split : c.source = c.before.reverse ++ (token.text ++ token.padding) ++
      (token.tagText ++ (token.trail ++ next.rest)) := by
    rw [Cursor.source, reads.rest]
    simp [Token.source, Token.tagText]
  rw [split]
  exact List.drop_left' (by simp [placeAt, Cursor.position])

theorem drop_stop (reads : Cursor.Reads c token next) :
    c.source.drop (placeAt c token).stop = token.trail ++ next.rest := by
  have start := congrArg (List.drop token.tagText.length) (drop_start reads)
  rw [List.drop_drop, List.drop_left] at start
  exact start

theorem padding_behind (settled : c.Settled) (reads : Cursor.Reads c token next) :
    c.before.dropWhile Text.isPadding = c.before ∧ c.before.takeWhile Text.isPadding = [] := by
  rcases settled with empty | head
  · have nonempty := Cursor.raw_nonempty reads
    have rest := reads.rest
    simp [empty, Token.source, nonempty] at rest
  · cases behind : c.before with
    | nil => exact ⟨rfl, rfl⟩
    | cons char before =>
        have stop := head char (by rw [behind]; rfl)
        simp [stop]

theorem look_back (settled : c.Settled) (reads : Cursor.Reads c token next) (chunk : Text) :
    (c.before.reverse ++ chunk).reverse.dropWhile Text.isPadding =
      chunk.reverse.dropWhile Text.isPadding ++ c.before ∧
    (c.before.reverse ++ chunk).reverse.takeWhile Text.isPadding =
      chunk.reverse.takeWhile Text.isPadding := by
  obtain ⟨drop, take⟩ := padding_behind settled reads
  rw [List.reverse_append, List.reverse_reverse, List.dropWhile_append, List.takeWhile_append,
    drop, take]
  constructor
  · split
    · next empty => rw [List.isEmpty_iff.mp empty, List.nil_append]
    · rfl
  · split
    · next whole =>
        rw [List.append_nil]
        exact (List.IsPrefix.eq_of_length (List.takeWhile_prefix _) whole).symm
    · rfl

theorem standalone_iff (settled : c.Settled) (reads : Cursor.Reads c token next) :
    token.standalone = true ↔ (placeAt c token).StandsAlone c.source := by
  have start : token.lineStart = Cursor.startsLine
      ((c.source.take (placeAt c token).start).reverse.dropWhile Text.isPadding) := by
    rw [reads.lineStart, take_start reads, (look_back settled reads _).1, Cursor.atLineStart]
  have stop : c.source.drop (placeAt c token).stop = token.trail ++ next.rest := drop_stop reads
  have sigil : token.raw.trim.head?.any standaloneSigils.contains = true ↔
      ∃ char ∈ standaloneSigils, token.raw.trim.head? = some char := by
    cases token.raw.trim.head? <;> simp
  have flag : token.standalone = true ↔
      (Cursor.soloTrail? token.lineStart token.raw (token.trail ++ next.rest)).isSome = true := by
    rw [reads.trail]
    cases token.standalone <;> simp
  rw [flag, Cursor.soloTrail?, ← stop]
  constructor
  · intro found
    split at found
    · next may =>
        rw [Bool.and_eq_true] at may
        exact ⟨sigil.mp may.2, (line_start_iff _).mp (start ▸ may.1), (line_end_some_iff _).mp found⟩
    · cases found
  · intro alone
    have may := start.trans ((line_start_iff _).mpr alone.before)
    rw [may, sigil.mpr alone.sigil, Bool.and_self, if_pos rfl]
    exact (line_end_some_iff _).mpr alone.after

theorem first_position (settled : c.Settled) (reads : Cursor.Reads c token next) :
    (placeAt c token).first c.source =
      c.position + (token.text ++ if token.standalone then [] else token.padding).length := by
  rw [Place.first, take_start reads, (look_back settled reads _).2]
  change (if token.standalone = true then _ else _) = _
  cases solo : token.standalone with
  | true =>
      have lineStart := (Cursor.of_standalone reads solo).1
      have padding := congrArg List.length reads.padding
      rw [lineStart, Cursor.paddingOf, if_pos rfl, List.length_reverse] at padding
      simp only [placeAt, ← padding, List.length_append, List.length_nil, if_true]
      omega
  | false => simp [placeAt]

theorem last_position (reads : Cursor.Reads c token next) :
    (placeAt c token).last c.source = next.position := by
  have stop : (placeAt c token).stop + token.trail.length = next.position := by
    rw [position_next reads]
    simp only [placeAt, Token.source, Token.tagText, List.length_append]
    omega
  rw [Place.last, drop_stop reads]
  change (if token.standalone = true then _ else _) = _
  cases solo : token.standalone with
  | true => simpa [(solo_trail_cases reads solo).1] using stop
  | false => simpa [reads.noTrail solo] using stop

end Steps

def Token.kept (token : Token) : Text :=
  token.text ++ if token.standalone then [] else token.padding

/-- Every tag of a scan is read at some cursor over the same source, where all holds that a
token keeps. -/
theorem place_kept (kept : Cursor → Prop)
    (step : ∀ {c next : Cursor} {token : Token}, Cursor.Reads c token next → kept c → kept next)
    (c : Cursor) (now : kept c) (place : Place)
    (member : place ∈ placesFrom c.position c.scan.tokens) :
    ∃ here next, Cursor.Reads here place.token next ∧ kept here ∧ here.source = c.source ∧
      c.position ≤ here.position ∧ place = placeAt here place.token := by
  induction c using Cursor.scan_induct with
  | finish c tail last stepped =>
      rw [Cursor.scan_finish stepped] at member
      cases member
  | fault c error stepped =>
      rw [Cursor.scan_fault stepped] at member
      cases member
  | token c token next stepped ih =>
      have reads := Cursor.step_reads stepped
      rw [Cursor.scan_token stepped, placesFrom, ← position_next reads] at member
      -- The place of this tag, or one that the rest of the scan comes to.
      rcases List.mem_cons.mp member with rfl | later
      · exact ⟨c, next, reads, now, rfl, Nat.le_refl _, rfl⟩
      · obtain ⟨here, after, found⟩ := ih (step reads now) later
        rw [source_kept reads, position_next reads] at found
        obtain ⟨reads_here, holds, source, reached, at_here⟩ := found
        exact ⟨here, after, reads_here, holds, source, by omega, at_here⟩

theorem place_facts (source : Text) (c : Cursor) (inside : c.source = source) (settled : c.Settled)
    (visibly : c.delimiters.ClosesVisibly) (place : Place)
    (member : place ∈ placesFrom c.position c.scan.tokens) :
    (place.token.standalone = true ↔ place.StandsAlone source) ∧
      (source.drop place.start).take (place.stop - place.start) = place.token.tagText ∧
      c.position ≤ place.first source := by
  obtain ⟨here, next, reads, ⟨settled, -⟩, same, reached, at_here⟩ :=
    place_kept (fun c => c.Settled ∧ c.delimiters.ClosesVisibly)
      (fun reads now => ⟨settled_next now.2 reads,
        delimiters_kept named_closes_visibly reads now.2⟩) c ⟨settled, visibly⟩ place member
  rw [inside] at same
  rw [at_here, ← same]
  refine ⟨standalone_iff settled reads, ?_, ?_⟩
  · rw [drop_start reads]
    simp [placeAt]
  · rw [first_position settled reads]
    exact Nat.le_trans reached (Nat.le_add_right _ _)

theorem outside_token {c next : Cursor} {token : Token} (settled : c.Settled)
    (reads : Cursor.Reads c token next) (later : Nat → Bool)
    (quiet : ∀ p < next.position, later p = false) :
    Text.outside (fun p => (placeAt c token).covers c.source p || later p) c.position c.rest =
      token.kept ++ Text.outside later next.position next.rest := by
  obtain ⟨taken, split⟩ : ∃ taken, token.source = token.kept ++ taken := by
    refine ⟨(if token.standalone then token.padding else []) ++ token.tagText ++ token.trail, ?_⟩
    cases solo : token.standalone <;> simp [Token.source, Token.kept, Token.tagText, solo]
  have first : (placeAt c token).first c.source = c.position + token.kept.length :=
    first_position settled reads
  have last := last_position reads
  have until_next : next.position = c.position + (token.kept ++ taken).length := by
    rw [position_next reads, split]
  rw [reads.rest, split, outside_append, ← until_next, outside_append]
  rw [List.length_append, ← Nat.add_assoc] at until_next
  have kept := outside_kept (fun p => (placeAt c token).covers c.source p || later p)
    c.position token.kept fun p low high => by
      simp [Place.covers, first, quiet p (by omega), high]
  have gone := outside_gone (fun p => (placeAt c token).covers c.source p || later p)
    (c.position + token.kept.length) taken fun p low high => by
      simp [Place.covers, first, last, low, until_next ▸ high]
  have rest := outside_congr (fun p => (placeAt c token).covers c.source p || later p) later
    next.position next.rest fun p low => by
      simp [Place.covers, last, Nat.not_lt.mpr low]
  rw [kept, gone, rest, List.append_nil]

theorem outside_scan (source : Text) (c : Cursor) (inside : c.source = source) (settled : c.Settled)
    (visibly : c.delimiters.ClosesVisibly) (ending : Ending) (ended : c.scan.ending = .ok ending) :
    Text.outside (fun p => (placesFrom c.position c.scan.tokens).any (·.covers source p))
      c.position c.rest = c.scan.tokens.flatMap Token.kept ++ ending.tail := by
  induction c using Cursor.scan_induct with
  | finish c tail last stepped =>
      rw [Cursor.scan_finish stepped] at ended ⊢
      cases ended
      rw [(Cursor.step_finish stepped).2.1]
      exact outside_kept _ _ _ fun p _ _ => rfl
  | fault c error stepped =>
      rw [Cursor.scan_fault stepped] at ended
      cases ended
  | token c token next stepped ih =>
      have reads := Cursor.step_reads stepped
      have visibly_next := delimiters_kept named_closes_visibly reads visibly
      have settled_after := settled_next visibly reads
      have inside_next := (source_kept reads).trans inside
      rw [Cursor.scan_token stepped] at ended ⊢
      have rest := ih inside_next settled_after visibly_next ended
      rw [List.flatMap_cons, List.append_assoc, ← rest, ← inside]
      simp only [placesFrom, ← position_next reads, List.any_cons]
      apply outside_token settled reads
      -- A later tag takes nothing from before the cursor it is read at.
      intro p low
      rw [List.any_eq_false]
      intro place member
      have ahead := (place_facts source next inside_next settled_after visibly_next place member).2.2
      simp only [Place.covers, inside, Bool.and_eq_true, decide_eq_true_eq, not_and]
      intro reached
      omega

def Mark.content : Mark → Text
  | .text content => content
  | _ => []

mutual
theorem content_marks (node : Node) : node.content = node.marks.flatMap Mark.content := by
  cases node with
  | sectionTag name inverted line children =>
      simp [Node.content, Node.marks, Mark.content, content_marks_all children]
  | _ => simp [Node.content, Node.marks, Mark.content]

theorem content_marks_all (nodes : List Node) :
    Node.contentAll nodes = (Node.marksAll nodes).flatMap Mark.content := by
  cases nodes with
  | nil => rfl
  | cons node rest =>
      simp [Node.contentAll, Node.marksAll, content_marks node, content_marks_all rest]
end

theorem join_texts_content (marks : List Mark) :
    (joinTexts marks).flatMap Mark.content = marks.flatMap Mark.content := by
  induction marks with
  | nil => rfl
  | cons mark rest ih =>
      cases mark with
      | text content =>
          rw [List.flatMap_cons, ← ih, joinTexts]
          split
          · next more later joined => simp [joined, Mark.content]
          · next later apart =>
              by_cases empty : content = [] <;> simp [empty, Mark.content]
      | _ => simp [joinTexts, ih]

theorem token_content (token : Token) : token.marks.flatMap Mark.content = token.kept := by
  have tag : token.tagMarks.flatMap Mark.content = [] := by
    unfold Token.tagMarks
    cases token.tag <;> rfl
  simp [Token.marks, Token.kept, Mark.content, tag]

/-- The static text of a tree is its source without the tags and without what goes with
those that stand alone: the padding around them and their line break. A tag stands alone
just if its first character and the line it is on say so. -/
theorem content_is_source_outside_tags (source : Text) (delimiters : Delimiters) (parsed : Parsed)
    (plain : ∀ c ∈ delimiters.opening ++ delimiters.closing, Text.isSpace c = false)
    (read : parse source delimiters = .ok parsed) :
    Node.contentAll parsed.nodes =
        Text.outside (fun p => (scan source delimiters).places.any (·.covers source p)) 0 source ∧
      ∀ place ∈ (scan source delimiters).places,
        (place.token.standalone = true ↔ place.StandsAlone source) ∧
          (source.drop place.start).take (place.stop - place.start) = place.token.tagText := by
  have inside : (Cursor.start source delimiters).source = source := by
    simp [Cursor.source, Cursor.start]
  have settled := settled_start source delimiters
  have visibly : (Cursor.start source delimiters).delimiters.ClosesVisibly := by
    intro c last
    have space := plain c (List.mem_append_right _ (List.mem_of_getLast? last))
    rw [Bool.eq_false_iff] at space ⊢
    exact fun padding => space (Text.is_space_of_padding c padding)
  constructor
  · obtain ⟨ending, ended, marks, -⟩ := parse_ok_marks read
    have outside := outside_scan source _ inside settled visibly ending ended
    rw [content_marks_all, marks, join_texts_content, List.flatMap_append]
    refine Eq.trans ?_ outside.symm
    simp [Mark.content, List.flatMap_assoc, token_content, scan]
  · intro place member
    have facts := place_facts source _ inside settled visibly place member
    exact ⟨facts.1, facts.2.1⟩

def markedPage : Text := "a\n \t{{#s}} \r\nb {{x}}{{/s}}\n\x7b\x7b! c\n\x7d\x7d".toList

theorem content_outside_tags_of_page :
    ∃ parsed, parse markedPage .standard = .ok parsed ∧
      Node.contentAll parsed.nodes = "a\nb \n".toList ∧
      Node.contentAll parsed.nodes =
        Text.outside (fun p => (scan markedPage .standard).places.any (·.covers markedPage p)) 0
          markedPage := by
  have read : parse markedPage .standard =
      .ok ⟨[.text ['a', '\n'],
        .sectionTag ['s'] false 2 [.text ['b', ' '], .variableTag ['x'] true],
        .text ['\n']], .standard⟩ := by cbv
  have plain : ∀ c ∈ Delimiters.standard.opening ++ Delimiters.standard.closing,
      Text.isSpace c = false := by simp [Delimiters.standard, Text.isSpace]
  exact ⟨_, read, rfl, (content_is_source_outside_tags _ _ _ plain read).1⟩

end Mustache
