import Mustache.Proofs.Scanning

/-!
Reading by positions. Here a step asks for each character that it looks at by its position in
the source, and gives nothing where there is no such character: before the first position, after
the last one, or at the head of an empty tag. It turns out that every such character is there,
so that reading by positions never fails and reads what the cursor reads.
-/

namespace Mustache
namespace Text

def charBefore? (t : Text) : Nat → Option Char
  | 0 => none
  | i + 1 => t[i]?

def backOver? (t : Text) (first : Nat) : Nat → Option Nat
  | 0 => some 0
  | i + 1 =>
      if first < i + 1 then do
        let c ← t.charBefore? (i + 1)
        if isPadding c then t.backOver? first i else some (i + 1)
      else some (i + 1)

def startsLineAt? (t : Text) (i : Nat) : Option Bool :=
  if i = 0 then some true else (t.charBefore? i).map (· = '\n')

def overPadding? (t : Text) (i : Nat) : Option Nat :=
  if i < t.length then do
    let c ← t[i]?
    if isPadding c then t.overPadding? (i + 1) else some i
  else some i
termination_by t.length - i

def lineEndAt? (t : Text) (i : Nat) : Option (Option Nat) := do
  let stop ← t.overPadding? i
  if stop = t.length then return some stop
  else
    let c ← t[stop]?
    if c = '\n' then return some (stop + 1)
    else if ['\r', '\n'].isPrefixOf (t.drop stop) then return some (stop + 2)
    else return none

def braceAt? (t : Text) (i : Nat) : Option Bool :=
  if i < t.length then (t[i]?).map (· = '{') else some false

def slice (t : Text) (first last : Nat) : Text := (t.take last).drop first

end Text

namespace Cursor

def readTextAt? (c : Cursor) : Option (TextSpan × Cursor) :=
  match Text.upTo? c.delimiters.opening c.rest with
  | none => some (.toEnd c.rest, c.runOut)
  | some chunk => do
      let next := c.advance (chunk.length + c.delimiters.opening.length)
      let tagStart := next.position - c.delimiters.opening.length
      let first ← c.source.backOver? c.position tagStart
      let lineStart ← c.source.startsLineAt? first
      if lineStart then
        return (.beforeTag (c.source.slice c.position first) (c.source.slice first tagStart) true,
          next)
      else return (.beforeTag (c.source.slice c.position tagStart) [] false, next)

def rawTagAt? (c : Cursor) : Option (Option Text) := do
  if ← c.source.braceAt? c.position then
    return (Text.upTo? ('}' :: c.delimiters.closing) c.rest).map (· ++ ['}'])
  else return Text.upTo? c.delimiters.closing c.rest

def readTagAt? (lineStart : Bool) (c : Cursor) : Option (Except ParseError TagSpan × Cursor) := do
  match ← c.rawTagAt? with
  | none => return (.error ⟨.unmatchedOpenTag, c.line⟩, c.runOut)
  | some raw =>
      let next := c.advance (raw.length + c.delimiters.closing.length)
      if raw.trim = [] then return (.error ⟨.emptyTag, next.line⟩, next)
      else
        let sigil ← raw.trim[0]?
        if lineStart && standaloneSigils.contains sigil then
          match ← c.source.lineEndAt? next.position with
          | some stop =>
              return (.ok ⟨raw, c.source.slice next.position stop, true, c.line⟩,
                next.advance (stop - next.position))
          | none => return (.ok ⟨raw, [], false, c.line⟩, next)
        else return (.ok ⟨raw, [], false, c.line⟩, next)

def stepAt? (c : Cursor) : Option Step := do
  match ← c.readTextAt? with
  | (.toEnd tail, last) => return .finish tail last
  | (.beforeTag text padding lineStart, atTag) =>
      match ← atTag.readTagAt? lineStart with
      | (.error error, _) => return .fault error
      | (.ok span, next) =>
          -- What a tag is depends on its first character.
          let _ ← span.body[0]?
          match Tag.ofBody span.body with
          | .error fault => return .fault ⟨fault, next.line⟩
          | .ok tag =>
              return .token
                { text, padding, lineStart, raw := span.raw, trail := span.trail,
                  standalone := span.standalone, delimiters := c.delimiters,
                  line := span.line, endLine := next.line, tag }
                (next.setDelimiters (tag.delimitersAfter c.delimiters))

end Cursor

namespace Text

theorem slice_middle (behind middle ahead : Text) :
    (behind ++ middle ++ ahead).slice behind.length (behind.length + middle.length) = middle := by
  rw [slice, ← List.length_append, List.take_left, List.drop_left]

theorem char_before_found (behind ahead : Text) (c : Char) :
    (behind ++ c :: ahead).charBefore? (behind.length + 1) = some c := by
  rw [charBefore?, List.getElem?_append_right (Nat.le_refl _), Nat.sub_self]
  rfl

theorem back_over_found (behind back ahead : Text) :
    (behind ++ back.reverse ++ ahead).backOver? behind.length (behind.length + back.length) =
      some (behind.length + (back.dropWhile isPadding).length) := by
  induction back generalizing ahead with
  | nil =>
      simp only [List.reverse_nil, List.append_nil, List.length_nil, Nat.add_zero,
        List.dropWhile_nil]
      cases behind.length with
      | zero => rfl
      | succ first => rw [backOver?, if_neg (Nat.lt_irrefl _)]
  | cons c back ih =>
      -- What was just looked at stands ahead for the next step.
      have further := ih (c :: ahead)
      have found := char_before_found (behind ++ back.reverse) ahead c
      have split :
          behind ++ (c :: back).reverse ++ ahead = behind ++ back.reverse ++ c :: ahead := by
        simp
      rw [List.length_append, List.length_reverse] at found
      rw [split, List.length_cons, ← Nat.add_assoc, backOver?, if_pos (by omega), found,
        List.dropWhile_cons]
      by_cases padding : isPadding c = true
      · simpa [padding] using further
      · simp [padding, Nat.add_assoc]

theorem starts_line_found (behind ahead : Text) :
    startsLineAt? (behind.reverse ++ ahead) behind.length = some (Cursor.startsLine behind) := by
  cases behind with
  | nil => rfl
  | cons c behind =>
      have found := char_before_found behind.reverse ahead c
      rw [List.length_reverse] at found
      rw [startsLineAt?, if_neg (by simp), List.reverse_cons, List.append_assoc, List.length_cons,
        List.singleton_append, found]
      rfl

theorem brace_found (behind ahead : Text) :
    (behind ++ ahead).braceAt? behind.length = some (decide (ahead.head? = some '{')) := by
  rw [braceAt?, List.getElem?_append_right (Nat.le_refl _), Nat.sub_self]
  cases ahead with
  | nil => simp
  | cons c ahead => simp

theorem over_padding_found (behind t : Text) :
    (behind ++ t).overPadding? behind.length =
      some (behind.length + (t.takeWhile isPadding).length) := by
  induction t generalizing behind with
  | nil =>
      rw [overPadding?, if_neg (by simp)]
      rfl
  | cons c t ih =>
      have further := ih (behind ++ [c])
      rw [List.append_assoc, List.singleton_append, List.length_append] at further
      rw [overPadding?, if_pos (by simp), List.getElem?_append_right (Nat.le_refl _), Nat.sub_self]
      by_cases padding : isPadding c = true
      · simpa [padding, Nat.add_assoc, Nat.add_comm 1] using further
      · simp [padding]

theorem line_end_found (behind t : Text) :
    (behind ++ t).lineEndAt? behind.length =
      some ((Cursor.lineEnd? t).map (behind.length + ·.length)) := by
  have split : behind ++ t = (behind ++ t.takeWhile isPadding) ++ t.dropWhile isPadding := by
    rw [List.append_assoc, List.takeWhile_append_dropWhile]
  rw [lineEndAt?, over_padding_found, Cursor.lineEnd?, split, ← List.length_append]
  generalize t.takeWhile isPadding = padding
  cases t.dropWhile isPadding with
  | nil => simp
  | cons c later =>
      have found : (behind ++ padding ++ c :: later)[(behind ++ padding).length]? = some c := by
        simp
      have inside : (behind ++ padding).length ≠ (behind ++ padding ++ c :: later).length := by
        simp
      simp only [Option.bind_eq_bind, Option.bind_some, if_neg inside, found, List.drop_left]
      split
      · next newline =>
          subst newline
          simp [Nat.add_assoc]
      · next other =>
          cases later with
          | nil => simp [other, List.isPrefixOf]
          | cons next rest =>
              -- A carriage return counts only in front of a line feed.
              by_cases ends : c = '\r' ∧ next = '\n'
              · obtain ⟨rfl, rfl⟩ := ends
                simp [List.isPrefixOf, Nat.add_assoc]
              · have short : ['\r', '\n'].isPrefixOf (c :: next :: rest) = false := by
                  simp only [List.isPrefixOf, Bool.and_true, Bool.and_eq_false_iff,
                    beq_eq_false_iff_ne]
                  grind
                rw [short]
                split <;> simp_all

end Text

namespace Cursor

theorem read_text_at (c : Cursor) : c.readTextAt? = some c.readText := by
  unfold readTextAt? readText
  cases found : Text.upTo? c.delimiters.opening c.rest with
  | none => rfl
  | some chunk =>
      have split := Text.eq_of_up_to found
      generalize c.rest.drop (chunk.length + c.delimiters.opening.length) = ahead at split
      have whole : c.source = c.before.reverse ++ chunk ++ (c.delimiters.opening ++ ahead) := by
        rw [source, split]
        simp
      have tagStart : (c.advance (chunk.length + c.delimiters.opening.length)).position -
          c.delimiters.opening.length = c.position + chunk.length := by
        rw [position_advance _ _ (Text.length_of_up_to found)]
        omega
      have back := Text.back_over_found c.before.reverse chunk.reverse
        (c.delimiters.opening ++ ahead)
      rw [List.reverse_reverse, ← whole, List.length_reverse, List.length_reverse] at back
      dsimp only
      -- The chunk is what is left of it before the padding, and the padding.
      generalize padding : chunk.reverse.takeWhile Text.isPadding = pad at ⊢
      generalize rest : chunk.reverse.dropWhile Text.isPadding = stem at back ⊢
      have parts : chunk = stem.reverse ++ pad.reverse := by
        rw [← List.reverse_append, ← padding, ← rest, List.takeWhile_append_dropWhile,
          List.reverse_reverse]
      have start : c.source.startsLineAt? (c.before.length + stem.length) =
          some (startsLine (stem ++ c.before)) := by
        have found := Text.starts_line_found (stem ++ c.before)
          (pad.reverse ++ (c.delimiters.opening ++ ahead))
        simpa [whole, parts, Nat.add_comm] using found
      have the_text : c.source.slice c.before.length (c.before.length + stem.length) =
          stem.reverse := by
        have middle := Text.slice_middle c.before.reverse stem.reverse
          (pad.reverse ++ (c.delimiters.opening ++ ahead))
        simpa [whole, parts] using middle
      have the_padding : c.source.slice (c.before.length + stem.length)
          (c.before.length + chunk.length) = pad.reverse := by
        have middle := Text.slice_middle (c.before.reverse ++ stem.reverse) pad.reverse
          (c.delimiters.opening ++ ahead)
        simpa [whole, parts, Nat.add_assoc] using middle
      have the_chunk : c.source.slice c.before.length (c.before.length + chunk.length) = chunk := by
        have middle := Text.slice_middle c.before.reverse chunk (c.delimiters.opening ++ ahead)
        simpa [whole] using middle
      simp only [tagStart]
      rw [position, back]
      simp only [Option.bind_eq_bind, Option.bind_some, start, the_text, the_padding, the_chunk]
      split <;> rfl

theorem raw_tag_at (c : Cursor) : c.rawTagAt? = some c.rawTag? := by
  have brace := Text.brace_found c.before.reverse c.rest
  rw [List.length_reverse] at brace
  unfold rawTagAt? rawTag?
  rw [source, position, brace]
  cases c.rest with
  | nil => rfl
  | cons char rest =>
      by_cases same : char = '{'
      · subst same
        rfl
      · simp [same]

theorem read_tag_at (lineStart : Bool) (c : Cursor) :
    c.readTagAt? lineStart = some (c.readTag lineStart) := by
  unfold readTagAt? readTag
  rw [raw_tag_at]
  simp only [Option.bind_eq_bind, Option.bind_some]
  cases found : c.rawTag? with
  | none => rfl
  | some raw =>
      dsimp only
      generalize after : c.advance (raw.length + c.delimiters.closing.length) = next
      have same : c.source = next.before.reverse ++ next.rest := by
        rw [← source, ← after, source_advance]
      have ended := Text.line_end_found next.before.reverse next.rest
      rw [← same, List.length_reverse] at ended
      cases raw.trim with
      | nil => rfl
      | cons sigil tail =>
          simp only [reduceCtorEq, if_false, List.getElem?_cons_zero, Option.bind_some]
          split
          · rw [position, ended]
            cases ended_by : lineEnd? next.rest with
            | none => rfl
            | some trail =>
                -- The trail stands ahead of the cursor, so the slice between the positions is the
                -- trail.
                obtain ⟨later, ahead⟩ : ∃ later, next.rest = trail ++ later := by
                  obtain ⟨padding, brk, later, ahead, -, -, rfl⟩ := (line_end_iff _ _).mp ended_by
                  exact ⟨later, ahead⟩
                have taken := Text.slice_middle next.before.reverse trail later
                rw [List.append_assoc, ← ahead, ← same, List.length_reverse] at taken
                simp [taken]
          · rfl

theorem body_visible {lineStart : Bool} {c next : Cursor} {span : TagSpan}
    (read : c.readTag lineStart = (.ok span, next)) : span.body ≠ [] := by
  rw [read_tag_eq] at read
  split at read
  · cases read
  · dsimp only at read
    split at read
    · cases read
    · next visible =>
        cases read
        exact visible

/-- Every character that a step asks for is in the source, and the tag that it turns to is not
empty. -/
theorem step_at (c : Cursor) : c.stepAt? = some c.step := by
  unfold stepAt? step
  rw [read_text_at]
  rcases c.readText with ⟨⟨text, padding, lineStart⟩ | tail, atTag⟩
  · simp only [Option.bind_eq_bind, Option.bind_some, read_tag_at]
    rcases read : atTag.readTag lineStart with ⟨error | span, next⟩
    · rfl
    · have visible := body_visible read
      cases body : span.body with
      | nil => exact absurd body visible
      | cons sigil tail =>
          simp only [body, List.getElem?_cons_zero, Option.bind_some]
          cases Tag.ofBody (sigil :: tail) <;> rfl
  · rfl

end Cursor
end Mustache
