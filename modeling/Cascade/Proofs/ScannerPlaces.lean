import Cascade.Proofs.LineTable
import Cascade.Proofs.ParserSize
import Cascade.Scanner

/-!
# Where a scanner stands

Whatever a scanner was asked for, nothing of the text is lost or given twice: what was handed out,
what was dropped and what is still to come are the text. The invariant has two parts. The rest of a
line is told by the line (`Scanner.OnLine`): before the last line it ends in its only line feed, on
the last one there is none, so an exhausted line is never the one that a scanner stops on unless it
is the last. And as long as text is left the position is the place after all that is gone
(`Cursor.InPlace`), which a cursor over the whole text keeps, and a scanner follows that cursor
(`Scanner.Follows`).

All of this asks that the source counts its lines. The one text of fewer than 2^32 bytes whose lines
are not counted is never walked: a scanner of it is at the end from the start.
-/
namespace Cascade

namespace Cursor

/-- As long as text is ahead the position is the place after the text before. -/
def InPlace (before : List Char) (cursor : Cursor) : Prop :=
  cursor.ahead ≠ [] → cursor.position = placeAfter before

variable {cursor : Cursor} {before dropped : List Char}

/-- Where nothing is gone a cursor stays in place. -/
theorem InPlace.stay (inPlace : cursor.InPlace before)
    (gone : cursor.ahead = dropped ++ cursor.ahead) : cursor.InPlace (before ++ dropped) := by
  have nothing : dropped = [] := List.self_eq_append_left.mp gone
  rwa [nothing, List.append_nil]

/-- A cursor that moves past a codepoint stays in place. -/
theorem InPlace.advance (inPlace : cursor.InPlace before)
    (gone : cursor.ahead = dropped ++ cursor.advance.ahead) :
    cursor.advance.InPlace (before ++ dropped) := by
  cases next : cursor.ahead with
  | nil =>
    have stays : cursor.advance = cursor := by rw [Cursor.advance, next]
    rw [stays] at gone ⊢
    exact inPlace.stay gone
  | cons c rest =>
    have moved : cursor.advance = ⟨rest, cursor.position.after c⟩ := by rw [Cursor.advance, next]
    have here : cursor.position = placeAfter before := by
      apply inPlace
      rw [next]
      exact List.cons_ne_nil c rest
    have one : dropped = [c] := by
      rw [moved, next] at gone
      exact List.append_cancel_right gone.symm
    intro _
    rw [moved, one, placeAfter_append_singleton, ← here]

/-- A cursor that drops the rest of a line stays in place. -/
theorem InPlace.skipLine (inPlace : cursor.InPlace before)
    (gone : cursor.ahead = dropped ++ cursor.skipLine.ahead) :
    cursor.skipLine.InPlace (before ++ dropped) := by
  intro more
  cases found : afterLineFeed? cursor.ahead with
  | none =>
    rw [Lexer.skipLine_last found] at more
    exact absurd rfl more
  | some rest =>
    obtain ⟨body, oneLine, split⟩ := afterLineFeed?_split found
    have here : cursor.position = placeAfter before := by
      apply inPlace
      rw [split]
      simp
    have line : dropped = body ++ ['\n'] := by
      rw [Lexer.skipLine_next found, split] at gone
      have same : dropped ++ rest = body ++ ['\n'] ++ rest := by
        rw [← gone, List.append_assoc, List.singleton_append]
      exact List.append_cancel_right same
    rw [Lexer.skipLine_next found, line, placeAfter_lineFeed oneLine, ← here]

/-- The second codepoint ahead is shown unless the first is a line feed. -/
theorem peekSecond?_eq (cursor : Cursor) :
    cursor.peekSecond? = if cursor.ahead.head? = some '\n' then none else cursor.ahead[1]? := by
  obtain ⟨ahead, position⟩ := cursor
  match ahead with
  | [] => rfl
  | [c] => simp [peekSecond?]
  | c :: second :: rest => simp [peekSecond?]

/-- Does what a scanner can be asked for on the text as a whole. -/
def perform (cursor : Cursor) : Scanner.Step → Scanner.Reply × Cursor
  | .peek => (.codepoint cursor.peek?, cursor)
  | .peekSecond => (.codepoint cursor.peekSecond?, cursor)
  | .consume | .next =>
    match cursor.next? with
    | none => (.codepoint none, cursor)
    | some (c, later) => (.codepoint (some c), later)
  | .eat expected => (cursor.eat expected).map .eaten id
  | .skipLine => (.done, cursor.skipLine)

/-- A cursor that hands out the next codepoint shows it and moves past it. -/
theorem perform_consume (cursor : Cursor) :
    cursor.perform .consume = (.codepoint cursor.peek?, cursor.advance) := by
  obtain ⟨ahead, position⟩ := cursor
  cases ahead <;> rfl

/-- Whatever it is asked for, a cursor stays in place. -/
theorem InPlace.perform {step : Scanner.Step} (inPlace : cursor.InPlace before)
    (gone : cursor.ahead = dropped ++ (cursor.perform step).2.ahead) :
    (cursor.perform step).2.InPlace (before ++ dropped) := by
  cases step with
  | peek | peekSecond => exact inPlace.stay gone
  | consume | next =>
    have walked : (cursor.perform .consume).2 = cursor.advance := by rw [perform_consume]
    have gone : cursor.ahead = dropped ++ (cursor.perform .consume).2.ahead := gone
    show (cursor.perform .consume).2.InPlace _
    rw [walked] at gone ⊢
    exact inPlace.advance gone
  | eat expected =>
    have gone : cursor.ahead = dropped ++ (cursor.eat expected).2.ahead := gone
    show (cursor.eat expected).2.InPlace _
    unfold Cursor.eat at gone ⊢
    by_cases there : cursor.peek? = some expected
    · rw [if_pos there] at gone ⊢
      exact inPlace.advance gone
    · rw [if_neg there] at gone ⊢
      exact inPlace.stay gone
  | skipLine => exact inPlace.skipLine gone

/-- The cursor after one thing was done after the other. -/
def after (cursor : Cursor) (steps : List Scanner.Step) : Cursor :=
  steps.foldl (fun cursor step => (cursor.perform step).2) cursor

end Cursor

/-- A place is no further down, and no further to the right, than there is text before it. -/
theorem placeAfter_le (before : List Char) :
    (placeAfter before).line ≤ before.length + 1 ∧
      (placeAfter before).column ≤ before.length + 1 := by
  have lines := List.count_le_length (a := '\n') (l := before)
  have columns := (List.takeWhile_prefix (· ≠ '\n') (l := before.reverse)).length_le
  rw [List.length_reverse] at columns
  constructor
  · show 1 + before.count '\n' ≤ before.length + 1
    omega
  · show 1 + (before.reverse.takeWhile (· ≠ '\n')).length ≤ before.length + 1
    omega

/-- Inside a text of fewer than 2^32 bytes lines and columns are numbers of 32 bits. -/
theorem placeAfter_fits {source : Source} (small : source.content.utf8ByteSize < 2 ^ 32)
    {used rest : List Char} (split : source.chars = used ++ rest) (more : rest ≠ []) :
    (placeAfter used).line < 2 ^ 32 ∧ (placeAfter used).column < 2 ^ 32 := by
  obtain ⟨line, column⟩ := placeAfter_le used
  have bytes := length_le_utf8ByteSize source.chars
  have positive := List.length_pos_of_ne_nil more
  have whole : String.ofList source.chars = source.content := String.ofList_toList
  rw [whole, split, List.length_append] at bytes
  omega

namespace Position

/-- The position with its column as a number of 32 bits. -/
def cut (here : Position) : Position := ⟨here.line, here.column % UInt32.size⟩

/-- Whether a column is cut before it is moved on makes no difference once it is cut behind. -/
theorem cut_after_cut (here : Position) (c : Char) : (here.cut.after c).cut = (here.after c).cut := by
  by_cases feed : c = '\n'
  · simp only [after, if_pos feed, cut]
  · simp only [after, if_neg feed, cut, Nat.mod_add_mod]

/-- A column that fits is not cut. -/
theorem cut_eq {here : Position} (fits : here.column < 2 ^ 32) : here.cut = here := by
  have whole : here.column % UInt32.size = here.column := Nat.mod_eq_of_lt fits
  rw [cut, whole]

end Position

namespace Scanner

/-- The source counts its lines. What is left of a line that is not the last one ends in its only
line feed, and what is left of the last one has none. -/
inductive OnLine (scanner : Scanner) : Prop where
  /-- Another line follows. -/
  | inner (all : scanner.source.lineCount = scanner.source.lines.length) (body : List Char)
    (more : scanner.line < scanner.source.lineCount) (oneLine : '\n' ∉ body)
    (ends : scanner.rest = body ++ ['\n'])
  /-- The line is the last one. -/
  | last (all : scanner.source.lineCount = scanner.source.lines.length)
    (final : scanner.line = scanner.source.lineCount) (oneLine : '\n' ∉ scanner.rest)

/-- The scanner stands where the cursor over the whole text stands; its column is cut to 32 bits. -/
structure Follows (scanner : Scanner) (cursor : Cursor) : Prop where
  /-- The same text is to come. -/
  ahead : scanner.ahead = cursor.ahead
  /-- The position is the same but for what a column of 32 bits cannot hold. -/
  position : scanner.position = cursor.position.cut

variable {scanner : Scanner} {source : Source} {cursor : Cursor}

/-- A scanner at the start of a line is on it. -/
theorem onLine_of_line {index column : Nat} (all : source.lineCount = source.lines.length)
    (inside : index < source.lineCount) :
    OnLine ⟨source, source.lineText (index + 1), index + 1, column⟩ := by
  have below : index < source.lines.length := all ▸ inside
  have found : source.lines[index]? = some source.lines[index] := List.getElem?_eq_getElem below
  have text := lineText_succ inside found
  have ends : if index + 1 < source.lines.length then
      ∃ body, '\n' ∉ body ∧ source.lines[index] = body ++ ['\n']
    else '\n' ∉ source.lines[index] := splitLines_ends found
  by_cases more : index + 1 < source.lines.length
  · rw [if_pos more] at ends
    obtain ⟨body, oneLine, line⟩ := ends
    exact .inner all body (all ▸ more) oneLine (text.trans line)
  · rw [if_neg more] at ends
    refine .last all ?_ ?_
    · show index + 1 = source.lineCount
      omega
    · rwa [text]

/-- A scanner that is on a line does not move on. -/
theorem OnLine.skipExhausted (on : scanner.OnLine) : scanner.skipExhausted = scanner := by
  rw [Scanner.skipExhausted, if_neg]
  rintro ⟨empty, more⟩
  cases on with
  | inner _ body _ _ ends => simp [ends] at empty
  | last _ final _ => omega

/-- A scanner whose line is used up moves on to the start of the next line and stays there. -/
theorem skipExhausted_next {column : Nat}
    (all : scanner.source.lineCount = scanner.source.lines.length)
    (more : scanner.line < scanner.source.lineCount) :
    skipExhausted { scanner with rest := [], column } =
      { scanner with
        rest := scanner.source.lineText (scanner.line + 1)
        line := scanner.line + 1
        column := 1 } := by
  rw [Scanner.skipExhausted, if_pos ⟨rfl, more⟩]
  exact (onLine_of_line all more).skipExhausted

/-- A scanner starts on the first line, before all of the text. -/
theorem start_follows (all : source.lineCount = source.lines.length) :
    (start source).OnLine ∧ (start source).Follows (.start source) := by
  obtain ⟨line, later, lines⟩ := List.exists_cons_of_ne_nil (splitLines_ne_nil source.chars)
  have lines : source.lines = line :: later := lines
  have one : 0 < source.lineCount := by
    rw [all, lines]
    exact Nat.succ_pos later.length
  have on : OnLine ⟨source, source.lineText 1, 1, 1⟩ := onLine_of_line all one
  have begun : start source = ⟨source, source.lineText 1, 1, 1⟩ := on.skipExhausted
  have first : source.lineText 1 = line := lineText_succ one (by rw [lines]; rfl)
  have placed : Position.first.cut = .first := Position.cut_eq (by decide)
  rw [begun]
  refine ⟨on, ?_, placed.symm⟩
  show source.lineText 1 ++ (source.lines.drop 1).flatten = source.chars
  rw [first, lines, List.drop_one, List.tail_cons, ← List.flatten_cons, ← lines]
  exact flatten_splitLines source.chars

/-- On the last line nothing is to come but the rest of it. -/
theorem ahead_last (all : scanner.source.lineCount = scanner.source.lines.length)
    (final : scanner.line = scanner.source.lineCount) : scanner.ahead = scanner.rest := by
  rw [ahead, final, all, List.drop_length, List.flatten_nil, List.append_nil]

/-- On a line before the last one the rest of it is to come with its line feed. -/
theorem ahead_inner {body : List Char} (ends : scanner.rest = body ++ ['\n']) :
    scanner.ahead = body ++ '\n' :: (scanner.source.lines.drop scanner.line).flatten := by
  rw [ahead, ends, List.append_assoc]
  rfl

/-- No text is to come exactly if the line is used up. -/
theorem OnLine.ahead_eq_nil (on : scanner.OnLine) : scanner.ahead = [] ↔ scanner.rest = [] := by
  cases on with
  | inner _ body _ _ ends => simp [ahead_inner ends, ends]
  | last all final _ => rw [ahead_last all final]

/-- The next codepoint of the line is the next one of the text. -/
theorem OnLine.peek? (on : scanner.OnLine) : scanner.peek? = scanner.ahead.head? := by
  show scanner.rest.head? = scanner.ahead.head?
  cases on with
  | inner _ body _ _ ends => rw [ahead_inner ends, ends]; cases body <;> rfl
  | last all final _ => rw [ahead_last all final]

/-- The second codepoint of the rest of the line is the second one of the text, unless the first is
a line feed. -/
theorem OnLine.peekSecond? (on : scanner.OnLine) :
    scanner.peekSecond? =
      if scanner.ahead.head? = some '\n' then none else scanner.ahead[1]? := by
  show scanner.rest.tail.head? = _
  cases on with
  | inner _ body _ oneLine ends =>
    rw [ahead_inner ends, ends]
    cases body with
    | nil => rfl
    | cons c body =>
      have feed : c ≠ '\n' := Ne.symm (List.ne_of_not_mem_cons oneLine)
      cases body <;> simp [feed]
  | last all final oneLine =>
    rw [ahead_last all final]
    cases rest : scanner.rest with
    | nil => rfl
    | cons c others =>
      rw [rest] at oneLine
      have feed : c ≠ '\n' := Ne.symm (List.ne_of_not_mem_cons oneLine)
      cases others <;> simp [feed]

/-- Behind a codepoint that is handed out a scanner is on a line, at the position after the
codepoint. -/
theorem OnLine.behind {c : Char} {others : List Char} (on : scanner.OnLine)
    (rest : scanner.rest = c :: others) :
    scanner.consume.2.OnLine ∧
      scanner.consume.2.position = (scanner.position.after c).cut := by
  have taken : scanner.consume = (some c, Scanner.skipExhausted
      { scanner with rest := others, column := (scanner.column + 1) % UInt32.size }) := by
    rw [Scanner.consume, rest]
  rw [taken]
  -- A line feed uses up the line and leads to the next one. Any other codepoint leaves the scanner
  -- on its line, and so does the last codepoint of the text.
  cases on with
  | inner all body more oneLine ends =>
    cases body with
    | nil =>
      obtain ⟨rfl, rfl⟩ := List.cons.inj (rest.symm.trans ends)
      rw [skipExhausted_next all more, Position.after, if_pos rfl]
      exact ⟨onLine_of_line all more, rfl⟩
    | cons first body =>
      have parts : c :: others = first :: (body ++ ['\n']) := rest.symm.trans ends
      obtain ⟨rfl, rfl⟩ := List.cons.inj parts
      have feed : c ≠ '\n' := Ne.symm (List.ne_of_not_mem_cons oneLine)
      have stays : OnLine { scanner with
          rest := body ++ ['\n'], column := (scanner.column + 1) % UInt32.size } :=
        .inner all body more (List.not_mem_of_not_mem_cons oneLine) rfl
      rw [stays.skipExhausted, Position.after, if_neg feed]
      exact ⟨stays, rfl⟩
  | last all final oneLine =>
    rw [rest] at oneLine
    have feed : c ≠ '\n' := Ne.symm (List.ne_of_not_mem_cons oneLine)
    have stays : OnLine { scanner with
        rest := others, column := (scanner.column + 1) % UInt32.size } :=
      .last all final (List.not_mem_of_not_mem_cons oneLine)
    rw [stays.skipExhausted, Position.after, if_neg feed]
    exact ⟨stays, rfl⟩

/-- A scanner that hands out a codepoint stays on a line, and hands out what the cursor it follows
does. -/
theorem OnLine.consume (on : scanner.OnLine) (follows : scanner.Follows cursor) :
    scanner.consume.2.OnLine ∧ scanner.consume.1 = cursor.peek? ∧
      scanner.consume.2.Follows cursor.advance := by
  obtain ⟨same, place⟩ := follows
  cases rest : scanner.rest with
  | nil =>
    have stays : scanner.consume = (none, scanner) := by rw [Scanner.consume, rest]
    have ended : cursor.ahead = [] := same.symm.trans (on.ahead_eq_nil.mpr rest)
    have still : cursor.advance = cursor := by rw [Cursor.advance, ended]
    rw [stays, still, Cursor.peek?, ended]
    exact ⟨on, rfl, same, place⟩
  | cons c others =>
    obtain ⟨onward, position⟩ := on.behind rest
    have first : scanner.consume.1 = some c := by rw [Scanner.consume, rest]
    have ahead : cursor.ahead = c :: scanner.consume.2.ahead := by
      rw [← same]
      apply consume_ahead
      rw [← first]
    have moved : cursor.advance = ⟨scanner.consume.2.ahead, cursor.position.after c⟩ := by
      rw [Cursor.advance, ahead]
    rw [Cursor.peek?, ahead, moved]
    refine ⟨onward, first, rfl, ?_⟩
    rw [position, place]
    exact Position.cut_after_cut cursor.position c

/-- A scanner that drops the rest of its line stays on a line, and follows the cursor. -/
theorem OnLine.skipLine (on : scanner.OnLine) (follows : scanner.Follows cursor) :
    scanner.skipLine.OnLine ∧ scanner.skipLine.Follows cursor.skipLine := by
  obtain ⟨same, place⟩ := follows
  cases on with
  | inner all body more oneLine ends =>
    have found : Cursor.afterLineFeed? cursor.ahead =
        some (scanner.source.lines.drop scanner.line).flatten := by
      rw [← same, ahead_inner ends, afterLineFeed?_append oneLine, Cursor.afterLineFeed?, if_pos rfl]
    have moved : scanner.skipLine = _ := skipExhausted_next all more
    have ahead : scanner.skipLine.ahead = (scanner.source.lines.drop scanner.line).flatten :=
      skipExhausted_ahead _
    have line : scanner.line = cursor.position.line := congrArg Position.line place
    refine ⟨?_, ?_, ?_⟩
    · rw [moved]
      exact onLine_of_line all more
    · rw [ahead, Lexer.skipLine_next found]
    · rw [moved, Lexer.skipLine_next found, ← line]
      rfl
  | last all final oneLine =>
    have stays : OnLine { scanner with rest := [] } := .last all final List.not_mem_nil
    have ended : '\n' ∉ cursor.ahead := by rwa [← same, ahead_last all final]
    rw [Lexer.skipLine_oneLine ended, Scanner.skipLine, stays.skipExhausted]
    exact ⟨stays, ahead_last all final, place⟩

/-- What is used up is what is to come before, less what is to come after. -/
theorem used_ahead (scanner : Scanner) (step : Step) :
    scanner.ahead = scanner.used step ++ (scanner.perform step).2.ahead := by
  have handed : scanner.ahead = scanner.consume.1.toList ++ scanner.consume.2.ahead := by
    cases taken : scanner.consume with
    | mk found later =>
      cases found with
      | none =>
        unfold Scanner.consume at taken
        split at taken <;> cases taken
        rfl
      | some c => exact consume_ahead taken
  cases step with
  | peek | peekSecond => rfl
  | consume | next => exact handed
  | eat expected =>
    show _ = (if (scanner.eat expected).1 then [expected] else []) ++ (scanner.eat expected).2.ahead
    by_cases there : scanner.peek? = some expected
    · have first : scanner.consume.1 = some expected := by
        rw [Scanner.consume]
        cases rest : scanner.rest with
        | nil => simp [Scanner.peek?, rest] at there
        | cons c others => simpa [Scanner.peek?, rest] using there
      rw [eat, if_pos there, handed, first]
      rfl
    · rw [eat, if_neg there]
      rfl
  | skipLine =>
    show _ = scanner.rest ++ scanner.skipLine.ahead
    rw [Scanner.skipLine, skipExhausted_ahead]
    rfl

/-- Whatever it is asked for, a scanner stays on a line, replies as the cursor that it follows does,
and follows it on. -/
theorem OnLine.perform (on : scanner.OnLine) (follows : scanner.Follows cursor) (step : Step) :
    (scanner.perform step).2.OnLine ∧ (scanner.perform step).1 = (cursor.perform step).1 ∧
      (scanner.perform step).2.Follows (cursor.perform step).2 := by
  obtain ⟨onward, first, later⟩ := on.consume follows
  have shown : scanner.peek? = cursor.peek? := by rw [on.peek?, follows.ahead, Cursor.peek?]
  cases step with
  | peek => exact ⟨on, congrArg Reply.codepoint shown, follows⟩
  | peekSecond =>
    have second : scanner.peekSecond? = cursor.peekSecond? := by
      rw [on.peekSecond?, follows.ahead, cursor.peekSecond?_eq]
    exact ⟨on, congrArg Reply.codepoint second, follows⟩
  | consume | next =>
    show scanner.consume.2.OnLine ∧ Reply.codepoint scanner.consume.1 =
      (cursor.perform .consume).1 ∧ scanner.consume.2.Follows (cursor.perform .consume).2
    rw [cursor.perform_consume]
    exact ⟨onward, congrArg Reply.codepoint first, later⟩
  | eat expected =>
    show (scanner.eat expected).2.OnLine ∧ Reply.eaten (scanner.eat expected).1 =
      Reply.eaten (cursor.eat expected).1 ∧ (scanner.eat expected).2.Follows (cursor.eat expected).2
    rw [eat, Cursor.eat, ← shown]
    by_cases there : scanner.peek? = some expected
    · rw [if_pos there, if_pos there]
      exact ⟨onward, rfl, later⟩
    · rw [if_neg there, if_neg there]
      exact ⟨on, rfl, follows⟩
  | skipLine =>
    obtain ⟨below, follow⟩ := on.skipLine follows
    exact ⟨below, rfl, follow⟩

/-- A scanner follows a cursor in place, whatever it is asked for, and what is used up was to
come. -/
theorem OnLine.run {before : List Char} (on : scanner.OnLine) (follows : scanner.Follows cursor)
    (inPlace : cursor.InPlace before) (steps : List Step) :
    (scanner.run steps).2.OnLine ∧ (scanner.run steps).2.Follows (cursor.after steps) ∧
      scanner.ahead = (scanner.run steps).1 ++ (scanner.run steps).2.ahead ∧
      (cursor.after steps).InPlace (before ++ (scanner.run steps).1) := by
  induction steps generalizing scanner cursor before with
  | nil => exact ⟨on, follows, rfl, by rwa [Scanner.run, List.append_nil]⟩
  | cons step steps ih =>
    obtain ⟨onward, _, later⟩ := on.perform follows step
    have gone := scanner.used_ahead step
    have kept : (cursor.perform step).2.InPlace (before ++ scanner.used step) := by
      apply inPlace.perform
      rw [← follows.ahead, ← later.ahead]
      exact gone
    obtain ⟨final, followed, split, place⟩ := ih onward later kept
    refine ⟨final, followed, ?_, ?_⟩
    · show _ = scanner.used step ++ _ ++ _
      rw [gone, split, List.append_assoc]
      rfl
    · rw [List.append_assoc] at place
      exact place

/-- What is handed out codepoint by codepoint is what is to come. -/
theorem OnLine.collect (on : scanner.OnLine) : scanner.collect = scanner.ahead := by
  fun_induction Scanner.collect scanner with
  | case1 scanner final ended =>
    have used : scanner.rest = [] := by
      unfold Scanner.consume at ended
      split at ended
      · assumption
      · cases ended
    exact (on.ahead_eq_nil.mpr used).symm
  | case2 scanner c later step ih =>
    have onward : scanner.consume.2.OnLine := by
      cases rest : scanner.rest with
      | nil =>
        rw [Scanner.consume, rest] at step
        cases step
      | cons first others => exact (on.behind rest).1
    rw [step] at onward
    rw [consume_ahead step, ih onward]

/-- A scanner of a source that counts no line is at the end from the start, and stays there. -/
theorem run_uncounted (none : source.lineCount = 0) (steps : List Step) :
    (start source).run steps = ([], start source) ∧ (start source).collect = [] ∧
      (start source).isAtEnd = true := by
  have refused : source.line 1 = .error (.lineOutOfRange 1 0) := by
    rw [Source.line_eq_error, none]
    exact ⟨.inr Nat.one_pos, rfl⟩
  have nothing : source.lineText 1 = [] := by rw [Source.lineText, refused]
  have stuck : skipExhausted ⟨source, [], 1, 1⟩ = ⟨source, [], 1, 1⟩ := by
    rw [skipExhausted, if_neg]
    rw [none]
    exact fun more => absurd more.2 (Nat.not_lt_zero 1)
  have begun : start source = ⟨source, [], 1, 1⟩ := by rw [start, nothing, stuck]
  have still (step : Step) : ((start source).perform step).2 = start source ∧
      (start source).used step = [] := by
    rw [begun]
    cases step with
    | skipLine => exact ⟨stuck, rfl⟩
    | _ => exact ⟨rfl, rfl⟩
  refine ⟨?_, ?_, by rw [begun]; rfl⟩
  · induction steps with
    | nil => rfl
    | cons step steps ih =>
      rw [run, (still step).1, (still step).2, ih]
      rfl
  · rw [collect, begun]
    rfl

end Scanner

/-- Of a text of fewer than 2^32 bytes whose lines are counted nothing is lost, whatever its scanner
was asked for: the codepoints handed out and the text dropped, in order, and the codepoints that are
handed out from then on are the text. To be shown the next codepoint, or the one behind it, which is
not shown when the next is a line feed, changes nothing. The scanner is at the end exactly if all of
the text is gone, and if it is not, it is at the place after what is gone: a line more than there are
line feeds, and a column more than there are codepoints behind the last of them, both numbers of 32
bits. It follows a cursor over the whole text and replies as that does. The one text whose lines are
not counted is all line feeds; its scanner is at the end from the start, with nothing used up. -/
theorem scanner_keeps_its_place (source : Source) (small : source.content.utf8ByteSize < 2 ^ 32)
    (steps : List Scanner.Step) :
    ∃ used scanner, (Scanner.start source).run steps = (used, scanner) ∧
      (source.lines.length < 2 ^ 32 →
        used ++ scanner.collect = source.chars ∧
        scanner.perform .peek = (.codepoint scanner.collect.head?, scanner) ∧
        scanner.perform .peekSecond =
          (.codepoint (if scanner.collect.head? = some '\n' then none else scanner.collect[1]?),
            scanner) ∧
        (scanner.isAtEnd = true ↔ used = source.chars) ∧
        (scanner.isAtEnd = false → scanner.position = placeAfter used ∧
          scanner.line < 2 ^ 32 ∧ scanner.column < 2 ^ 32) ∧
        scanner.Follows ((Cursor.start source).after steps) ∧
        ∀ step, (scanner.perform step).1 = (((Cursor.start source).after steps).perform step).1) ∧
      (2 ^ 32 ≤ source.lines.length →
        source.bytes = List.replicate source.bytes.length lineFeedByte ∧
        used = [] ∧ scanner.collect = [] ∧ scanner.isAtEnd = true) := by
  obtain ⟨used, scanner, ran⟩ :
      ∃ used scanner, (Scanner.start source).run steps = (used, scanner) := ⟨_, _, rfl⟩
  refine ⟨used, scanner, ran, fun few => ?_, fun many => ?_⟩
  · obtain ⟨first, begun⟩ := Scanner.start_follows (Source.lineCount_eq few)
    have placed : (Cursor.start source).InPlace [] := fun _ => rfl
    obtain ⟨on, followed, split, place⟩ := first.run begun placed steps
    have whole : (Scanner.start source).ahead = source.chars := begun.ahead
    rw [ran] at on followed split place
    rw [whole, ← on.collect] at split
    have ended : scanner.isAtEnd = true ↔ scanner.collect = [] := by
      rw [on.collect, on.ahead_eq_nil]
      exact List.isEmpty_iff
    refine ⟨split.symm, ?_, ?_, ?_, fun more => ?_, followed, fun step => ?_⟩
    · rw [Scanner.perform, on.peek?, on.collect]
    · rw [Scanner.perform, on.peekSecond?, on.collect]
    · rw [ended, split, List.self_eq_append_right]
    · have left : scanner.collect ≠ [] := by
        intro nothing
        rw [ended.mpr nothing] at more
        cases more
      obtain ⟨line, column⟩ := placeAfter_fits small split left
      have there : ((Cursor.start source).after steps).position = placeAfter used := by
        apply place
        rwa [← followed.ahead, ← on.collect]
      have here : scanner.position = placeAfter used := by
        rw [followed.position, there]
        exact Position.cut_eq column
      rw [← here] at line column
      exact ⟨here, line, column⟩
    · exact (on.perform followed step).2.1
  · obtain ⟨_, none, feeds⟩ := Source.lines_too_many small many
    obtain ⟨nothing, ended, final⟩ := Scanner.run_uncounted none steps
    rw [ran] at nothing
    cases nothing
    exact ⟨feeds, rfl, ended, final⟩

/-- Behind an accent, an empty line and a dropped comment a scanner is in the fourth line: what is
gone is the text before the blank there, and the rest is still to come. -/
theorem scanner_behind_dropped_comment :
    let source : Source := ⟨0, "t.sb", "é\n\n// x\nb c"⟩
    let steps : List Scanner.Step := [.eat 'é', .peekSecond, .skipLine, .next, .skipLine, .consume]
    source.content.utf8ByteSize < 2 ^ 32 ∧ source.lines.length < 2 ^ 32 ∧
    ∃ scanner, (Scanner.start source).run steps = ("é\n\n// x\nb".toList, scanner) ∧
      "é\n\n// x\nb".toList ++ scanner.collect = source.chars ∧
      scanner.isAtEnd = false ∧ scanner.position = ⟨4, 2⟩ := by
  intro source steps
  have small : source.content.utf8ByteSize < 2 ^ 32 := by decide
  have few : source.lines.length < 2 ^ 32 := by
    have lines : source.lines.length = 4 := by decide +kernel
    rw [lines]
    decide
  obtain ⟨used, scanner, ran, kept, _⟩ := scanner_keeps_its_place source small steps
  obtain ⟨split, _, _, _, place, _⟩ := kept few
  have gone : ((Scanner.start source).run steps).1 = "é\n\n// x\nb".toList := by decide +kernel
  have more : ((Scanner.start source).run steps).2.isAtEnd = false := by decide +kernel
  rw [ran] at gone more
  obtain rfl : used = "é\n\n// x\nb".toList := gone
  have there : placeAfter "é\n\n// x\nb".toList = ⟨4, 2⟩ := by decide
  exact ⟨small, few, scanner, ran, split, more, (place more).1.trans there⟩

/-- A scanner of 2^32 - 1 line feeds is at the end from the start, with all of the text to come: it
hands out nothing. -/
theorem scanner_hands_out_no_line_feed :
    (Source.lineFeeds (2 ^ 32 - 1)).content.utf8ByteSize < 2 ^ 32 ∧
    (Source.lineFeeds (2 ^ 32 - 1)).chars ≠ [] ∧
    ((Scanner.start (Source.lineFeeds (2 ^ 32 - 1))).run []).1 = [] ∧
    ((Scanner.start (Source.lineFeeds (2 ^ 32 - 1))).run []).2.isAtEnd = true ∧
    ((Scanner.start (Source.lineFeeds (2 ^ 32 - 1))).run []).2.collect = [] := by
  obtain ⟨count, full⟩ : ∃ count, count = 2 ^ 32 - 1 := ⟨_, rfl⟩
  rw [← full]
  have lines := Source.length_lines_lineFeeds count
  have size := Source.size_lineFeeds count
  have small : (Source.lineFeeds count).content.utf8ByteSize < 2 ^ 32 := by omega
  obtain ⟨_, none, _⟩ := Source.lines_too_many small (by omega)
  obtain ⟨ran, ended, final⟩ := Scanner.run_uncounted none []
  rw [ran]
  refine ⟨small, ?_, rfl, final, ended⟩
  rw [Source.chars_lineFeeds, List.ne_nil_iff_length_pos, List.length_replicate]
  omega

end Cascade
