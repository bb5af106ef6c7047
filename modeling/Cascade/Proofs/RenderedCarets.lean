import Cascade.Diagnostic.Render
import Cascade.Proofs.ReportForms

/-!
# Carets under tokens

A rendered diagnostic echoes the line of its token and puts a row of carets below. Both rows begin
with gutters of one width, the row of carets goes on with a blank for every codepoint before the
token, and there is a caret for every codepoint of the token. No token goes over a line end, so the
whole token stands in the echoed line, even where the end of the line is cut off.

Main definitions:

* `Echoes`, a line without the line feeds and carriage returns at its end;
* `Underlines`, the rows of a rendered diagnostic.
-/
namespace Cascade

/-- The line is shown without the line feeds and carriage returns at its end. -/
structure Echoes (line shown : List Char) : Prop where
  /-- Only line feeds and carriage returns are left out. -/
  trimmed : ∃ ends, line = shown ++ ends ∧ ∀ c ∈ ends, isLineBreak c = true
  /-- None is left at the end. -/
  last : ∀ c ∈ shown.getLast?, isLineBreak c = false

/-- A line is echoed as it is trimmed. -/
theorem trimLineEnd_echoes (line : List Char) : Echoes line (trimLineEnd line) where
  trimmed := by
    have whole := List.takeWhile_append_dropWhile (p := isLineBreak) (l := line.reverse)
    refine ⟨(line.reverse.takeWhile isLineBreak).reverse, ?_, ?_⟩
    · have back := congrArg List.reverse whole
      rw [List.reverse_append, List.reverse_reverse] at back
      exact back.symm
    · intro c member
      exact List.mem_takeWhile_imp (List.mem_reverse.mp member)
  last := by
    intro c last
    have first : (line.reverse.dropWhile isLineBreak).head? = some c := by
      rw [← List.getLast?_reverse]
      exact last
    have stops := List.head?_dropWhile_not isLineBreak line.reverse
    rw [first] at stops
    exact stops

namespace Echoes

variable {line shown : List Char}

/-- What stands in a line and ends no line is echoed with what stands before it. -/
theorem covers {before text behind : List Char} (echoes : Echoes line shown)
    (split : line = before ++ text ++ behind) (nonempty : text ≠ [])
    (inside : ∀ c ∈ text, isLineBreak c = false) : ∃ rest, shown = before ++ text ++ rest := by
  obtain ⟨ends, cut, breaks⟩ := echoes.trimmed
  rw [cut] at split
  rcases List.append_eq_append_iff.mp split with ⟨beyond, whole, tail⟩ | ⟨rest, whole, _⟩
  · by_cases none : beyond = []
    · refine ⟨[], ?_⟩
      rw [whole, none, List.append_nil, List.append_nil]
    · -- The last character of the text would be one of those that are left out.
      have last : (before ++ text).getLast? = beyond.getLast? := by
        rw [whole, List.getLast?_append_of_ne_nil _ none]
      rw [List.getLast?_append_of_ne_nil _ nonempty, List.getLast?_eq_getLast_of_ne_nil nonempty]
        at last
      have member : text.getLast nonempty ∈ ends := by
        rw [tail]
        exact List.mem_append_left _ (List.mem_of_getLast? last.symm)
      have stays := inside _ (List.getLast_mem nonempty)
      rw [breaks _ member] at stays
      cases stays
  · exact ⟨rest, whole⟩

/-- A line with a line feed at its end only is echoed without one. -/
theorem oneLine (echoes : Echoes line shown)
    (closed : ∀ before behind, line = before ++ '\n' :: behind → behind = []) : '\n' ∉ shown := by
  intro member
  obtain ⟨before, behind, rfl⟩ := List.append_of_mem member
  obtain ⟨ends, cut, _⟩ := echoes.trimmed
  rw [List.append_assoc, List.cons_append] at cut
  obtain ⟨rfl, _⟩ := List.append_eq_nil_iff.mp (closed before (behind ++ ends) cut)
  have stays := echoes.last '\n' List.getLast?_concat
  cases stays

end Echoes

/-- In a line of a text a line feed stands at the end only. -/
theorem splitLines_closed (text : List Char) :
    ∀ line ∈ splitLines text, ∀ before behind, line = before ++ '\n' :: behind → behind = [] := by
  induction text using lines_induction with
  | last text oneLine =>
    rw [splitLines_oneLine oneLine, List.forall_mem_singleton]
    rintro before behind rfl
    exact absurd (List.mem_append_right _ List.mem_cons_self) oneLine
  | line body rest oneLine ih =>
    rw [splitLines_lineFeed oneLine, List.forall_mem_cons]
    refine ⟨fun before behind split => ?_, ih⟩
    by_cases none : behind = []
    · exact none
    · have cut := congrArg List.dropLast split
      rw [List.dropLast_concat, List.dropLast_append_of_ne_nil (List.cons_ne_nil _ _),
        List.dropLast_cons_of_ne_nil none] at cut
      rw [cut] at oneLine
      exact absurd (List.mem_append_right _ List.mem_cons_self) oneLine

/-- A lexeme covers at least one codepoint. -/
theorem Lexeme.scan_written_ne_nil {first : Char} (notBlank : isBlank first = false)
    (rest : List Char) : (scan first rest).1.written ≠ [] := by
  intro empty
  have covered := (scan_written notBlank rest).1
  have shorter := scan_length first rest
  rw [empty, List.nil_append] at covered
  rw [← covered, List.length_cons] at shorter
  omega

/-- What ends a line is a blank. -/
theorem isBlank_of_isLineBreak {c : Char} (breaks : isLineBreak c = true) : isBlank c = true := by
  rcases Bool.or_eq_true_iff.mp breaks with feed | carriage
  · rw [of_decide_eq_true feed]
    rfl
  · rw [of_decide_eq_true carriage]
    rfl

/-- A lexeme is read as if the text ended where its line does. -/
theorem Lexeme.scan_takeWhile_staysOnLine (first : Char) (rest : List Char) :
    (scan first (rest.takeWhile staysOnLine)).1 = (scan first rest).1 := by
  have whole := List.takeWhile_append_dropWhile (p := staysOnLine) (l := rest)
  cases left : rest.dropWhile staysOnLine with
  | nil =>
    rw [left, List.append_nil] at whole
    rw [whole]
  | cons c later =>
    have stops := List.head?_dropWhile_not staysOnLine rest
    rw [left] at stops
    have breaks : isLineBreak c = true := by
      have broken : staysOnLine c = false := stops
      rwa [staysOnLine, Bool.not_eq_false'] at broken
    rw [left] at whole
    have ended := scan_lineBreak first breaks (rest.takeWhile staysOnLine) later
    rw [whole] at ended
    rw [ended]

/-- A lexeme covers neither line feeds nor carriage returns. -/
theorem Lexeme.scan_written_stays {first : Char} (notBlank : isBlank first = false)
    (rest : List Char) : ∀ c ∈ (scan first rest).1.written, isLineBreak c = false := by
  have covered := (scan_written notBlank (rest.takeWhile staysOnLine)).1
  rw [← scan_takeWhile_staysOnLine]
  intro c member
  have inside : c ∈ first :: rest.takeWhile staysOnLine := by
    rw [covered]
    exact List.mem_append_left _ member
  rcases List.mem_cons.mp inside with rfl | later
  · rw [Bool.eq_false_iff]
    intro breaks
    rw [isBlank_of_isLineBreak breaks] at notBlank
    cases notBlank
  · have kept : staysOnLine c = true := List.mem_takeWhile_imp later
    rwa [staysOnLine, Bool.not_eq_true'] at kept

namespace Source

variable {source : Source} {token : Token}

/-- A token covers at least one codepoint, and neither line feeds nor carriage returns. -/
theorem token_stays (member : token ∈ source.tokenStream.tokens) :
    token.lexeme.written ≠ [] ∧ ∀ c ∈ token.lexeme.written, isLineBreak c = false := by
  have placed : (Cursor.start source).position = placeAfter [] := rfl
  obtain ⟨_, first, rest, _, notBlank, rfl⟩ := Lexer.run_scanned placed member
  exact ⟨Lexeme.scan_written_ne_nil notBlank rest, Lexeme.scan_written_stays notBlank rest⟩

/-- A token is written in its line behind as many codepoints as its column tells. -/
theorem token_line (member : token ∈ source.tokenStream.tokens) :
    ∃ line before behind, source.lineAt? token.start.line = some (String.ofList line) ∧
      line ∈ source.lines ∧ line = before ++ token.lexeme.written ++ behind ∧
      before.length = token.start.column - 1 := by
  obtain ⟨front, after, split, start, oneLine⟩ := token_split member
  obtain ⟨nonempty, _⟩ := token_stays member
  have onward := splitLines_placeAfter front (token.lexeme.written ++ after)
  rw [← split, ← start] at onward
  obtain ⟨behind, written⟩ : token.lexeme.written <+:
      (splitLines (token.lexeme.written ++ after)).headD [] := by
    rw [← prefix_lineBody_iff oneLine, lineBody_splitLines, prefix_lineBody_iff oneLine]
    exact List.prefix_append _ _
  rw [← written] at onward
  have number : token.start.line = token.start.line - 1 + 1 := by
    rw [start]
    show 1 + _ = 1 + _ - 1 + 1
    omega
  have there : (splitLines source.chars).getD (token.start.line - 1) [] =
      source.lines[token.start.line - 1]?.getD [] := List.getD_eq_getElem?_getD
  rw [there] at onward
  cases found : source.lines[token.start.line - 1]? with
  | none =>
    rw [found, Option.getD_none, List.drop_nil] at onward
    exact absurd (List.append_eq_nil_iff.mp onward.symm).1 nonempty
  | some line =>
    rw [found, Option.getD_some] at onward
    have long := congrArg List.length onward
    rw [List.length_drop, List.length_append] at long
    have some := List.length_pos_iff.mpr nonempty
    refine ⟨line, line.take (token.start.column - 1), behind, ?_, List.mem_of_getElem? found, ?_, ?_⟩
    · rw [number, Source.lineAt?_eq_some, String.toList_ofList]
      exact found
    · rw [List.append_assoc, ← onward, List.take_append_drop]
    · rw [List.length_take]
      omega

end Source

namespace Diagnostic

/-- A diagnostic on a line that exists is rendered in its rows. -/
theorem render_rows (report : Diagnostic) {source : Source} {line : String}
    (found : source.lineAt? report.span.start.line = some line) :
    ∃ hint : String, report.render false source =
      "--- " ++ report.header source ++ "\n" ++
        (toString report.span.start.line ++ " | " ++ String.ofList (trimLineEnd line.toList) ++
          "\n") ++
        (String.ofList (List.replicate (toString report.span.start.line).length ' ') ++ " | " ++
          String.ofList (report.underline (trimLineEnd line.toList)) ++ "\n") ++ hint := by
  cases hint : report.hint with
  | none =>
    refine ⟨"", ?_⟩
    simp [render, echo, found, header, Palette.of, Palette.plain, toString, hint,
      String.append_assoc]
  | some text =>
    refine ⟨"hint: " ++ text ++ "\n", ?_⟩
    simp [render, echo, found, header, Palette.of, Palette.plain, toString, hint,
      String.append_assoc]

end Diagnostic

/-- The rows of a diagnostic at a token, rendered without colours. Below the header is the line of
the token without its end, behind a gutter with the number of the line, and below it, behind a
gutter as wide, are as many blanks as the column of the token tells and as many carets as the token
has codepoints. -/
structure Underlines (source : Source) (token : Token) (report : Diagnostic)
    (shown blanks : List Char) (hint : String) : Prop where
  /-- The rows are all that is rendered before the hint. -/
  rows : report.render false source =
    "--- " ++ report.header source ++ "\n" ++
      (toString token.start.line ++ " | " ++ String.ofList shown ++ "\n") ++
      (String.ofList (List.replicate (toString token.start.line).length ' ') ++ " | " ++
        String.ofList (blanks ++ List.replicate token.width '^') ++ "\n") ++ hint
  /-- The header is one row if the name of the source is on one line. -/
  header : '\n' ∉ source.name.toList → '\n' ∉ (report.header source).toList
  /-- The line of the token is shown without its end. It is the one that is given out, as long as
  there are fewer than 2^32 lines. -/
  echoes : ∃ line, source.lineAt? token.start.line = some (String.ofList line) ∧
    (source.lines.length < 2 ^ 32 → source.line token.start.line = .ok (String.ofList line)) ∧
    Echoes line shown
  /-- It is one row. -/
  oneLine : '\n' ∉ shown
  /-- There are as many blanks before the carets as codepoints before the token. -/
  before : blanks.length = token.start.column - 1
  /-- A blank is a tab below a tab and a space below anything else. -/
  tabs : ∀ index < token.start.column - 1,
    blanks[index]? = some (if shown[index]? = some '\t' then '\t' else ' ')
  /-- The carets do not run past the line shown. -/
  inside : token.start.column - 1 + token.width ≤ shown.length
  /-- The token stands above the carets. -/
  covered : (shown.drop (token.start.column - 1)).take token.width = token.lexeme.written

/-- The header of a report on one line is one row. -/
theorem Diagnostic.header_oneLine {report : Diagnostic} {source : Source}
    (message : '\n' ∉ report.message.toList) (name : '\n' ∉ source.name.toList) :
    '\n' ∉ (report.header source).toList := by
  have number (value : Nat) : '\n' ∉ (toString value).toList := by
    intro member
    exact absurd (Template.isNamePart_of_mem_toString member) (by decide)
  have label : '\n' ∉ report.severity.label.toList := by
    cases report.severity <;> decide
  have whole : (report.header source).toList = source.name.toList ++ (':' ::
      ((toString report.span.start.line).toList ++ (':' ::
        ((toString report.span.start.column).toList ++ (' ' :: '-' :: ' ' ::
          (report.severity.label.toList ++ (' ' :: report.message.toList))))))) := by
    simp [header, Position.text, toString]
  rw [whole]
  simp only [List.mem_append, List.mem_cons, not_or]
  exact ⟨name, by decide, number _, by decide, number _, by decide, by decide, by decide, label,
    by decide, message⟩

/-- The blanks below the front of a line are as wide, and keep its tabs. -/
theorem underlineIndent_eq {shown : List Char} {columns : Nat} (long : columns ≤ shown.length) :
    (underlineIndent shown columns).length = columns ∧
      ∀ index < columns, (underlineIndent shown columns)[index]? =
        some (if shown[index]? = some '\t' then '\t' else ' ') := by
  constructor
  · rw [underlineIndent, List.length_map, List.length_take]
    omega
  · intro index inside
    have there : index < shown.length := by omega
    rw [underlineIndent, List.getElem?_map, List.getElem?_take_of_lt inside,
      List.getElem?_eq_getElem there, Option.map_some]
    simp only [Option.some.injEq]

/-- A report with the span of a token is underlined below the token. -/
theorem Source.token_underlined {source : Source} {token : Token} {report : Diagnostic}
    (member : token ∈ source.tokenStream.tokens) (place : report.span = token.span)
    (message : '\n' ∉ report.message.toList) :
    ∃ shown blanks hint, Underlines source token report shown blanks hint := by
  obtain ⟨line, before, behind, found, listed, split, column⟩ := token_line member
  obtain ⟨nonempty, stays⟩ := token_stays member
  have echoes := trimLineEnd_echoes line
  obtain ⟨rest, shown⟩ := echoes.covers split nonempty stays
  have start : report.span.start = token.start := by rw [place]; rfl
  have width : report.span.length = token.width := by rw [place]; rfl
  rw [← start] at found
  obtain ⟨hint, rows⟩ := report.render_rows found
  have some := List.length_pos_iff.mpr nonempty
  have carets : max report.span.length 1 = token.width := by
    rw [width]
    exact Nat.max_eq_left some
  have inside : token.start.column - 1 + token.width ≤ (trimLineEnd line).length := by
    show _ + token.lexeme.written.length ≤ _
    rw [shown, List.length_append, List.length_append, column]
    omega
  obtain ⟨wide, tabs⟩ := underlineIndent_eq (Nat.le_of_add_right_le inside)
  rw [String.toList_ofList, Diagnostic.underline, start, carets] at rows
  rw [start] at found
  refine ⟨_, _, hint, rows, Diagnostic.header_oneLine message,
    ⟨line, found, fun few => Source.line_of_few few found, echoes⟩, ?_, wide, tabs,
    inside, ?_⟩
  · exact echoes.oneLine (splitLines_closed source.chars line listed)
  · show List.take token.lexeme.written.length _ = _
    rw [shown, List.append_assoc, ← column, List.drop_left, List.take_left]

/-- Whatever a source has in it and whatever is asked of its parser, a diagnostic with the span of a
token, rendered without colours, has its carets under the token. All diagnostics are such, those of
the lexer and those of the parser, but for those of the parser at the end of the tokens. -/
theorem rendered_carets_sit_under_tokens (source : Source) (limit : Nat)
    (calls : List Machine.Call) (report : Diagnostic)
    (reported : report ∈ source.tokenStream.problems ∨
      report ∈ ((Session.start source limit).performAll calls).2.log.entries) :
    (∃ token ∈ source.tokenStream.tokens, report.span = token.span ∧
      ∃ shown blanks hint, Underlines source token report shown blanks hint) ∨
    (report ∉ source.tokenStream.problems ∧ report.code ∈ [2001, 2002, 2004, 2006] ∧
      report.span = source.tokenStream.stop.span 0) := by
  have filed : Filed ⟨limit, source.tokenStream.stop⟩ source.tokenStream.tokens report := by
    rcases reported with lexical | logged
    · obtain ⟨token, member, problem⟩ := List.mem_filterMap.mp lexical
      exact .problem member problem
    · exact Session.filed source limit calls report logged
  obtain ⟨message, listed, _, gives⟩ := filed.gives Source.tokens_oneLine
  have oneLine := gives.message_oneLine listed
  rcases filed.place with ⟨token, member, place⟩ | ⟨place, code⟩
  · exact .inl ⟨token, member, place, Source.token_underlined member place oneLine⟩
  · refine .inr ⟨?_, code, place⟩
    intro lexical
    obtain ⟨token, member, problem⟩ := List.mem_filterMap.mp lexical
    have narrow := congrArg Span.length ((Token.problem?_span problem).symm.trans place)
    exact (Source.token_stays member).1 (List.length_eq_zero_iff.mp narrow)

/-- A source with a string behind a tab that the end of its line cuts off. -/
def tabbedString : Source := ⟨0, "t.sb", "x\n1\t+ \"é\r\n"⟩

/-- The string is underlined up to the end of its line, with a tab below the tab. -/
theorem cut_string_is_underlined :
    ((Session.start tabbedString 8).performAll [.program]).2.log.entries.map
        (Diagnostic.render false tabbedString) =
      ["--- t.sb:2:5 - ERROR unterminated string literal\n2 | 1\t+ \"é\n  |  \t  ^^\n" ++
        "hint: add a closing '\"' before the end of the line\n"] ∧
    ∀ report ∈ ((Session.start tabbedString 8).performAll [.program]).2.log.entries,
      ∃ token ∈ tabbedString.tokenStream.tokens, report.span = token.span ∧
        ∃ shown blanks hint, Underlines tabbedString token report shown blanks hint := by
  refine ⟨by decide +kernel, fun report member => ?_⟩
  have lexical : ((Session.start tabbedString 8).performAll [.program]).2.log.entries =
      tabbedString.tokenStream.problems := by decide +kernel
  rcases rendered_carets_sit_under_tokens tabbedString 8 [.program] report (.inr member) with
    underlined | ⟨syntactic, _⟩
  · exact underlined
  · rw [lexical] at member
    exact absurd member syntactic

end Cascade
