import Cascade.Token.Lexer
import Mathlib.Data.List.TakeWhile

/-!
# Tokens and gaps make up the text

Between tokens a text has trivia: blanks and comments to the end of their line. A text is the
spellings of its tokens with trivia around them, and every token carries the place at which its
spelling stands, which is the number of line feeds and codepoints before it.
-/
namespace Cascade

/-- The place right after a text: a line more than there are line feeds, and a column more than
there are codepoints behind the last of them. -/
def placeAfter (before : List Char) : Position :=
  ⟨1 + before.count '\n', 1 + (before.reverse.takeWhile (· ≠ '\n')).length⟩

/-- One more codepoint moves the place as a cursor moves. -/
theorem placeAfter_append_singleton (before : List Char) (c : Char) :
    placeAfter (before ++ [c]) = (placeAfter before).after c := by
  by_cases feed : c = '\n'
  · simp [placeAfter, Position.after, feed, Nat.add_assoc]
  · simp [placeAfter, Position.after, feed, Nat.add_comm]

/-- Codepoints without a line feed move the place along its line. -/
theorem placeAfter_append {text : List Char} (oneLine : '\n' ∉ text) (before : List Char) :
    placeAfter (before ++ text) = (placeAfter before).shift text.length := by
  induction text generalizing before with
  | nil => simp [Position.shift]
  | cons c text ih =>
    obtain ⟨feed, rest⟩ := not_or.mp (mt List.mem_cons.mpr oneLine)
    rw [List.append_cons, ih rest, placeAfter_append_singleton, Position.after,
      if_neg (Ne.symm feed)]
    simp [Position.shift, Nat.add_left_comm, Nat.add_comm]

/-- After a line feed stands the first column of the next line. -/
theorem placeAfter_lineFeed {text : List Char} (oneLine : '\n' ∉ text) (before : List Char) :
    placeAfter (before ++ (text ++ ['\n'])) = ⟨(placeAfter before).line + 1, 1⟩ := by
  rw [← List.append_assoc, placeAfter_append_singleton, placeAfter_append oneLine]
  simp [Position.after, Position.shift]

/-- Blanks and comments, each comment with the line feed that ends it. -/
inductive Trivia : List Char → Prop where
  /-- There may be nothing. -/
  | nil : Trivia []
  /-- A blank with trivia behind it. -/
  | blank {c : Char} {rest : List Char} : isBlank c = true → Trivia rest → Trivia (c :: rest)
  /-- A comment with trivia on the lines behind it. -/
  | comment {body rest : List Char} : '\n' ∉ body → Trivia rest →
    Trivia ('/' :: '/' :: (body ++ '\n' :: rest))

/-- A line that is a comment is made of trivia. -/
theorem Trivia.line (body : List Char) (oneLine : '\n' ∉ body) :
    Trivia ('/' :: '/' :: (body ++ ['\n'])) := .comment oneLine .nil

/-- Trivia before the end of a text, where a comment needs no line feed. -/
def FinalTrivia (text : List Char) : Prop :=
  Trivia text ∨ ∃ gap body, Trivia gap ∧ '\n' ∉ body ∧ text = gap ++ '/' :: '/' :: body

/-- Nothing, or a comment that has no line feed behind it. -/
def LastComment (text : List Char) : Prop :=
  text = [] ∨ ∃ body, '\n' ∉ body ∧ text = '/' :: '/' :: body

/-- Trivia with a last comment behind them are trivia before the end of a text. -/
theorem FinalTrivia.of_lastComment {gap comment : List Char} (trivia : Trivia gap)
    (last : LastComment comment) : FinalTrivia (gap ++ comment) := by
  obtain rfl | ⟨body, oneLine, rfl⟩ := last
  · rw [List.append_nil]
    exact .inl trivia
  · exact .inr ⟨gap, body, trivia, oneLine, rfl⟩

/-- A last comment stands on one line. -/
theorem LastComment.oneLine {comment : List Char} (last : LastComment comment) :
    '\n' ∉ comment := by
  obtain rfl | ⟨body, oneLine, rfl⟩ := last
  · exact List.not_mem_nil
  · simpa using oneLine

/-- What stands before the first line feed, and what stands behind it. -/
theorem afterLineFeed?_split {text rest : List Char}
    (found : Cursor.afterLineFeed? text = some rest) :
    ∃ line, '\n' ∉ line ∧ text = line ++ '\n' :: rest := by
  induction text with
  | nil => cases found
  | cons c text ih =>
    simp only [Cursor.afterLineFeed?] at found
    split at found
    · next feed =>
      obtain rfl := Option.some.inj found
      exact ⟨[], List.not_mem_nil, by rw [feed]; rfl⟩
    · next feed =>
      obtain ⟨line, oneLine, rfl⟩ := ih found
      refine ⟨c :: line, ?_, rfl⟩
      rw [List.mem_cons, not_or]
      exact ⟨Ne.symm feed, oneLine⟩

/-- Without a line feed to move behind, the text is one line. -/
theorem not_mem_of_afterLineFeed? {text : List Char}
    (missing : Cursor.afterLineFeed? text = none) : '\n' ∉ text := by
  induction text with
  | nil => exact List.not_mem_nil
  | cons c text ih =>
    simp only [Cursor.afterLineFeed?] at missing
    split at missing
    · cases missing
    · next feed =>
      rw [List.mem_cons, not_or]
      exact ⟨Ne.symm feed, ih missing⟩

/-- Behind a line without a line feed the first line feed is the one after it. -/
theorem afterLineFeed?_append {body : List Char} (oneLine : '\n' ∉ body) (behind : List Char) :
    Cursor.afterLineFeed? (body ++ behind) = Cursor.afterLineFeed? behind := by
  induction body with
  | nil => rfl
  | cons c body ih =>
    obtain ⟨feed, rest⟩ := not_or.mp (mt List.mem_cons.mpr oneLine)
    rw [List.cons_append, Cursor.afterLineFeed?, if_neg (Ne.symm feed), ih rest]

namespace Lexer

/-- The last line is skipped without leaving it. -/
theorem skipLine_last {cursor : Cursor} (missing : Cursor.afterLineFeed? cursor.ahead = none) :
    cursor.skipLine = ⟨[], cursor.position⟩ := by
  rw [Cursor.skipLine, missing]

/-- Any other line is skipped up to the first column of the next one. -/
theorem skipLine_next {cursor : Cursor} {rest : List Char}
    (found : Cursor.afterLineFeed? cursor.ahead = some rest) :
    cursor.skipLine = ⟨rest, ⟨cursor.position.line + 1, 1⟩⟩ := by
  rw [Cursor.skipLine, found]

/-- At the end there is nothing to skip. -/
theorem skipTrivia_nil (place : Position) : skipTrivia ⟨[], place⟩ = ⟨[], place⟩ := by
  rw [skipTrivia]

/-- A blank is skipped. -/
theorem skipTrivia_blank {c : Char} (blank : isBlank c = true) (rest : List Char)
    (place : Position) : skipTrivia ⟨c :: rest, place⟩ = skipTrivia ⟨rest, place.after c⟩ := by
  rw [skipTrivia]
  simp only [blank, if_true]

/-- Two slashes are skipped with the rest of their line. -/
theorem skipTrivia_comment (rest : List Char) (place : Position) :
    skipTrivia ⟨'/' :: '/' :: rest, place⟩ =
      skipTrivia (Cursor.skipLine ⟨'/' :: '/' :: rest, place⟩) := by
  rw [skipTrivia]
  rfl

/-- No trivia are skipped before a lexeme. -/
theorem skipTrivia_lexeme {first : Char} {rest : List Char} {place : Position}
    (notBlank : isBlank first = false) (noComment : ¬ (first = '/' ∧ rest.head? = some '/')) :
    skipTrivia ⟨first :: rest, place⟩ = ⟨first :: rest, place⟩ := by
  rw [skipTrivia]
  simp only [notBlank, Bool.false_eq_true, if_false, if_neg noComment]

/-- The line of a comment starts with its two slashes. -/
theorem comment_line {tail line rest : List Char}
    (split : '/' :: '/' :: tail = line ++ '\n' :: rest) : ∃ body, line = '/' :: '/' :: body := by
  match line with
  | [] => cases split
  | [first] =>
    injection split with _ later
    cases later
  | first :: second :: body =>
    injection split with same later
    injection later with also _
    subst same also
    exact ⟨body, rfl⟩

/-- Where skipping trivia stops: behind trivia, at the place after them. What stands there is left
ahead, unless it is a last comment, which is dropped and does not move the place. -/
theorem skipTrivia_stops {cursor : Cursor} {before : List Char}
    (placed : cursor.position = placeAfter before) :
    ∃ gap rest, Trivia gap ∧ cursor.ahead = gap ++ rest ∧
      (skipTrivia cursor).position = placeAfter (before ++ gap) ∧
      ((skipTrivia cursor).ahead = rest ∨ LastComment rest ∧ (skipTrivia cursor).ahead = []) := by
  fun_induction skipTrivia cursor generalizing before with
  | case1 cursor same =>
    exact ⟨[], _, .nil, rfl, by rw [placed, List.append_nil], .inl rfl⟩
  | case2 cursor c rest same blank ih =>
    have moved : cursor.position.after c = placeAfter (before ++ [c]) := by
      rw [placed, placeAfter_append_singleton]
    obtain ⟨gap, behind, trivia, ahead, place, left⟩ := ih moved
    refine ⟨c :: gap, behind, .blank blank trivia, ?_, ?_, left⟩
    · rw [same, List.cons_append, ← ahead]
    · rw [place, List.append_assoc, List.singleton_append]
  | case3 cursor c rest same blank slashes ih =>
    obtain ⟨rfl, slash⟩ := slashes
    obtain ⟨tail, rfl⟩ := List.head?_eq_some_iff.mp slash
    cases found : Cursor.afterLineFeed? cursor.ahead with
    | none =>
      have oneLine := not_mem_of_afterLineFeed? found
      rw [skipLine_last found, skipTrivia]
      refine ⟨[], _, .nil, rfl, by rw [placed, List.append_nil], .inr ⟨.inr ⟨tail, ?_, same⟩, rfl⟩⟩
      intro member
      rw [same] at oneLine
      exact oneLine (List.mem_cons_of_mem _ (List.mem_cons_of_mem _ member))
    | some later =>
      have dropped := skipLine_next found
      obtain ⟨line, oneLine, split⟩ := afterLineFeed?_split found
      rw [same] at split
      obtain ⟨body, rfl⟩ := comment_line split
      have bodyLine : '\n' ∉ body := fun member =>
        oneLine (List.mem_cons_of_mem _ (List.mem_cons_of_mem _ member))
      have moved : cursor.skipLine.position =
          placeAfter (before ++ ('/' :: '/' :: body ++ ['\n'])) := by
        rw [placeAfter_lineFeed oneLine, dropped, placed]
      rw [dropped] at ih moved ⊢
      obtain ⟨gap, behind, trivia, ahead, place, left⟩ := ih moved
      refine ⟨'/' :: '/' :: (body ++ '\n' :: gap), behind, .comment bodyLine trivia, ?_, ?_, left⟩
      · have ahead : later = gap ++ behind := ahead
        rw [same, split, ahead]
        simp only [List.cons_append, List.append_assoc]
      · rw [place]
        simp
  | case4 cursor c rest same blank slashes =>
    exact ⟨[], _, .nil, rfl, by rw [placed, List.append_nil], .inl rfl⟩

/-- Where skipping trivia stops: behind trivia at the place after them, or at the end of the
text. -/
theorem skipTrivia_gap {cursor : Cursor} {before : List Char}
    (placed : cursor.position = placeAfter before) :
    (∃ gap, Trivia gap ∧ cursor.ahead = gap ++ (skipTrivia cursor).ahead ∧
      (skipTrivia cursor).position = placeAfter (before ++ gap)) ∨
    (FinalTrivia cursor.ahead ∧ (skipTrivia cursor).ahead = []) := by
  obtain ⟨gap, rest, trivia, ahead, place, left | ⟨last, ended⟩⟩ := skipTrivia_stops placed
  · exact .inl ⟨gap, trivia, by rw [left, ahead], place⟩
  · refine .inr ⟨?_, ended⟩
    rw [ahead]
    exact .of_lastComment trivia last

/-- Where skipping trivia stops there is no blank. -/
theorem skipTrivia_not_blank {cursor : Cursor} {first : Char} {rest : List Char}
    (stopped : (skipTrivia cursor).ahead = first :: rest) : isBlank first = false := by
  fun_induction skipTrivia cursor with
  | case1 cursor same => rw [same] at stopped; cases stopped
  | case2 cursor c tail same blank ih => exact ih stopped
  | case3 cursor c tail same blank slashes ih => exact ih stopped
  | case4 cursor c tail same blank slashes =>
    rw [same] at stopped
    obtain ⟨rfl, rfl⟩ := List.cons.inj stopped
    exact Bool.eq_false_iff.mpr blank

end Lexer

/-- The texts that spell a token of a kind with a payload. -/
inductive Spelling : TokenKind → Option String → List Char → Prop where
  /-- A mark or a keyword is written in its one way. -/
  | fixed {kind : TokenKind} {text : String} : kind.spelling? = some text →
    Spelling kind none text.toList
  /-- A name is its payload. -/
  | identifier (name : String) : Spelling .identifier (some name) name.toList
  /-- A number is its payload. -/
  | number (digits : String) : Spelling .number (some digits) digits.toList
  /-- A string stands between two quotes. -/
  | string (content : String) : Spelling .string (some content) ('"' :: (content.toList ++ ['"']))
  /-- A stray character is its payload. -/
  | stray (character : String) : Spelling .invalid (some character) character.toList
  /-- An unterminated string has a quote in front. -/
  | unterminated (content : String) : Spelling .invalid (some content) ('"' :: content.toList)

/-- What begins a name continues one as well. -/
theorem isNamePart_of_nameStart {c : Char} (start : isNameStart c = true) :
    isNamePart c = true := by
  rw [isNamePart, start, Bool.true_or]

namespace Lexeme

/-- What a lexeme covers is a spelling of its token. -/
theorem written_spelling (lexeme : Lexeme) :
    Spelling lexeme.kind lexeme.payload? lexeme.written := by
  cases lexeme with
  | mark sign => exact .fixed rfl
  | keyword word => exact .fixed rfl
  | identifier name => exact .identifier name
  | number digits => exact .number digits
  | string content => exact .string content
  | unterminated content => exact .unterminated content
  | stray character =>
    have single : character.toString.toList = [character] := String.toList_singleton character
    have spelled := Spelling.stray character.toString
    rwa [single] at spelled

/-- The table of marks agrees with how they are written. -/
theorem markStart?_spelling {first : Char} {single : Mark} {longer : List (Char × Mark)}
    (started : markStart? first = some (single, longer)) :
    single.spelling.toList = [first] ∧
      ∀ both ∈ longer, both.2.spelling.toList = [first, both.1] := by
  unfold markStart? at started
  split at started <;> cases started <;> decide

/-- A mark is written as the text in which it was found. -/
theorem scanMark?_written {first : Char} {rest tail : List Char} {sign : Mark}
    (found : scanMark? first rest = some (sign, tail)) :
    first :: rest = sign.spelling.toList ++ tail := by
  obtain ⟨⟨single, longer⟩, started, made⟩ := Option.map_eq_some_iff.mp found
  obtain ⟨alone, together⟩ := markStart?_spelling started
  change extendMark single longer rest = (sign, tail) at made
  unfold extendMark at made
  split at made
  · cases made
    rw [alone, List.append_nil]
  · next c rest =>
    split at made
    · next both known =>
      cases made
      obtain ⟨before, after, rfl, _⟩ := List.lookup_eq_some_iff.mp known
      rw [together (c, sign) (List.mem_append_right _ List.mem_cons_self)]
      rfl
    · cases made
      rw [alone]
      rfl

/-- No mark and no keyword goes over a line end. -/
theorem spelling_oneLine {kind : TokenKind} {text : String} (spelled : kind.spelling? = some text) :
    '\n' ∉ text.toList := by
  cases kind with
  | mark sign =>
    cases spelled
    cases sign <;> decide
  | keyword word =>
    cases spelled
    cases word <;> decide
  | invalid | identifier | number | string => cases spelled

/-- Characters of a class without line feeds stand on one line. -/
theorem takeWhile_oneLine {p : Char → Bool} (feed : p '\n' = false) (text : List Char) :
    '\n' ∉ text.takeWhile p := by
  intro member
  have satisfied := List.mem_takeWhile_imp member
  rw [feed] at satisfied
  cases satisfied

/-- A character that belongs to a class without line feeds, and those of the class behind it. -/
theorem run_oneLine {p : Char → Bool} {first : Char} (belongs : p first = true)
    (feed : p '\n' = false) (text : List Char) : '\n' ∉ first :: text.takeWhile p := by
  rw [List.mem_cons, not_or]
  refine ⟨?_, takeWhile_oneLine feed text⟩
  rintro rfl
  rw [feed] at belongs
  cases belongs

/-- A word is written as it is read, whether it is reserved or not. -/
theorem ofWord_written (word : String) : (ofWord word).written = word.toList := by
  unfold ofWord
  split
  · next reserved known =>
    have spelled := List.find?_some known
    rw [written, eq_of_beq spelled]
  · rfl

/-- A lexeme covers the front of the text from which it was read, and stays on its line. -/
theorem scan_written {first : Char} (notBlank : isBlank first = false) (rest : List Char) :
    first :: rest = (scan first rest).1.written ++ (scan first rest).2 ∧
      '\n' ∉ (scan first rest).1.written := by
  unfold scan
  split
  · next sign tail found =>
    have spelled : (TokenKind.mark sign).spelling? = some sign.spelling := rfl
    exact ⟨scanMark?_written found, spelling_oneLine spelled⟩
  · split
    · next quote =>
      subst quote
      have covered := List.takeWhile_append_dropWhile (p := isStringPart) (l := rest)
      have oneLine := takeWhile_oneLine (p := isStringPart) (by decide) rest
      unfold scanString
      simp only
      split
      · next tail same =>
        rw [same] at covered
        simp only [written, String.toList_ofList, List.cons_append, List.append_assoc]
        constructor
        · rw [List.nil_append, covered]
        · simpa using oneLine
      · simp only [written, String.toList_ofList]
        constructor
        · rw [List.cons_append, covered]
        · simpa using oneLine
    · split
      · next digit =>
        simp only [written, String.toList_ofList]
        refine ⟨?_, run_oneLine digit (by decide) rest⟩
        rw [List.cons_append, List.takeWhile_append_dropWhile]
      · split
        · next start =>
          have part := isNamePart_of_nameStart start
          simp only [ofWord_written, String.toList_ofList]
          refine ⟨?_, run_oneLine part (by decide) rest⟩
          rw [List.cons_append, List.takeWhile_append_dropWhile]
        · refine ⟨rfl, ?_⟩
          simp only [written, List.mem_singleton]
          rintro rfl
          cases notBlank

end Lexeme

/-- Nothing is wrong with a valid token. -/
theorem Token.problem?_valid {token : Token} (valid : token.kind ≠ .invalid) :
    token.problem? = none := by
  obtain ⟨lexeme, start⟩ := token
  cases lexeme with
  | unterminated _ | stray _ => exact absurd rfl valid
  | _ => rfl

/-- A token with the trivia before it and the text that spells it. -/
structure Piece where
  /-- The trivia between the token before and this one. -/
  gap : List Char
  /-- The token. -/
  token : Token
  /-- How the token is written. -/
  spelling : List Char

namespace Piece

/-- The part of the text that belongs to the piece. -/
def text (piece : Piece) : List Char := piece.gap ++ piece.spelling

/-- The piece is what stands behind the given text. -/
structure Stands (piece : Piece) (before : List Char) : Prop where
  /-- Only trivia stand before the token. -/
  gap : Trivia piece.gap
  /-- The spelling is one of the token. -/
  spelled : Spelling piece.token.kind piece.token.lexeme.payload? piece.spelling
  /-- The token stands on one line. -/
  oneLine : '\n' ∉ piece.spelling
  /-- The token is as wide as its spelling has codepoints. -/
  width : piece.token.width = piece.spelling.length
  /-- The token starts where its spelling starts. -/
  start : piece.token.start = placeAfter (before ++ piece.gap)

end Piece

namespace Lexer

/-- The next token stands behind trivia, and the cursor moves right behind it. -/
theorem next?_stands {cursor later : Cursor} {token : Token} {before : List Char}
    (placed : cursor.position = placeAfter before) (found : next? cursor = some (token, later)) :
    ∃ piece : Piece, piece.token = token ∧ piece.Stands before ∧
      cursor.ahead = piece.text ++ later.ahead ∧
      later.position = placeAfter (before ++ piece.text) := by
  unfold next? at found
  simp only at found
  split at found
  · cases found
  · next first rest same =>
    cases found
    obtain ⟨gap, trivia, ahead, place⟩ | ⟨_, ended⟩ := skipTrivia_gap placed
    · obtain ⟨covered, oneLine⟩ := Lexeme.scan_written (skipTrivia_not_blank same) rest
      refine ⟨⟨gap, _, (Lexeme.scan first rest).1.written⟩, rfl, ?_, ?_, ?_⟩
      · exact ⟨trivia, Lexeme.written_spelling _, oneLine, rfl, place⟩
      · rw [ahead, same, covered, Piece.text, List.append_assoc]
      · rw [Piece.text, ← List.append_assoc, placeAfter_append oneLine, place]
        rfl
    · rw [same] at ended
      cases ended

/-- When no token is left only trivia are, and skipping them stops before a last comment. -/
theorem next?_none {cursor : Cursor} {before : List Char}
    (placed : cursor.position = placeAfter before) (ended : next? cursor = none) :
    ∃ gap comment, Trivia gap ∧ LastComment comment ∧ cursor.ahead = gap ++ comment ∧
      (skipTrivia cursor).position = placeAfter (before ++ gap) := by
  obtain ⟨gap, rest, trivia, ahead, place, left⟩ := skipTrivia_stops placed
  refine ⟨gap, rest, trivia, ?_, ahead, place⟩
  unfold next? at ended
  simp only at ended
  split at ended
  · next same =>
    rw [same] at left
    exact left.elim (fun none => .inl none.symm) And.left
  · cases ended

/-- Tokens found before stay in front of those that are found from a cursor on. -/
theorem collect_eq (found : Array Token) (cursor : Cursor) :
    (collect found cursor).1.toList = found.toList ++ (run cursor).1 ∧
      (collect found cursor).2 = (run cursor).2 := by
  have whole : ∀ found, (collect found cursor).1.toList =
      found.toList ++ (collect #[] cursor).1.toList ∧
        (collect found cursor).2 = (collect #[] cursor).2 := by
    induction remaining : cursor.ahead.length using Nat.strongRecOn generalizing cursor with
    | _ remaining ih =>
      intro found
      rw [collect, collect]
      split
      · simp
      · next token later step =>
        have shorter := next?_length step
        rw [remaining] at shorter
        have further := ih _ shorter later rfl
        rw [(further (found.push token)).1, (further (found.push token)).2,
          (further (#[].push token)).1, (further (#[].push token)).2]
        simp
  exact whole found

/-- A run is the next token and the run behind it. -/
theorem run_eq (cursor : Cursor) :
    run cursor = match next? cursor with
      | none => ([], skipTrivia cursor)
      | some (token, later) => (token :: (run later).1, (run later).2) := by
  have opened : run cursor = ((collect #[] cursor).1.toList, (collect #[] cursor).2) := rfl
  rw [opened, collect]
  split
  · next ended => rw [ended]
  · next token later step =>
    rw [step, (collect_eq _ later).1, (collect_eq _ later).2]
    rfl

/-- The pieces behind a text, and the trivia that are left. The run ends behind the last of them, but
before a last comment. -/
theorem run_pieces {cursor : Cursor} {before : List Char}
    (placed : cursor.position = placeAfter before) :
    ∃ (pieces : List Piece) (gap comment : List Char), pieces.map Piece.token = (run cursor).1 ∧
      cursor.ahead = pieces.flatMap Piece.text ++ (gap ++ comment) ∧
      Trivia gap ∧ LastComment comment ∧
      (run cursor).2.position = placeAfter (before ++ (pieces.flatMap Piece.text ++ gap)) ∧
      ∀ earlier piece later, pieces = earlier ++ piece :: later →
        piece.Stands (before ++ earlier.flatMap Piece.text) := by
  induction remaining : cursor.ahead.length using Nat.strongRecOn generalizing cursor before with
  | _ remaining ih =>
    rw [run_eq]
    cases step : next? cursor with
    | none =>
      obtain ⟨gap, comment, trivia, last, ahead, place⟩ := next?_none placed step
      refine ⟨[], gap, comment, rfl, ahead, trivia, last, place, ?_⟩
      intro earlier piece later split
      cases earlier <;> cases split
    | some found =>
      obtain ⟨token, later⟩ := found
      have shorter := next?_length step
      rw [remaining] at shorter
      obtain ⟨piece, rfl, stands, ahead, place⟩ := next?_stands placed step
      obtain ⟨pieces, gap, comment, tokens, covered, trivia, last, stop, rest⟩ :=
        ih _ shorter place rfl
      refine ⟨piece :: pieces, gap, comment, by rw [List.map_cons, tokens], ?_, trivia, last, ?_, ?_⟩
      · rw [ahead, covered, List.flatMap_cons, List.append_assoc]
      · rw [List.flatMap_cons, List.append_assoc, ← List.append_assoc]
        exact stop
      · intro earlier other behind split
        cases earlier with
        | nil =>
          cases split
          rw [List.flatMap_nil, List.append_nil]
          exact stands
        | cons first earlier =>
          cases split
          rw [List.flatMap_cons, ← List.append_assoc]
          exact rest earlier other behind rfl

end Lexer

/-- Lexing loses nothing: a source is the spellings of its tokens with trivia around them, and every
token has the width of its spelling and starts at the place where the spelling stands. -/
theorem tokens_cover_source (source : Source) :
    ∃ (pieces : List Piece) (last : List Char),
      pieces.map Piece.token = source.tokenStream.tokens ∧
      source.content.toList = pieces.flatMap Piece.text ++ last ∧ FinalTrivia last ∧
      ∀ earlier piece later, pieces = earlier ++ piece :: later →
        piece.Stands (earlier.flatMap Piece.text) := by
  have placed : (Cursor.start source).position = placeAfter [] := rfl
  obtain ⟨pieces, gap, comment, tokens, covered, trivia, last, _, stands⟩ := Lexer.run_pieces placed
  exact ⟨pieces, gap ++ comment, tokens, covered, .of_lastComment trivia last, stands⟩

end Cascade
