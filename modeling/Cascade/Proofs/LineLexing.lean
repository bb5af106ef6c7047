import Cascade.Proofs.LongestLexeme
import Mathlib.Algebra.Group.Nat.Defs
import Mathlib.Data.List.Basic

/-!
# Lines are lexed one by one

No lexeme goes over a line end and no comment does, so nothing that was read on a line matters on
the next one: the tokens of a text are those of its lines, each line lexed as a text of its own.
Carriage returns before a line feed belong to the line end and are no part of any token.
-/
namespace Cascade

/-- A text without a line feed is one line. -/
theorem splitLines_oneLine {text : List Char} (oneLine : '\n' ∉ text) :
    splitLines text = [text] := by
  induction text with
  | nil => rfl
  | cons c text ih =>
    obtain ⟨feed, rest⟩ := not_or.mp (mt List.mem_cons.mpr oneLine)
    rw [splitLines_cons, ih rest, consLines_cons (Ne.symm feed)]

/-- The first line feed ends the first line. -/
theorem splitLines_lineFeed {body : List Char} (oneLine : '\n' ∉ body) (rest : List Char) :
    splitLines (body ++ '\n' :: rest) = (body ++ ['\n']) :: splitLines rest := by
  induction body with
  | nil => rw [List.nil_append, splitLines_cons, consLines_lineFeed, List.nil_append]
  | cons c body ih =>
    obtain ⟨feed, others⟩ := not_or.mp (mt List.mem_cons.mpr oneLine)
    rw [List.cons_append, splitLines_cons, ih others, consLines_cons (Ne.symm feed),
      List.cons_append]

/-- What holds of the last line of a text, and of a text with a line in front if it holds of the
text, holds of every text. -/
theorem lines_induction {holds : List Char → Prop} (last : ∀ text, '\n' ∉ text → holds text)
    (line : ∀ body rest, '\n' ∉ body → holds rest → holds (body ++ '\n' :: rest))
    (text : List Char) : holds text := by
  induction remaining : text.length using Nat.strongRecOn generalizing text with
  | _ remaining ih =>
    cases found : Cursor.afterLineFeed? text with
    | none => exact last text (not_mem_of_afterLineFeed? found)
    | some rest =>
      have shorter := Cursor.afterLineFeed?_length found
      obtain ⟨body, oneLine, rfl⟩ := afterLineFeed?_split found
      exact line body rest oneLine (ih _ (by omega) rest rfl)

/-- A run of a class ends before a character that is not of the class. -/
theorem run_stop {p : Char → Bool} {c : Char} (stops : p c = false) (text rest : List Char) :
    (text ++ c :: rest).takeWhile p = text.takeWhile p ∧
      (text ++ c :: rest).dropWhile p = text.dropWhile p ++ c :: rest := by
  induction text with
  | nil => simp [stops]
  | cons first text ih =>
    by_cases belongs : p first = true
    · simp [belongs, ih]
    · simp [belongs]

/-- A class without line breaks has none of them. -/
theorem stops_of_lineBreak {p : Char → Bool} (feed : p '\n' = false) (carriage : p '\r' = false)
    {c : Char} (breaks : isLineBreak c = true) : p c = false := by
  have either : c = '\n' ∨ c = '\r' := by simpa [isLineBreak] using breaks
  rcases either with rfl | rfl
  · exact feed
  · exact carriage

namespace Lexeme

/-- No second character of a mark breaks a line. -/
theorem lookup_lineBreak {first c : Char} {single : Mark} {longer : List (Char × Mark)}
    (started : markStart? first = some (single, longer)) (breaks : isLineBreak c = true) :
    longer.lookup c = none := by
  have either : c = '\n' ∨ c = '\r' := by simpa [isLineBreak] using breaks
  unfold markStart? at started
  split at started <;> cases started <;> rcases either with rfl | rfl <;> rfl

/-- The longest mark before a line break is the one that stands there alone. -/
theorem extendMark_lineBreak {first c : Char} {single : Mark} {longer : List (Char × Mark)}
    (started : markStart? first = some (single, longer)) (breaks : isLineBreak c = true)
    (tail rest : List Char) :
    extendMark single longer (tail ++ c :: rest) =
      ((extendMark single longer tail).1, (extendMark single longer tail).2 ++ c :: rest) := by
  cases tail with
  | nil =>
    have none := lookup_lineBreak started breaks
    simp [extendMark, none]
  | cons second tail =>
    simp only [List.cons_append, extendMark]
    cases longer.lookup second <;> rfl

/-- A lexeme ends before a line break, and what stands behind the break does not matter. -/
theorem scan_lineBreak (first : Char) {c : Char} (breaks : isLineBreak c = true)
    (tail rest : List Char) :
    scan first (tail ++ c :: rest) = ((scan first tail).1, (scan first tail).2 ++ c :: rest) := by
  have string := run_stop (stops_of_lineBreak (p := isStringPart) rfl rfl breaks) tail rest
  have digits := run_stop (stops_of_lineBreak (p := isDigit) rfl rfl breaks) tail rest
  have word := run_stop (stops_of_lineBreak (p := isNamePart) rfl rfl breaks) tail rest
  have noQuote : c ≠ '"' := by rintro rfl; cases breaks
  cases started : markStart? first with
  | some mark =>
    obtain ⟨single, longer⟩ := mark
    simp only [scan, scanMark?, started, Option.map_some,
      extendMark_lineBreak started breaks tail rest]
  | none =>
    simp only [scan, scanMark?, started, Option.map_none, digits, word]
    by_cases quote : first = '"'
    · simp only [if_pos quote, scanString, string]
      cases tail.dropWhile isStringPart with
      | nil =>
        rw [List.nil_append]
        split
        · next same => cases same; exact absurd rfl noQuote
        · rfl
      | cons next tail =>
        rw [List.cons_append]
        split
        · next same => cases same; rfl
        · next other =>
          split
          · next same => cases same; exact absurd rfl (other _)
          · rfl
    · simp only [if_neg quote]
      by_cases digit : isDigit first = true
      · simp only [if_pos digit]
      · simp only [if_neg digit]
        by_cases start : isNameStart first = true
        · simp only [if_pos start]
        · simp only [if_neg start]

end Lexeme

/-- The cursor with more text behind what it had ahead. -/
def Cursor.followedBy (cursor : Cursor) (behind : List Char) : Cursor :=
  ⟨cursor.ahead ++ behind, cursor.position⟩

/-- The start of the line after the one of the position. -/
def Position.nextLine (place : Position) : Position := ⟨place.line + 1, 1⟩

namespace Lexer

/-- A line end is skipped, with the carriage returns before its line feed. -/
theorem skipTrivia_lineEnd {returns : List Char} (carriage : ∀ c ∈ returns, c = '\r')
    (rest : List Char) (place : Position) :
    skipTrivia ⟨returns ++ '\n' :: rest, place⟩ = skipTrivia ⟨rest, place.nextLine⟩ := by
  induction returns generalizing place with
  | nil => rw [List.nil_append, skipTrivia_blank rfl, Position.after, if_pos rfl]; rfl
  | cons c returns ih =>
    obtain ⟨rfl, others⟩ := List.forall_mem_cons.mp carriage
    rw [List.cons_append, skipTrivia_blank rfl, ih others]
    rfl

/-- Where there is no line feed ahead, all that is ahead is skipped with the line. -/
theorem skipLine_oneLine {cursor : Cursor} (oneLine : '\n' ∉ cursor.ahead) :
    cursor.skipLine = ⟨[], cursor.position⟩ := by
  have missing := afterLineFeed?_append oneLine []
  rw [List.append_nil] at missing
  exact skipLine_last missing

/-- Where skipping trivia stops a part of the text is ahead. -/
theorem skipTrivia_suffix (cursor : Cursor) : (skipTrivia cursor).ahead <:+ cursor.ahead := by
  fun_induction skipTrivia cursor with
  | case1 => exact List.suffix_refl _
  | case2 cursor c rest same _ ih =>
    rw [same]
    exact ih.trans (List.suffix_cons c rest)
  | case3 cursor c rest same _ _ ih =>
    refine ih.trans ?_
    unfold Cursor.skipLine
    split
    · next later found =>
      obtain ⟨line, _, split⟩ := afterLineFeed?_split found
      rw [split]
      exact (List.suffix_cons _ _).trans (List.suffix_append _ _)
    · exact List.nil_suffix
  | case4 => exact List.suffix_refl _

/-- Skipping trivia on one line stays on the line. -/
theorem skipTrivia_sameLine {cursor : Cursor} (oneLine : '\n' ∉ cursor.ahead) :
    (skipTrivia cursor).position.line = cursor.position.line := by
  fun_induction skipTrivia cursor with
  | case1 => rfl
  | case2 cursor c rest same _ ih =>
    rw [same] at oneLine
    obtain ⟨feed, others⟩ := not_or.mp (mt List.mem_cons.mpr oneLine)
    rw [ih others, Position.after, if_neg (Ne.symm feed)]
  | case3 cursor c rest same _ _ ih =>
    have dropped := skipLine_oneLine oneLine
    rw [dropped] at ih ⊢
    exact ih List.not_mem_nil
  | case4 => rfl

/-- What is found depends only on where skipping trivia stops. -/
theorem next?_congr {cursor other : Cursor} (same : skipTrivia cursor = skipTrivia other) :
    next? cursor = next? other := by
  rw [next?, next?, same]

/-- No token is found where skipping trivia stops at the end. -/
theorem next?_ended {cursor : Cursor} {place : Position}
    (stopped : skipTrivia cursor = ⟨[], place⟩) : next? cursor = none := by
  rw [next?, stopped]

/-- A token is found where skipping trivia stops before the end. -/
theorem next?_found {cursor : Cursor} {first : Char} {rest : List Char} {place : Position}
    (stopped : skipTrivia cursor = ⟨first :: rest, place⟩) :
    next? cursor = some (⟨(Lexeme.scan first rest).1, place⟩,
      ⟨(Lexeme.scan first rest).2, place.shift (Lexeme.scan first rest).1.width⟩) := by
  rw [next?, stopped]

/-- Where skipping trivia stops at the end no token is found, and nowhere else. -/
theorem ahead_of_next?_none {cursor : Cursor} (none : next? cursor = none) :
    (skipTrivia cursor).ahead = [] := by
  cases stopped : skipTrivia cursor with
  | mk ahead place =>
    cases ahead with
    | nil => rfl
    | cons first rest => rw [next?_found stopped] at none; cases none

/-- Where trivia are skipped to the same place the same tokens follow. -/
theorem run_congr {cursor other : Cursor} (same : skipTrivia cursor = skipTrivia other) :
    run cursor = run other := by
  rw [run_eq cursor, run_eq other, next?_congr same, same]

section

variable {cursor : Cursor} {returns rest : List Char}

/-- Trivia on a line go on into the next one exactly if they reach the end of the line. -/
theorem skipTrivia_line (oneLine : '\n' ∉ cursor.ahead) (carriage : ∀ c ∈ returns, c = '\r') :
    skipTrivia (cursor.followedBy (returns ++ '\n' :: rest)) =
      if (skipTrivia cursor).ahead = [] then skipTrivia ⟨rest, cursor.position.nextLine⟩
      else (skipTrivia cursor).followedBy (returns ++ '\n' :: rest) := by
  fun_induction skipTrivia cursor with
  | case1 cursor same =>
    rw [if_pos same, Cursor.followedBy, same, List.nil_append, skipTrivia_lineEnd carriage]
  | case2 cursor c tail same blank ih =>
    rw [same] at oneLine
    obtain ⟨feed, others⟩ := not_or.mp (mt List.mem_cons.mpr oneLine)
    have along : (cursor.position.after c).nextLine = cursor.position.nextLine := by
      rw [Position.after, if_neg (Ne.symm feed)]
      rfl
    rw [Cursor.followedBy, same, List.cons_append, skipTrivia_blank blank, ← along]
    exact ih others
  | case3 cursor c tail same blank slashes ih =>
    obtain ⟨rfl, second⟩ := slashes
    have dropped := skipLine_oneLine oneLine
    have ended : (skipTrivia ⟨[], cursor.position⟩).ahead = [] := by rw [skipTrivia]
    have noFeed : '\n' ∉ cursor.ahead ++ returns := by
      rw [List.mem_append, not_or]
      exact ⟨oneLine, fun member => absurd (carriage _ member) (by decide)⟩
    have found : Cursor.afterLineFeed? (cursor.followedBy (returns ++ '\n' :: rest)).ahead =
        some rest := by
      rw [Cursor.followedBy, ← List.append_assoc, afterLineFeed?_append noFeed,
        Cursor.afterLineFeed?, if_pos rfl]
    have skipped : (cursor.followedBy (returns ++ '\n' :: rest)).skipLine =
        ⟨rest, cursor.position.nextLine⟩ := skipLine_next found
    obtain ⟨further, rfl⟩ := List.head?_eq_some_iff.mp second
    rw [dropped, ended, if_pos rfl, ← skipped, Cursor.followedBy, same, List.cons_append,
      List.cons_append, skipTrivia_comment]
  | case4 cursor c tail same blank slashes =>
    have more : cursor.ahead ≠ [] := by rw [same]; exact List.cons_ne_nil c tail
    have noComment : ¬ (c = '/' ∧ (tail ++ (returns ++ '\n' :: rest)).head? = some '/') := by
      rintro ⟨slash, second⟩
      refine slashes ⟨slash, ?_⟩
      cases tail with
      | cons next tail => exact second
      | nil =>
        cases returns with
        | nil => cases second
        | cons first returns =>
          cases second
          exact absurd (carriage '/' List.mem_cons_self) (by decide)
    rw [if_neg more, Cursor.followedBy, same, List.cons_append]
    exact skipTrivia_lexeme (Bool.eq_false_iff.mpr blank) noComment

/-- The next token of a line does not depend on what stands behind the line, and behind the last
one comes the first of the next line. -/
theorem next?_line (oneLine : '\n' ∉ cursor.ahead) (carriage : ∀ c ∈ returns, c = '\r') :
    next? (cursor.followedBy (returns ++ '\n' :: rest)) =
      match next? cursor with
      | none => next? ⟨rest, cursor.position.nextLine⟩
      | some (token, later) => some (token, later.followedBy (returns ++ '\n' :: rest)) := by
  obtain ⟨c, behind, ending, breaks⟩ : ∃ c behind, returns ++ '\n' :: rest = c :: behind ∧
      isLineBreak c = true := by
    cases returns with
    | nil => exact ⟨_, _, rfl, rfl⟩
    | cons c returns => exact ⟨_, _, rfl, by rw [carriage c List.mem_cons_self]; rfl⟩
  have skipped : skipTrivia (cursor.followedBy (returns ++ '\n' :: rest)) = _ :=
    skipTrivia_line oneLine carriage
  rw [ending] at skipped ⊢
  cases stopped : skipTrivia cursor with
  | mk ahead place =>
    rw [stopped] at skipped
    cases ahead with
    | nil =>
      rw [if_pos rfl] at skipped
      rw [next?_ended stopped, next?_congr skipped]
    | cons first tail =>
      rw [if_neg nofun] at skipped
      have further : skipTrivia (cursor.followedBy (c :: behind)) =
          ⟨first :: (tail ++ c :: behind), place⟩ := skipped
      have scanned := Lexeme.scan_lineBreak first breaks tail behind
      rw [next?_found stopped, next?_found further, scanned]
      rfl

end

/-- A token found on one line starts on it, and the cursor behind it is on the line. -/
theorem next?_sameLine {cursor later : Cursor} {token : Token} (oneLine : '\n' ∉ cursor.ahead)
    (found : next? cursor = some (token, later)) :
    token.start.line = cursor.position.line ∧ '\n' ∉ later.ahead ∧
      later.position.line = cursor.position.line := by
  have line := skipTrivia_sameLine oneLine
  have left := (skipTrivia_suffix cursor).subset
  unfold next? at found
  simp only at found
  split at found
  · cases found
  · next first rest same =>
    cases found
    refine ⟨line, fun member => oneLine (left ?_), line⟩
    have covered := (Lexeme.scan_written (skipTrivia_not_blank same) rest).1
    rw [same, covered]
    exact List.mem_append_right _ member

/-- The tokens of a line, and then those of the text behind its line end. -/
theorem run_line (cursor : Cursor) (oneLine : '\n' ∉ cursor.ahead) (returns : List Char)
    (carriage : ∀ c ∈ returns, c = '\r') (rest : List Char) :
    run (cursor.followedBy (returns ++ '\n' :: rest)) =
      ((run cursor).1 ++ (run ⟨rest, cursor.position.nextLine⟩).1,
        (run ⟨rest, cursor.position.nextLine⟩).2) := by
  induction remaining : cursor.ahead.length using Nat.strongRecOn generalizing cursor with
  | _ remaining ih =>
    have next : next? (cursor.followedBy (returns ++ '\n' :: rest)) = _ :=
      next?_line oneLine carriage
    rw [run_eq cursor]
    cases step : next? cursor with
    | none =>
      have skipped : skipTrivia (cursor.followedBy (returns ++ '\n' :: rest)) = _ :=
        skipTrivia_line oneLine carriage
      rw [if_pos (ahead_of_next?_none step)] at skipped
      rw [run_congr skipped, List.nil_append]
    | some found =>
      obtain ⟨token, later⟩ := found
      obtain ⟨_, sameLine, line⟩ := next?_sameLine oneLine step
      have shorter := next?_length step
      have further := ih _ (by omega) later sameLine rfl
      have along : later.position.nextLine = cursor.position.nextLine := by
        simp only [Position.nextLine, line]
      rw [run_eq, next, step]
      simp only [further, along, List.cons_append]

/-- The tokens of one line start on it. -/
theorem run_sameLine {cursor : Cursor} (oneLine : '\n' ∉ cursor.ahead) :
    ∀ token ∈ (run cursor).1, token.start.line = cursor.position.line := by
  induction remaining : cursor.ahead.length using Nat.strongRecOn generalizing cursor with
  | _ remaining ih =>
    rw [run_eq]
    cases step : next? cursor with
    | none => exact nofun
    | some found =>
      obtain ⟨token, later⟩ := found
      obtain ⟨here, sameLine, line⟩ := next?_sameLine oneLine step
      have shorter := next?_length step
      refine List.forall_mem_cons.mpr ⟨here, ?_⟩
      rw [← line]
      exact ih _ (by omega) sameLine rfl

end Lexer

/-- The position so many lines further down. -/
def Position.down (lines : Nat) (place : Position) : Position := ⟨place.line + lines, place.column⟩

/-- The token so many lines further down. -/
def Token.down (lines : Nat) (token : Token) : Token := ⟨token.lexeme, token.start.down lines⟩

/-- The cursor so many lines further down, with the same text ahead. -/
def Cursor.down (lines : Nat) (cursor : Cursor) : Cursor :=
  ⟨cursor.ahead, cursor.position.down lines⟩

/-- A codepoint moves a position the same way further down. -/
theorem Position.after_down (lines : Nat) (place : Position) (c : Char) :
    (place.down lines).after c = (place.after c).down lines := by
  by_cases feed : c = '\n'
  · simp [after, down, feed, Nat.add_right_comm]
  · simp [after, down, feed]

/-- Dropping the rest of a line does the same further down. -/
theorem Cursor.skipLine_down (lines : Nat) (cursor : Cursor) :
    (cursor.down lines).skipLine = cursor.skipLine.down lines := by
  have ahead : (cursor.down lines).ahead = cursor.ahead := rfl
  unfold skipLine
  rw [ahead]
  split
  · simp [down, Position.down, Nat.add_right_comm]
  · rfl

namespace Lexer

/-- The same trivia are skipped further down. -/
theorem skipTrivia_down (lines : Nat) (cursor : Cursor) :
    skipTrivia (cursor.down lines) = (skipTrivia cursor).down lines := by
  fun_induction skipTrivia cursor with
  | case1 cursor same => rw [Cursor.down, same, skipTrivia_nil]
  | case2 cursor c rest same blank ih =>
    rw [Cursor.down, same, skipTrivia_blank blank, Position.after_down]
    exact ih
  | case3 cursor c rest same blank slashes ih =>
    obtain ⟨rfl, second⟩ := slashes
    obtain ⟨further, rfl⟩ := List.head?_eq_some_iff.mp second
    rw [← ih, ← Cursor.skipLine_down, Cursor.down, same, skipTrivia_comment]
  | case4 cursor c rest same blank slashes =>
    rw [Cursor.down, same]
    exact skipTrivia_lexeme (Bool.eq_false_iff.mpr blank) slashes

/-- The same token is found further down. -/
theorem next?_down (lines : Nat) (cursor : Cursor) :
    next? (cursor.down lines) =
      (next? cursor).map fun found => (found.1.down lines, found.2.down lines) := by
  have skipped := skipTrivia_down lines cursor
  cases stopped : skipTrivia cursor with
  | mk ahead place =>
    rw [stopped] at skipped
    cases ahead with
    | nil => rw [next?_ended stopped, next?_ended skipped, Option.map_none]
    | cons first rest => rw [next?_found stopped, next?_found skipped]; rfl

/-- The same tokens are found further down. -/
theorem run_down (lines : Nat) (cursor : Cursor) :
    run (cursor.down lines) =
      ((run cursor).1.map (Token.down lines), (run cursor).2.down lines) := by
  induction remaining : cursor.ahead.length using Nat.strongRecOn generalizing cursor with
  | _ remaining ih =>
    rw [run_eq cursor, run_eq, next?_down]
    cases step : next? cursor with
    | none => simp only [Option.map_none, skipTrivia_down, List.map_nil]
    | some found =>
      obtain ⟨token, later⟩ := found
      have shorter := next?_length step
      have further := ih _ (by omega) later rfl
      simp only [Option.map_some, further, List.map_cons]

end Lexer

/-- The position with its line replaced if it is the first. -/
def Position.onLine (number : Nat) (place : Position) : Position :=
  if place.line = 1 then ⟨number, place.column⟩ else place

/-- The token with the first line replaced. -/
def Token.onLine (number : Nat) (token : Token) : Token :=
  ⟨token.lexeme, token.start.onLine number⟩

/-- The diagnostic with the first line replaced. -/
def Diagnostic.onLine (number : Nat) (diagnostic : Diagnostic) : Diagnostic :=
  { diagnostic with span := ⟨diagnostic.span.start.onLine number, diagnostic.span.length⟩ }

/-- From the first line a token moves down to a line as if its line was replaced. -/
theorem Token.down_eq_onLine {token : Token} (first : token.start.line = 1) (lines : Nat) :
    token.down lines = token.onLine (lines + 1) := by
  have place : token.start.down lines = token.start.onLine (lines + 1) := by
    rw [Position.down, Position.onLine, if_pos first, first, Nat.add_comm]
  rw [Token.down, Token.onLine, place]

/-- What is wrong with a token does not depend on where it stands. -/
theorem Token.problem?_onLine (number : Nat) (token : Token) :
    (token.onLine number).problem? = token.problem?.map (Diagnostic.onLine number) := by
  obtain ⟨lexeme, start⟩ := token
  cases lexeme with
  | unterminated content => rfl
  | stray character =>
    simp only [Token.problem?, Token.onLine, Lexeme.problem?]
    by_cases ascii : character.toNat < 128
    · rw [if_pos ascii, if_pos ascii]
      rfl
    · rw [if_neg ascii, if_neg ascii]
      by_cases begins : Text.isIdentifierStart character = true
      · rw [if_pos begins, if_pos begins]
        rfl
      · rw [if_neg begins, if_neg begins]
        rfl
  | _ => rfl

namespace Lexer

/-- A line is lexed further down as it is lexed as a text of its own, with or without its line
feed. -/
theorem run_body {body : List Char} (oneLine : '\n' ∉ body) (lines : Nat) :
    (run ⟨body, ⟨lines + 1, 1⟩⟩).1 = (run (.ofChars body)).1.map (Token.onLine (lines + 1)) ∧
      (run (.ofChars (body ++ ['\n']))).1 = (run (.ofChars body)).1 := by
  constructor
  · have moved := run_down lines (.ofChars body)
    have place : (Cursor.ofChars body).down lines = ⟨body, ⟨lines + 1, 1⟩⟩ := by
      simp [Cursor.down, Cursor.ofChars, Position.down, Position.first, Nat.add_comm]
    rw [place] at moved
    rw [moved]
    refine List.map_congr_left fun token member => ?_
    have alone : '\n' ∉ (Cursor.ofChars body).ahead := oneLine
    have first : token.start.line = 1 := run_sameLine alone token member
    exact Token.down_eq_onLine first lines
  · have feed : '\n' ∉ (Cursor.ofChars body).ahead := oneLine
    have line := run_line (.ofChars body) feed [] nofun []
    have whole : (Cursor.ofChars body).followedBy ([] ++ ['\n']) = .ofChars (body ++ ['\n']) := rfl
    have nothing : (run ⟨[], (Cursor.ofChars body).position.nextLine⟩).1 = [] := by
      rw [run_eq, next?_ended (skipTrivia_nil _)]
    rw [whole, nothing, List.append_nil] at line
    rw [line]

/-- The tokens of a text are those of its lines, each on its line. -/
theorem run_lines (text : List Char) (lines : Nat) :
    (run ⟨text, ⟨lines + 1, 1⟩⟩).1 = ((splitLines text).zipIdx (lines + 1)).flatMap
      fun line => (run (.ofChars line.1)).1.map (Token.onLine line.2) := by
  induction text using lines_induction generalizing lines with
  | last text oneLine =>
    rw [splitLines_oneLine oneLine, List.zipIdx_singleton, List.flatMap_singleton]
    exact (run_body oneLine lines).1
  | line body rest oneLine ih =>
    obtain ⟨below, alone⟩ := run_body oneLine lines
    have line := run_line ⟨body, ⟨lines + 1, 1⟩⟩ oneLine [] nofun rest
    have whole : Cursor.followedBy ⟨body, ⟨lines + 1, 1⟩⟩ ([] ++ '\n' :: rest) =
        ⟨body ++ '\n' :: rest, ⟨lines + 1, 1⟩⟩ := rfl
    have next : Position.nextLine ⟨lines + 1, 1⟩ = ⟨lines + 1 + 1, 1⟩ := rfl
    rw [whole, next] at line
    rw [line, splitLines_lineFeed oneLine, List.zipIdx_cons, List.flatMap_cons, alone, below,
      ih (lines + 1)]

end Lexer

namespace Source

/-- A line of a source is found under its number. -/
theorem lineAt?_eq_some {source : Source} {index : Nat} {text : String} :
    source.lineAt? (index + 1) = some text ↔ source.lines[index]? = some text.toList := by
  rw [lineAt?, Option.map_eq_some_iff]
  constructor
  · rintro ⟨line, found, rfl⟩
    rw [found, String.toList_ofList]
  · intro found
    exact ⟨text.toList, found, String.ofList_toList⟩

/-- Fewer than 2^32 lines are all counted. -/
theorem lineCount_eq {source : Source} (few : source.lines.length < 2 ^ 32) :
    source.lineCount = source.lines.length := Nat.mod_eq_of_lt few

/-- Where all lines are counted, every line that is there is given out. -/
theorem line_of_few {source : Source} {number : Nat} {text : String}
    (few : source.lines.length < 2 ^ 32) (found : source.lineAt? number = some text) :
    source.line number = .ok text := by
  cases number with
  | zero => cases found
  | succ index =>
    obtain ⟨inside, _⟩ := List.getElem?_eq_some_iff.mp (lineAt?_eq_some.mp found)
    have counted : index + 1 ≤ source.lineCount := (lineCount_eq few).symm ▸ inside
    rw [line, if_pos counted, found]

/-- The tokens of a source are those of the sources that hold its lines, each on its line. -/
theorem tokens_eq_lines {source : Source} {alone : Nat → Source}
    (separate : ∀ number, 1 ≤ number → number ≤ source.lines.length →
      source.lineAt? number = some (alone number).content) :
    source.tokenStream.tokens = (List.range' 1 source.lines.length).flatMap
      fun number => (alone number).tokenStream.tokens.map (Token.onLine number) := by
  have tokens : source.tokenStream.tokens = (source.lines.zipIdx 1).flatMap
      fun line => (Lexer.run (.ofChars line.1)).1.map (Token.onLine line.2) :=
    Lexer.run_lines source.chars 0
  have numbers : List.range' 1 source.lines.length = (source.lines.zipIdx 1).map Prod.snd :=
    (List.zipIdx_map_snd 1 source.lines).symm
  rw [tokens, numbers, List.flatMap_map]
  refine List.flatMap_congr fun line member => ?_
  obtain ⟨lower, there⟩ := List.mk_mem_zipIdx_iff_le_and_getElem?_sub.mp member
  obtain ⟨index, place⟩ := Nat.exists_eq_add_of_le' lower
  rw [place, Nat.add_sub_cancel] at there
  obtain ⟨inside, _⟩ := List.getElem?_eq_some_iff.mp there
  have found := separate (index + 1) (Nat.le_add_left ..) inside
  rw [lineAt?_eq_some, there] at found
  rw [place, Option.some.inj found]
  rfl

end Source

/-- Lexing is local to lines: the tokens of a source and what is wrong with them are those of the
sources that hold one line each, one after the other, with the number of the line in place of the
first. As long as there are fewer than 2^32 lines they are the lines that the source counts and gives
out. -/
theorem lexing_is_line_local (source : Source) (alone : Nat → Source)
    (separate : ∀ number, 1 ≤ number → number ≤ source.lines.length →
      source.lineAt? number = some (alone number).content) :
    source.tokenStream.tokens = (List.range' 1 source.lines.length).flatMap
        (fun number => (alone number).tokenStream.tokens.map (Token.onLine number)) ∧
      source.tokenStream.problems = (List.range' 1 source.lines.length).flatMap
        (fun number => (alone number).tokenStream.problems.map (Diagnostic.onLine number)) ∧
      (source.lines.length < 2 ^ 32 → source.lineCount = source.lines.length ∧
        ∀ number, 1 ≤ number → number ≤ source.lineCount →
          source.line number = .ok (alone number).content) := by
  have tokens := Source.tokens_eq_lines separate
  refine ⟨tokens, ?_, fun few => ⟨Source.lineCount_eq few, fun number lower upper => ?_⟩⟩
  case refine_2 =>
    rw [Source.lineCount_eq few] at upper
    exact Source.line_of_few few (separate number lower upper)
  rw [TokenStream.problems, tokens, List.filterMap_flatMap]
  refine List.flatMap_congr fun number _ => ?_
  rw [TokenStream.problems, List.filterMap_map, List.map_filterMap]
  exact List.filterMap_congr fun token _ => token.problem?_onLine number

/-- A string that a carriage return cuts, comments, a line without tokens and a stray character on a
last line without a line feed are lexed line by line. -/
theorem lexing_of_cut_strings_is_line_local :
    (∀ number, 1 ≤ number →
      number ≤ (⟨0, "cut.sb", "a \"b\r\n// c\r\n\nd - é"⟩ : Source).lines.length →
      (⟨0, "cut.sb", "a \"b\r\n// c\r\n\nd - é"⟩ : Source).lineAt? number =
        some ((["", "a \"b\r\n", "// c\r\n", "\n", "d - é"] : List String).getD number "")) ∧
    (⟨0, "cut.sb", "a \"b\r\n// c\r\n\nd - é"⟩ : Source).tokenStream.problems.length = 2 ∧
    (⟨0, "cut.sb", "a \"b\r\n// c\r\n\nd - é"⟩ : Source).tokenStream.problems =
      (List.range' 1 4).flatMap fun number =>
        (⟨number, "alone.sb",
          (["", "a \"b\r\n", "// c\r\n", "\n", "d - é"] : List String).getD number ""⟩ :
            Source).tokenStream.problems.map (Diagnostic.onLine number) := by
  have separate : ∀ number, 1 ≤ number →
      number ≤ (⟨0, "cut.sb", "a \"b\r\n// c\r\n\nd - é"⟩ : Source).lines.length →
      (⟨0, "cut.sb", "a \"b\r\n// c\r\n\nd - é"⟩ : Source).lineAt? number =
        some ((["", "a \"b\r\n", "// c\r\n", "\n", "d - é"] : List String).getD number "") := by
    intro number lower upper
    have counted : (⟨0, "cut.sb", "a \"b\r\n// c\r\n\nd - é"⟩ : Source).lines.length = 4 := by
      decide +kernel
    rw [counted] at upper
    match number, lower, upper with
    | 1, _, _ | 2, _, _ | 3, _, _ | 4, _, _ => rfl
  refine ⟨separate, by decide +kernel, ?_⟩
  exact (lexing_is_line_local _ (fun number => ⟨number, "alone.sb",
    (["", "a \"b\r\n", "// c\r\n", "\n", "d - é"] : List String).getD number ""⟩) separate).2.1

end Cascade
