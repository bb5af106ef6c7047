import Cascade.Machine
import Cascade.Proofs.LineLexing
import Cascade.Proofs.Reports
import Cascade.Proofs.SpelledText
import Mathlib.Data.List.Forall2

/-!
# Malformed text

Read from left to right a text falls into comments, strings, strings that the end of their line cuts
off, and bare characters. That tells what is wrong with the text without a look at its tokens: every
string that is cut off, every bare character beyond ASCII, and every bare ASCII character that is no
blank and begins no lexeme. The lexer reports just this, each once, at the invalid token that it
makes of it, and reads on behind.

Main definitions:

* `stretches`, the comments, strings and bare characters of a text;
* `faults`, what is wrong with them.
-/
namespace Cascade

/-- A stretch of a text. Comments and strings hide what stands in them. -/
inductive Stretch where
  /-- Two slashes and the rest of their line, without its line feed. -/
  | comment (body : List Char)
  /-- The text between two quotes. -/
  | string (content : List Char)
  /-- A quote and the rest of its line, in which it is not closed. -/
  | cut (content : List Char)
  /-- Any other character. -/
  | bare (c : Char)
  deriving DecidableEq, Repr

namespace Stretch

/-- The text of the stretch. -/
def text : Stretch → List Char
  | .comment body => '/' :: '/' :: body
  | .string content => '"' :: (content ++ ['"'])
  | .cut content => '"' :: content
  | .bare c => [c]

/-- The stretch at the front of a text, and what stands behind it. -/
def split (first : Char) (rest : List Char) : Stretch × List Char :=
  if first = '"' then
    match rest.dropWhile isStringPart with
    | '"' :: behind => (.string (rest.takeWhile isStringPart), behind)
    | behind => (.cut (rest.takeWhile isStringPart), behind)
  else if first = '/' ∧ rest.head? = some '/' then
    (.comment (rest.tail.takeWhile (· ≠ '\n')), rest.tail.dropWhile (· ≠ '\n'))
  else (.bare first, rest)

/-- A string is a stretch if it is closed. -/
theorem split_string {rest behind : List Char}
    (closed : rest.dropWhile isStringPart = '"' :: behind) :
    split '"' rest = (.string (rest.takeWhile isStringPart), behind) := by
  rw [split, if_pos rfl, closed]
  rfl

/-- A string that is not closed is cut off. -/
theorem split_cut {rest : List Char} (unclosed : ∀ tail, rest.dropWhile isStringPart ≠ '"' :: tail) :
    split '"' rest = (.cut (rest.takeWhile isStringPart), rest.dropWhile isStringPart) := by
  rw [split, if_pos rfl]
  split
  · next behind closed => exact absurd closed (unclosed behind)
  · rfl

/-- Two slashes open a comment. -/
theorem split_slashes (rest : List Char) : split '/' ('/' :: rest) =
    (.comment (rest.takeWhile (· ≠ '\n')), rest.dropWhile (· ≠ '\n')) := by
  rw [split, if_neg (by decide), if_pos ⟨rfl, rfl⟩]
  rfl

/-- A comment ends before a line feed, and at the end of the text. -/
theorem split_comment {body rest : List Char} (oneLine : '\n' ∉ body)
    (ends : ∀ c ∈ rest.head?, c = '\n') :
    split '/' ('/' :: (body ++ rest)) = (.comment body, rest) := by
  have stays : ∀ c ∈ body, decide (c ≠ '\n') = true := by
    intro c member
    rw [decide_eq_true_eq]
    rintro rfl
    exact oneLine member
  have stops : ∀ c ∈ rest.head?, decide (c ≠ '\n') = false := by
    intro c first
    rw [ends c first]
    rfl
  obtain ⟨taken, left⟩ := run_ends stays stops
  rw [split_slashes, taken, left]

/-- Any other character is bare. -/
theorem split_bare {first : Char} {rest : List Char} (noQuote : first ≠ '"')
    (noComment : ¬ (first = '/' ∧ rest.head? = some '/')) :
    split first rest = (.bare first, rest) := by
  rw [split, if_neg noQuote, if_neg noComment]

/-- A text is its first stretch and what stands behind it. -/
theorem split_text (first : Char) (rest : List Char) :
    (split first rest).1.text ++ (split first rest).2 = first :: rest := by
  by_cases quote : first = '"'
  · subst quote
    have covered := List.takeWhile_append_dropWhile (p := isStringPart) (l := rest)
    by_cases closed : ∃ behind, rest.dropWhile isStringPart = '"' :: behind
    · obtain ⟨behind, closed⟩ := closed
      rw [closed] at covered
      rw [split_string closed, text, List.cons_append, List.append_assoc, List.singleton_append,
        covered]
    · have unclosed := not_exists.mp closed
      rw [split_cut unclosed, text, List.cons_append, covered]
  · by_cases comment : first = '/' ∧ rest.head? = some '/'
    · obtain ⟨rfl, second⟩ := comment
      obtain ⟨tail, rfl⟩ := List.head?_eq_some_iff.mp second
      rw [split_slashes, text, List.cons_append, List.cons_append, List.takeWhile_append_dropWhile]
    · rw [split_bare quote comment, text, List.singleton_append]

/-- What stands behind the first stretch is shorter than the text. -/
theorem split_length (first : Char) (rest : List Char) :
    (split first rest).2.length < (first :: rest).length := by
  have whole := congrArg List.length (split_text first rest)
  have some : (split first rest).1.text.length ≠ 0 := by
    rw [Ne, List.length_eq_zero_iff]
    cases (split first rest).1 <;> exact List.cons_ne_nil _ _
  rw [List.length_append] at whole
  omega

end Stretch

/-- The stretches of a text from left to right. -/
def stretches : List Char → List Stretch
  | [] => []
  | first :: rest => (Stretch.split first rest).1 :: stretches (Stretch.split first rest).2
termination_by text => text.length
decreasing_by exact Stretch.split_length first rest

/-- A lexeme may begin with the character. -/
def BeginsLexeme (c : Char) : Prop := ∃ others kind, IsLexeme (c :: others) kind

/-- Lexemes begin with marks, with quotes, with digits and with what begins a name. -/
theorem beginsLexeme_iff {c : Char} : BeginsLexeme c ↔
    Lexeme.markStart? c ≠ none ∨ c = '"' ∨ isDigit c = true ∨ isNameStart c = true := by
  constructor
  · rintro ⟨others, kind, lexeme⟩
    have begins := (lexeme.begins_of_prefix (List.prefix_refl (c :: others))).1
    cases kind with
    | mark _ => exact .inl begins
    | number => exact .inr (.inr (.inl begins))
    | keyword _ | identifier => exact .inr (.inr (.inr begins))
    | string => exact .inr (.inl begins)
    | invalid => exact begins.elim
  · rintro (marks | rfl | digit | start)
    · obtain ⟨⟨single, longer⟩, started⟩ := Option.ne_none_iff_exists'.mp marks
      have spelled := (Lexeme.markStart?_spelling started).1
      have lexeme := IsLexeme.mark single
      rw [spelled] at lexeme
      exact ⟨_, _, lexeme⟩
    · exact ⟨['"'], .string, .string (List.forall_mem_nil _)⟩
    · refine ⟨[], .number, .number (List.cons_ne_nil _ _) ?_⟩
      exact List.forall_mem_singleton.mpr digit
    · exact ⟨[], _, Lexeme.ofWord_isLexeme start (List.forall_mem_nil _)⟩

/-- Whether a lexeme may begin with a character can be looked up. -/
instance : DecidablePred BeginsLexeme := fun _ => decidable_of_iff' _ beginsLexeme_iff

/-- The number of what is wrong with a stretch. -/
def Stretch.fault? : Stretch → Option Nat
  | .comment _ | .string _ => none
  | .cut _ => some 1003
  | .bare c =>
    if 128 ≤ c.toNat then some 1001
    else if isBlank c = true ∨ BeginsLexeme c then none
    else some 1002

/-- What is wrong with stretches that stand behind a text: a number and the columns it is about. -/
def faults (before : List Char) : List Stretch → List (Nat × Span)
  | [] => []
  | stretch :: later =>
    (stretch.fault?.map fun code =>
        (code, (placeAfter before).span stretch.text.length)).toList ++
      faults (before ++ stretch.text) later

/-- What is wrong with a text that stands behind another. -/
def faultsBehind (before text : List Char) : List (Nat × Span) := faults before (stretches text)

/-- What is wrong with a text is wrong with its first stretch or behind it. -/
theorem faultsBehind_cons {before : List Char} {first : Char} {rest behind : List Char}
    {stretch : Stretch} (split : Stretch.split first rest = (stretch, behind)) :
    faultsBehind before (first :: rest) =
      (stretch.fault?.map fun code =>
          (code, (placeAfter before).span stretch.text.length)).toList ++
        faultsBehind (before ++ stretch.text) behind := by
  rw [faultsBehind, stretches, split]
  rfl

/-- Behind a stretch with which nothing is wrong everything is as it was. -/
theorem faultsBehind_stretch {before : List Char} {first : Char} {rest behind : List Char}
    {stretch : Stretch} (split : Stretch.split first rest = (stretch, behind))
    (well : stretch.fault? = none) :
    faultsBehind before (first :: rest) = faultsBehind (before ++ stretch.text) behind := by
  rw [faultsBehind_cons split, well]
  rfl

/-- The character opens neither a string nor a comment, and nothing is wrong with it. -/
def Harmless (c : Char) : Prop := c ≠ '"' ∧ c ≠ '/' ∧ (Stretch.bare c).fault? = none

/-- Whether a character is harmless can be looked up. -/
instance : DecidablePred Harmless := fun _ => inferInstanceAs (Decidable (_ ∧ _ ∧ _))

/-- Nothing is wrong with a run of harmless characters. -/
theorem faultsBehind_harmless {run : List Char} (harmless : ∀ c ∈ run, Harmless c)
    (before rest : List Char) :
    faultsBehind before (run ++ rest) = faultsBehind (before ++ run) rest := by
  induction run generalizing before with
  | nil => rw [List.append_nil, List.nil_append]
  | cons c run ih =>
    obtain ⟨first, others⟩ := List.forall_mem_cons.mp harmless
    obtain ⟨noQuote, noSlash, well⟩ := first
    have bare : Stretch.split c (run ++ rest) = (.bare c, run ++ rest) :=
      Stretch.split_bare noQuote fun comment => noSlash comment.1
    rw [List.cons_append, faultsBehind_stretch bare well, ih others, Stretch.text,
      List.append_assoc, List.singleton_append]

/-- Blanks are harmless. -/
theorem harmless_of_blank : ∀ {c : Char}, isBlank c = true → Harmless c := by
  intro c blank
  exact of_isBlank (by decide) (by decide) (by decide) (by decide) c blank

/-- What continues a name is ASCII. -/
theorem toNat_lt_of_namePart {c : Char} (part : isNamePart c = true) : c.toNat < 128 := by
  simp only [isNamePart, isNameStart, isDigit, Bool.or_eq_true, Bool.and_eq_true,
    decide_eq_true_eq, Char.le_def, UInt32.le_iff_toNat_le] at part
  have value : c.toNat = c.val.toNat := rfl
  obtain ((lower | upper) | rfl) | digit := part
  · have bound : c.val.toNat ≤ 122 := lower.2
    omega
  · have bound : c.val.toNat ≤ 90 := upper.2
    omega
  · decide
  · have bound : c.val.toNat ≤ 57 := digit.2
    omega

/-- What continues a name is harmless. -/
theorem harmless_of_namePart {c : Char} (part : isNamePart c = true) : Harmless c := by
  obtain ⟨notBlank, noSlash⟩ := Lexeme.begins_no_trivia part
  have noQuote : c ≠ '"' := by
    rintro rfl
    cases part
  have begins : BeginsLexeme c := by
    rw [beginsLexeme_iff]
    obtain start | digit := Bool.or_eq_true_iff.mp part
    · exact .inr (.inr (.inr start))
    · exact .inr (.inr (.inl digit))
  have ascii : ¬ 128 ≤ c.toNat := Nat.not_le.mpr (toNat_lt_of_namePart part)
  refine ⟨noQuote, noSlash, ?_⟩
  rw [Stretch.fault?, if_neg ascii, if_pos (.inr begins)]

/-- Nothing is wrong with a run of a class of characters that continue names. -/
theorem faultsBehind_run {p : Char → Bool} (parts : ∀ c, p c = true → isNamePart c = true)
    {first : Char} (belongs : p first = true) (before rest : List Char) :
    faultsBehind before (first :: rest) =
      faultsBehind (before ++ first :: rest.takeWhile p) (rest.dropWhile p) := by
  have harmless : ∀ c ∈ first :: rest.takeWhile p, Harmless c := by
    rw [List.forall_mem_cons]
    refine ⟨harmless_of_namePart (parts first belongs), fun c member => ?_⟩
    exact harmless_of_namePart (parts c (List.mem_takeWhile_imp member))
  have run := faultsBehind_harmless harmless before (rest.dropWhile p)
  rwa [List.cons_append, List.takeWhile_append_dropWhile] at run

/-- The characters of all marks but the slash are harmless. -/
theorem harmless_of_mark {sign : Mark} (noSlash : sign ≠ .slash) :
    ∀ c ∈ sign.spelling.toList, Harmless c := by
  have all : (sign.spelling.toList.all fun c => decide (Harmless c)) = true := by
    cases sign with
    | slash => exact absurd rfl noSlash
    | _ => decide
  intro c member
  exact of_decide_eq_true (List.all_eq_true.mp all c member)

/-- Nothing is wrong with trivia. -/
theorem faultsBehind_trivia {gap : List Char} (trivia : Trivia gap) (before rest : List Char) :
    faultsBehind before (gap ++ rest) = faultsBehind (before ++ gap) rest := by
  induction trivia generalizing before with
  | nil => rw [List.append_nil, List.nil_append]
  | @blank c gap blank _ ih =>
    have harmless : ∀ d ∈ [c], Harmless d :=
      List.forall_mem_singleton.mpr (harmless_of_blank blank)
    have front := faultsBehind_harmless harmless before (gap ++ rest)
    rw [List.singleton_append] at front
    rw [List.cons_append, front, ih, List.append_assoc, List.singleton_append]
  | @comment body gap oneLine _ ih =>
    have ends : ∀ c ∈ ('\n' :: (gap ++ rest)).head?, c = '\n' := by
      intro c first
      cases first
      rfl
    have comment := Stretch.split_comment oneLine ends
    have feed : ∀ d ∈ ['\n'], Harmless d := List.forall_mem_singleton.mpr (harmless_of_blank rfl)
    have front := faultsBehind_harmless feed (before ++ '/' :: '/' :: body) (gap ++ rest)
    rw [List.singleton_append] at front
    have whole : '/' :: '/' :: (body ++ '\n' :: gap) ++ rest =
        '/' :: '/' :: (body ++ '\n' :: (gap ++ rest)) := by simp
    rw [whole, faultsBehind_stretch comment rfl, Stretch.text, front, ih]
    simp

/-- Nothing is wrong with a last comment. -/
theorem faultsBehind_lastComment {comment : List Char} (last : LastComment comment)
    (before : List Char) : faultsBehind before comment = [] := by
  obtain rfl | ⟨body, oneLine, rfl⟩ := last
  · rw [faultsBehind, stretches]
    rfl
  · have ends : ∀ c ∈ ([] : List Char).head?, c = '\n' := nofun
    have comment := Stretch.split_comment oneLine ends
    rw [List.append_nil] at comment
    rw [faultsBehind_stretch comment rfl, faultsBehind, stretches]
    rfl

/-- What a diagnostic is about: its number and its columns. -/
def Diagnostic.about (report : Diagnostic) : Nat × Span := (report.code, report.span)

/-- A problem of a token is about the columns of the token. -/
theorem Token.problem?_span {token : Token} {report : Diagnostic}
    (problem : token.problem? = some report) : report.span = token.span := by
  obtain ⟨lexeme, start⟩ := token
  cases lexeme with
  | unterminated content =>
    cases problem
    show start.span (content.length + 1) = start.span ('"' :: content.toList).length
    rw [List.length_cons, String.length_toList]
  | stray character =>
    unfold problem? Lexeme.problem? at problem
    dsimp only at problem
    split at problem
    · cases problem
      rfl
    · split at problem <;> cases problem <;> rfl
  | _ => cases problem

namespace Lexeme

/-- What is wrong with a stray character is its number and its one column. -/
theorem problem?_stray (c : Char) (start : Position) :
    ((stray c).problem? start).map Diagnostic.about =
      some (if 128 ≤ c.toNat then 1001 else 1002, start.span 1) := by
  unfold problem?
  dsimp only
  by_cases ascii : c.toNat < 128
  · rw [if_pos ascii, if_neg (Nat.not_le.mpr ascii)]
    rfl
  · rw [if_neg ascii, if_pos (Nat.not_lt.mp ascii)]
    split <;> rfl

/-- What is wrong with a string that is cut off is its number and all its columns. -/
theorem problem?_unterminated (content : List Char) (start : Position) :
    ((unterminated (String.ofList content)).problem? start).map Diagnostic.about =
      some (1003, start.span (Stretch.cut content).text.length) := by
  rw [Stretch.text, List.length_cons, ← String.length_ofList]
  rfl

/-- What is wrong with the text is what is wrong with the lexeme that was read from its front, or it
stands behind that lexeme. -/
def Accounts (before text : List Char) (lexeme : Lexeme) (behind : List Char) : Prop :=
  faultsBehind before text =
    ((lexeme.problem? (placeAfter before)).map Diagnostic.about).toList ++
      faultsBehind (before ++ lexeme.written) behind

variable {first : Char} {rest : List Char}

/-- A mark accounts for itself: only the slash could open anything, which it does not here. -/
theorem accounts_mark {sign : Mark} {tail : List Char}
    (found : scanMark? first rest = some (sign, tail))
    (noComment : ¬ (first = '/' ∧ rest.head? = some '/')) (before : List Char) :
    Accounts before (first :: rest) (.mark sign) tail := by
  have covered := scanMark?_written found
  by_cases slash : sign = .slash
  · subst slash
    obtain ⟨rfl, rfl⟩ := List.cons.inj covered
    have bare : Stretch.split '/' rest = (.bare '/', rest) :=
      Stretch.split_bare (by decide) noComment
    exact faultsBehind_stretch bare (by decide)
  · rw [covered]
    exact faultsBehind_harmless (harmless_of_mark slash) before tail

/-- A string accounts for itself, closed or not. -/
theorem accounts_string (before rest : List Char) :
    Accounts before ('"' :: rest) (scanString rest).1 (scanString rest).2 := by
  unfold scanString
  dsimp only
  split
  · next tail closed =>
    simp only [Accounts, written, String.toList_ofList]
    exact faultsBehind_stretch (Stretch.split_string closed) rfl
  · next unclosed =>
    simp only [Accounts, written, String.toList_ofList, problem?_unterminated]
    exact faultsBehind_cons (Stretch.split_cut unclosed)

/-- A number accounts for its digits. -/
theorem accounts_number (digit : isDigit first = true) (before rest : List Char) :
    Accounts before (first :: rest) (.number (String.ofList (first :: rest.takeWhile isDigit)))
      (rest.dropWhile isDigit) := by
  have parts : ∀ c, isDigit c = true → isNamePart c = true :=
    fun c digit => Bool.or_eq_true_iff.mpr (.inr digit)
  simp only [Accounts, written, String.toList_ofList]
  exact faultsBehind_run parts digit before rest

/-- A word accounts for itself, whether it is a name or a keyword. -/
theorem accounts_word (start : isNameStart first = true) (before rest : List Char) :
    Accounts before (first :: rest) (ofWord (String.ofList (first :: rest.takeWhile isNamePart)))
      (rest.dropWhile isNamePart) := by
  have run := faultsBehind_run (fun _ part => part) (isNamePart_of_nameStart start) before rest
  have well : (ofWord (String.ofList (first :: rest.takeWhile isNamePart))).problem?
      (placeAfter before) = none := by
    unfold ofWord
    split <;> rfl
  rw [Accounts, well, ofWord_written, String.toList_ofList]
  exact run

/-- A bare character that is no blank and begins no lexeme is wrong, and so is its lexeme. -/
theorem accounts_stray (bare : Stretch.split first rest = (.bare first, rest))
    (notBlank : isBlank first = false) (begins : ¬ BeginsLexeme first) (before : List Char) :
    Accounts before (first :: rest) (.stray first) rest := by
  have harmful : ¬ (isBlank first = true ∨ BeginsLexeme first) := by
    rw [notBlank]
    exact not_or.mpr ⟨Bool.false_ne_true, begins⟩
  rw [Accounts, faultsBehind_cons bare, problem?_stray, Stretch.fault?, if_neg harmful]
  by_cases ascii : 128 ≤ first.toNat
  · rw [if_pos ascii, if_pos ascii]
    rfl
  · rw [if_neg ascii, if_neg ascii]
    rfl

/-- Whatever lexeme is read from the front of a text accounts for it. -/
theorem accounts_scan (notBlank : isBlank first = false)
    (noComment : ¬ (first = '/' ∧ rest.head? = some '/')) (before : List Char) :
    Accounts before (first :: rest) (scan first rest).1 (scan first rest).2 := by
  unfold scan
  split
  · next sign tail found => exact accounts_mark found noComment before
  · next noMark =>
    by_cases quote : first = '"'
    · rw [if_pos quote, quote]
      exact accounts_string before rest
    · rw [if_neg quote]
      by_cases digit : isDigit first = true
      · rw [if_pos digit]
        exact accounts_number digit before rest
      · rw [if_neg digit]
        by_cases start : isNameStart first = true
        · rw [if_pos start]
          exact accounts_word start before rest
        · rw [if_neg start]
          have begins : ¬ BeginsLexeme first := by
            rw [beginsLexeme_iff]
            rintro (mark | string | number | name)
            · exact mark (Option.map_eq_none_iff.mp noMark)
            · exact quote string
            · exact digit number
            · exact start name
          exact accounts_stray (Stretch.split_bare quote noComment) notBlank begins before

end Lexeme

namespace Lexer

/-- Where skipping trivia stops there is no comment. -/
theorem skipTrivia_no_comment {cursor : Cursor} {first : Char} {rest : List Char}
    (stopped : (skipTrivia cursor).ahead = first :: rest) :
    ¬ (first = '/' ∧ rest.head? = some '/') := by
  fun_induction skipTrivia cursor with
  | case1 cursor same => rw [same] at stopped; cases stopped
  | case2 _ _ _ _ _ ih => exact ih stopped
  | case3 _ _ _ _ _ _ ih => exact ih stopped
  | case4 cursor c tail same _ slashes =>
    rw [same] at stopped
    obtain ⟨rfl, rfl⟩ := List.cons.inj stopped
    exact slashes

/-- What is wrong with the text before the next token and with the token itself is what is reported
of the token. -/
theorem faultsBehind_next? {cursor later : Cursor} {token : Token} {before : List Char}
    (placed : cursor.position = placeAfter before) (found : next? cursor = some (token, later)) :
    ∃ used, later.position = placeAfter (before ++ used) ∧
      faultsBehind before cursor.ahead = (token.problem?.map Diagnostic.about).toList ++
        faultsBehind (before ++ used) later.ahead := by
  cases stopped : skipTrivia cursor with
  | mk ahead place =>
    cases ahead with
    | nil => rw [next?_ended stopped] at found; cases found
    | cons first rest =>
      rw [next?_found stopped] at found
      cases found
      have ahead : (skipTrivia cursor).ahead = first :: rest := congrArg Cursor.ahead stopped
      obtain ⟨gap, trivia, whole, here⟩ | ⟨_, ended⟩ := skipTrivia_gap placed
      · have notBlank := skipTrivia_not_blank ahead
        have oneLine := (Lexeme.scan_written notBlank rest).2
        have scanned := Lexeme.accounts_scan notBlank (skipTrivia_no_comment ahead)
          (before ++ gap)
        rw [stopped] at here
        have here : place = placeAfter (before ++ gap) := here
        refine ⟨gap ++ (Lexeme.scan first rest).1.written, ?_, ?_⟩
        · rw [← List.append_assoc, placeAfter_append oneLine, ← here]
          rfl
        · rw [Lexeme.Accounts] at scanned
          rw [whole, ahead, faultsBehind_trivia trivia, scanned, ← List.append_assoc, ← here]
          rfl
      · rw [ahead] at ended
        cases ended

/-- What is wrong with the text ahead is what is reported of its tokens. -/
theorem faultsBehind_run {cursor : Cursor} {before : List Char}
    (placed : cursor.position = placeAfter before) :
    faultsBehind before cursor.ahead =
      ((run cursor).1.filterMap Token.problem?).map Diagnostic.about := by
  induction size : cursor.ahead.length using Nat.strongRecOn generalizing cursor before with
  | _ bound ih =>
    rw [run_eq]
    cases step : next? cursor with
    | none =>
      obtain ⟨gap, comment, trivia, last, ahead, _⟩ := next?_none placed step
      rw [ahead, faultsBehind_trivia trivia, faultsBehind_lastComment last]
      rfl
    | some found =>
      obtain ⟨token, later⟩ := found
      have shorter := next?_length step
      rw [size] at shorter
      obtain ⟨used, place, split⟩ := faultsBehind_next? placed step
      rw [split, ih _ shorter place rfl]
      dsimp only
      cases problem : token.problem? with
      | none => rw [List.filterMap_cons_none problem]; rfl
      | some report => rw [List.filterMap_cons_some problem]; rfl

end Lexer

namespace Machine

end Machine

end Cascade
