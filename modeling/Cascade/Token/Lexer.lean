import Cascade.Cursor
import Cascade.Token.Lexeme

/-!
# Lexing

Between tokens the lexer skips trivia: blanks, line ends and comments, which run from two slashes to
the end of their line. At every other place it reads the longest lexeme that starts there. Outside
string literals and comments lexemes are ASCII; any other character is a stray one. A string ends at
the next double quote of its line and is unterminated when there is none.

Main definitions:

* `Lexeme.scan`, the lexeme at the front of a text;
* `Lexer.next?`, the next token of a cursor;
* `Lexer.run`, all tokens from a cursor on, with the cursor at which they end.
-/
namespace Cascade

/-- Blanks and line ends, which separate tokens. -/
def isBlank (c : Char) : Bool := c = ' ' || c = '\t' || c = '\n' || c = '\r'

/-- The characters that end the line of a string literal. -/
def isLineBreak (c : Char) : Bool := c = '\n' || c = '\r'

/-- The decimal digits. -/
def isDigit (c : Char) : Bool := '0' ≤ c && c ≤ '9'

/-- The ASCII letters and the underscore, which begin names. -/
def isNameStart (c : Char) : Bool :=
  ('a' ≤ c && c ≤ 'z') || ('A' ≤ c && c ≤ 'Z') || c = '_'

/-- The characters that continue names. -/
def isNamePart (c : Char) : Bool := isNameStart c || isDigit c

/-- The characters that may stand between the quotes of a string literal. -/
def isStringPart (c : Char) : Bool := c ≠ '"' && !isLineBreak c

namespace Lexeme

/-- The mark a character is on its own, with the second characters that make a longer one. -/
def markStart? : Char → Option (Mark × List (Char × Mark))
  | '(' => some (.openParen, [])
  | ')' => some (.closeParen, [])
  | '[' => some (.openBracket, [])
  | ']' => some (.closeBracket, [])
  | '\x7b' => some (.openBrace, [])
  | '\x7d' => some (.closeBrace, [])
  | ',' => some (.comma, [])
  | ':' => some (.colon, [])
  | ';' => some (.semicolon, [])
  | '?' => some (.question, [])
  | '~' => some (.tilde, [])
  | '%' => some (.percent, [])
  | '&' => some (.ampersand, [])
  | '|' => some (.bar, [])
  | '^' => some (.caret, [])
  | '/' => some (.slash, [])
  | '.' => some (.dot, [('.', .dotDot)])
  | '+' => some (.plus, [('+', .plusPlus)])
  | '*' => some (.star, [('*', .starStar)])
  | '-' => some (.minus, [('>', .arrow)])
  | '=' => some (.equal, [('=', .equalEqual)])
  | '!' => some (.bang, [('=', .bangEqual)])
  | '<' => some (.less, [('=', .lessEqual), ('<', .lessLess)])
  | '>' => some (.greater, [('=', .greaterEqual), ('>', .greaterGreater)])
  | _ => none

/-- The longer mark if one of its second characters follows, else the mark on its own. -/
def extendMark (single : Mark) (longer : List (Char × Mark)) : List Char → Mark × List Char
  | [] => (single, [])
  | c :: rest =>
    match longer.lookup c with
    | some both => (both, rest)
    | none => (single, c :: rest)

/-- The longest mark that starts with the character. -/
def scanMark? (first : Char) (rest : List Char) : Option (Mark × List Char) :=
  (markStart? first).map fun (single, longer) => extendMark single longer rest

/-- The string literal after an opening quote. -/
def scanString (rest : List Char) : Lexeme × List Char :=
  let content := String.ofList (rest.takeWhile isStringPart)
  match rest.dropWhile isStringPart with
  | '"' :: tail => (.string content, tail)
  | tail => (.unterminated content, tail)

/-- The keyword or the name a word is. -/
def ofWord (word : String) : Lexeme :=
  match Keyword.ofSpelling? word with
  | some reserved => .keyword reserved
  | none => .identifier word

/-- The longest lexeme at the front of a text, and the text after it. -/
def scan (first : Char) (rest : List Char) : Lexeme × List Char :=
  match scanMark? first rest with
  | some (sign, tail) => (.mark sign, tail)
  | none =>
    if first = '"' then scanString rest
    else if isDigit first then
      (.number (String.ofList (first :: rest.takeWhile isDigit)), rest.dropWhile isDigit)
    else if isNameStart first then
      (ofWord (String.ofList (first :: rest.takeWhile isNamePart)), rest.dropWhile isNamePart)
    else (.stray first, rest)

/-- What follows a mark is no longer than what follows its first character. -/
theorem extendMark_length (single : Mark) (longer : List (Char × Mark)) (rest : List Char) :
    (extendMark single longer rest).2.length ≤ rest.length := by
  unfold extendMark
  split
  · simp
  · split <;> simp

/-- What remains after a run is no longer than what there was. -/
theorem dropWhile_length_le (p : Char → Bool) (text : List Char) :
    (text.dropWhile p).length ≤ text.length :=
  (List.dropWhile_suffix p).length_le

/-- What follows a lexeme is shorter than the text it starts. -/
theorem scan_length (first : Char) (rest : List Char) :
    (scan first rest).2.length ≤ rest.length := by
  unfold scan
  split
  · next sign tail found =>
    obtain ⟨⟨single, longer⟩, _, made⟩ := Option.map_eq_some_iff.mp found
    have shorter := extendMark_length single longer rest
    rw [show extendMark single longer rest = (sign, tail) from made] at shorter
    exact shorter
  · split
    · unfold scanString
      have shorter := dropWhile_length_le isStringPart rest
      simp only
      split
      · next tail same => simp [same] at shorter; simp; omega
      · exact shorter
    · split
      · exact dropWhile_length_le _ _
      · split
        · exact dropWhile_length_le _ _
        · simp

end Lexeme

namespace Lexer

/-- Moves past blanks, line ends and comments. -/
def skipTrivia (cursor : Cursor) : Cursor :=
  match _same : cursor.ahead with
  | [] => cursor
  | c :: rest =>
    if isBlank c then skipTrivia ⟨rest, cursor.position.after c⟩
    else if c = '/' ∧ rest.head? = some '/' then skipTrivia cursor.skipLine
    else cursor
termination_by cursor.ahead.length
decreasing_by
  · simp [_same]
  · exact Cursor.skipLine_length (by simp [_same])

/-- Skipping trivia never goes back. -/
theorem skipTrivia_length (cursor : Cursor) :
    (skipTrivia cursor).ahead.length ≤ cursor.ahead.length := by
  fun_induction skipTrivia cursor with
  | case1 => exact Nat.le_refl _
  | case2 cursor c rest same _ ih => simp only [same, List.length_cons] at ih ⊢; omega
  | case3 cursor c rest same _ _ ih =>
    exact Nat.le_trans ih (Nat.le_of_lt (Cursor.skipLine_length (by simp [same])))
  | case4 => exact Nat.le_refl _

/-- The next token and the cursor right after it; none when only trivia remain. -/
def next? (cursor : Cursor) : Option (Token × Cursor) :=
  let here := skipTrivia cursor
  match here.ahead with
  | [] => none
  | first :: rest =>
    let found := Lexeme.scan first rest
    some (⟨found.1, here.position⟩, ⟨found.2, here.position.shift found.1.width⟩)

/-- Every token uses up at least one codepoint. -/
theorem next?_length {cursor later : Cursor} {token : Token}
    (found : next? cursor = some (token, later)) :
    later.ahead.length < cursor.ahead.length := by
  have skipped := skipTrivia_length cursor
  unfold next? at found
  simp only at found
  split at found
  · cases found
  · next first rest same =>
    cases found
    have := Lexeme.scan_length first rest
    simp only [same, List.length_cons] at skipped
    simp only
    omega

/-- The tokens from a cursor on after those found before, and the cursor past the last trivia. -/
def collect (found : Array Token) (cursor : Cursor) : Array Token × Cursor :=
  match _same : next? cursor with
  | none => (found, skipTrivia cursor)
  | some (token, later) => collect (found.push token) later
termination_by cursor.ahead.length
decreasing_by exact next?_length _same

/-- All tokens from a cursor on, and the cursor past the last trivia. -/
def run (cursor : Cursor) : List Token × Cursor :=
  let (found, final) := collect #[] cursor
  (found.toList, final)

end Lexer

/-- The tokens of a source and the position at which it ends. -/
structure TokenStream where
  /-- The tokens in order. -/
  tokens : List Token
  /-- The position past the last token and the last trivia. -/
  stop : Position
  deriving DecidableEq, Repr

/-- The tokens of a source. -/
def Source.tokenStream (source : Source) : TokenStream :=
  let (tokens, final) := Lexer.run (.start source)
  ⟨tokens, final.position⟩

/-- What is wrong with the tokens, in order. -/
def TokenStream.problems (stream : TokenStream) : List Diagnostic :=
  stream.tokens.filterMap Token.problem?

end Cascade
