import Cascade.Proofs.Lexer

/-!
# The longest lexeme

Which texts are lexemes is told here by their shape alone: the spellings of marks, runs of digits,
words, and texts between quotes. Where a token starts it covers the longest lexeme that the rest of
the line begins with. Where the line begins with none the token is invalid: it covers a string up to
the end of its line, or one codepoint.
-/
namespace Cascade

/-- The texts that are lexemes, each with the kind of token it makes. -/
inductive IsLexeme : List Char → TokenKind → Prop where
  /-- A mark is its spelling. -/
  | mark (sign : Mark) : IsLexeme sign.spelling.toList (.mark sign)
  /-- A number is a run of digits. -/
  | number {digits : List Char} : digits ≠ [] → (∀ c ∈ digits, isDigit c = true) →
    IsLexeme digits .number
  /-- A keyword is a word that cannot be a name. -/
  | keyword (word : Keyword) : IsLexeme word.spelling.toList (.keyword word)
  /-- Every other word is a name. -/
  | identifier {first : Char} {others : List Char} : isNameStart first = true →
    (∀ c ∈ others, isNamePart c = true) →
    (∀ word : Keyword, word.spelling.toList ≠ first :: others) →
    IsLexeme (first :: others) .identifier
  /-- A string stands between two quotes on one line. -/
  | string {content : List Char} : (∀ c ∈ content, isStringPart c = true) →
    IsLexeme ('"' :: (content ++ ['"'])) .string

/-- A lexeme of the kind may begin with the character. -/
def TokenKind.BeginsWith (first : Char) : TokenKind → Prop
  | .mark _ => Lexeme.markStart? first ≠ none
  | .number => isDigit first = true
  | .keyword _ | .identifier => isNameStart first = true
  | .string => first = '"'
  | .invalid => False

/-- No digit begins a name. -/
theorem not_isDigit_of_nameStart {c : Char} (start : isNameStart c = true) : isDigit c = false := by
  rw [Bool.eq_false_iff]
  intro digit
  simp only [isDigit, Bool.and_eq_true, decide_eq_true_eq, Char.le_def] at digit
  simp only [isNameStart, Bool.or_eq_true, Bool.and_eq_true, decide_eq_true_eq,
    Char.le_def] at start
  obtain (lower | upper) | rfl := start
  · exact absurd (UInt32.le_trans lower.1 digit.2) (by decide)
  · exact absurd (UInt32.le_trans upper.1 digit.2) (by decide)
  · exact absurd digit.2 (by decide)

namespace Lexeme

/-- No digit begins a mark. -/
theorem markStart?_digit {c : Char} (digit : isDigit c = true) : markStart? c = none := by
  unfold markStart?
  split <;> first | rfl | cases digit

/-- No character that begins a name begins a mark. -/
theorem markStart?_nameStart {c : Char} (start : isNameStart c = true) : markStart? c = none := by
  unfold markStart?
  split <;> first | rfl | cases start

/-- The table of marks has every mark: on its own, or under the second of its two characters. -/
theorem markStart?_complete (sign : Mark) :
    ∃ first others, sign.spelling.toList = first :: others ∧
      ∃ single longer, markStart? first = some (single, longer) ∧
        (others = [] ∧ sign = single ∨
          ∃ second, others = [second] ∧ longer.lookup second = some sign) := by
  cases sign <;> refine ⟨_, _, rfl, _, _, rfl, ?_⟩ <;>
    first
    | exact .inl ⟨rfl, rfl⟩
    | exact .inr ⟨_, rfl, rfl⟩

/-- Keywords are words. -/
theorem keyword_word (word : Keyword) :
    ∃ first others, word.spelling.toList = first :: others ∧ isNameStart first = true ∧
      ∀ c ∈ others, isNamePart c = true := by
  cases word <;> exact ⟨_, _, rfl, rfl, List.all_eq_true.mp rfl⟩

end Lexeme

namespace IsLexeme

variable {text rest others : List Char} {first : Char} {kind : TokenKind}

/-- A lexeme begins with a character that lexemes of its kind may begin with. -/
theorem begins (lexeme : IsLexeme text kind) :
    ∃ first others, text = first :: others ∧ kind.BeginsWith first := by
  cases lexeme with
  | mark sign =>
    obtain ⟨first, others, spelled, single, longer, started, _⟩ := Lexeme.markStart?_complete sign
    refine ⟨first, others, spelled, ?_⟩
    rw [TokenKind.BeginsWith, started]
    exact Option.some_ne_none _
  | number some digits =>
    obtain ⟨first, others, rfl⟩ := List.exists_cons_of_ne_nil some
    exact ⟨first, others, rfl, digits first List.mem_cons_self⟩
  | keyword word =>
    obtain ⟨first, others, spelled, start, _⟩ := Lexeme.keyword_word word
    exact ⟨first, others, spelled, start⟩
  | identifier start _ _ => exact ⟨_, _, rfl, start⟩
  | string _ => exact ⟨_, _, rfl, rfl⟩

/-- A lexeme in front of a text begins with the first character of the text. -/
theorem begins_of_prefix (lexeme : IsLexeme text kind) (front : text <+: first :: rest) :
    kind.BeginsWith first ∧ ∃ others, text = first :: others ∧ others <+: rest := by
  obtain ⟨head, others, rfl, begins⟩ := lexeme.begins
  obtain ⟨rfl, behind⟩ := List.cons_prefix_cons.mp front
  exact ⟨begins, others, rfl, behind⟩

/-- No lexeme makes an invalid token. -/
theorem valid (lexeme : IsLexeme text kind) : kind ≠ .invalid := by
  rintro rfl
  cases lexeme

/-- A lexeme stands on one line. -/
theorem oneLine (lexeme : IsLexeme text kind) : '\n' ∉ text := by
  cases lexeme with
  | mark sign => cases sign <;> decide
  | number _ digits =>
    intro member
    exact absurd (digits _ member) (by decide)
  | keyword word => cases word <;> decide
  | identifier start parts _ =>
    intro member
    obtain rfl | later := List.mem_cons.mp member
    · exact absurd start (by decide)
    · exact absurd (parts _ later) (by decide)
  | @string content parts =>
    intro member
    have inside : '\n' ∈ content := by simpa using member
    exact absurd (parts _ inside) (by decide)

/-- What begins with a character that begins marks is a mark. -/
theorem eq_mark (lexeme : IsLexeme text kind) (begins : kind.BeginsWith first)
    (started : Lexeme.markStart? first ≠ none) :
    ∃ sign : Mark, kind = .mark sign ∧ text = sign.spelling.toList := by
  cases lexeme with
  | mark sign => exact ⟨sign, rfl, rfl⟩
  | number _ _ => exact absurd (Lexeme.markStart?_digit begins) started
  | keyword _ => exact absurd (Lexeme.markStart?_nameStart begins) started
  | identifier _ _ _ => exact absurd (Lexeme.markStart?_nameStart begins) started
  | string _ => cases begins; exact absurd rfl started

/-- What begins with a digit is a number. -/
theorem eq_number (lexeme : IsLexeme text kind) (begins : kind.BeginsWith first)
    (digit : isDigit first = true) : ∀ c ∈ text, isDigit c = true := by
  cases lexeme with
  | mark _ => exact absurd (Lexeme.markStart?_digit digit) begins
  | number _ digits => exact digits
  | keyword _ => rw [not_isDigit_of_nameStart begins] at digit; cases digit
  | identifier _ _ _ => rw [not_isDigit_of_nameStart begins] at digit; cases digit
  | string _ => cases begins; cases digit

/-- What begins as a name is a word. -/
theorem eq_word (lexeme : IsLexeme text kind) (begins : kind.BeginsWith first)
    (start : isNameStart first = true) : ∀ c ∈ text, isNamePart c = true := by
  have word : ∀ {first : Char} {others : List Char}, isNameStart first = true →
      (∀ c ∈ others, isNamePart c = true) → ∀ c ∈ first :: others, isNamePart c = true := by
    intro first others start parts
    exact List.forall_mem_cons.mpr ⟨isNamePart_of_nameStart start, parts⟩
  cases lexeme with
  | mark _ => exact absurd (Lexeme.markStart?_nameStart start) begins
  | number _ _ =>
    have digit : isDigit first = true := begins
    rw [not_isDigit_of_nameStart start] at digit
    cases digit
  | keyword reserved =>
    obtain ⟨first, others, spelled, start, parts⟩ := Lexeme.keyword_word reserved
    rw [spelled]
    exact word start parts
  | identifier start parts _ => exact word start parts
  | string _ => cases begins; cases start

/-- A name is made of a word that is no keyword. -/
theorem eq_identifier (lexeme : IsLexeme text .identifier) :
    ∃ first others, text = first :: others ∧ isNameStart first = true ∧
      (∀ c ∈ others, isNamePart c = true) ∧
      ∀ word : Keyword, word.spelling.toList ≠ first :: others := by
  cases lexeme with
  | identifier start parts fresh => exact ⟨_, _, rfl, start, parts, fresh⟩

/-- What begins with a quote is a string. -/
theorem eq_string (lexeme : IsLexeme text kind) (begins : kind.BeginsWith '"') :
    ∃ content : List Char, text = '"' :: (content ++ ['"']) ∧
      ∀ c ∈ content, isStringPart c = true := by
  cases lexeme with
  | mark _ => exact absurd rfl begins
  | number _ _ => cases begins
  | keyword _ => cases begins
  | identifier _ _ _ => cases begins
  | string parts => exact ⟨_, rfl, parts⟩

end IsLexeme

/-- The characters that end no line. -/
def staysOnLine (c : Char) : Bool := !isLineBreak c

/-- What is taken from the front of a text, and the kind of token it makes: the longest lexeme, and
an invalid token if there is no lexeme. -/
structure Munched (text covered : List Char) (kind : TokenKind) : Prop where
  /-- If lexemes stand in front of the text, one of them is taken, and none of them is longer. -/
  longest : (∃ lexeme other, IsLexeme lexeme other ∧ lexeme <+: text) → IsLexeme covered kind ∧
    ∀ lexeme other, IsLexeme lexeme other → lexeme <+: text → lexeme.length ≤ covered.length
  /-- If there is none, a string is taken up to the end of its line, and else one codepoint. -/
  malformed : (∀ lexeme other, IsLexeme lexeme other → ¬ lexeme <+: text) → kind = .invalid ∧
    if text.head? = some '"' then covered = text.takeWhile staysOnLine else covered.length = 1

namespace Munched

variable {text covered : List Char} {kind : TokenKind}

/-- A lexeme is taken if no other is longer. -/
theorem of_longest (lexeme : IsLexeme covered kind) (front : covered <+: text)
    (longest : ∀ lexeme other, IsLexeme lexeme other → lexeme <+: text →
      lexeme.length ≤ covered.length) : Munched text covered kind where
  longest _ := ⟨lexeme, longest⟩
  malformed none := absurd front (none _ _ lexeme)

/-- Where no lexeme stands an invalid token is made. -/
theorem of_none (none : ∀ lexeme other, IsLexeme lexeme other → ¬ lexeme <+: text)
    (taken : if text.head? = some '"' then covered = text.takeWhile staysOnLine
      else covered.length = 1) : Munched text covered .invalid where
  longest some := by
    obtain ⟨lexeme, other, isLexeme, front⟩ := some
    exact absurd front (none _ _ isLexeme)
  malformed _ := ⟨rfl, taken⟩

/-- A valid token covers a lexeme. -/
theorem isLexeme (munched : Munched text covered kind) (valid : kind ≠ .invalid) :
    IsLexeme covered kind := by
  by_cases some : ∃ lexeme other, IsLexeme lexeme other ∧ lexeme <+: text
  · exact (munched.longest some).1
  · have none := munched.malformed fun lexeme other isLexeme front =>
      some ⟨lexeme, other, isLexeme, front⟩
    exact absurd none.1 valid

end Munched

/-- A run of a class stands in front of a text exactly if it stands in front of the longest run. -/
theorem prefix_takeWhile_iff {p : Char → Bool} {run text : List Char}
    (belongs : ∀ c ∈ run, p c = true) : run <+: text.takeWhile p ↔ run <+: text := by
  constructor
  · exact fun front => front.trans (List.takeWhile_prefix p)
  · rintro ⟨behind, rfl⟩
    rw [List.takeWhile_append_of_pos belongs]
    exact List.prefix_append ..

/-- Between a quote and the quote that closes it stands the longest run of string characters. -/
theorem string_split {content rest : List Char} (parts : ∀ c ∈ content, isStringPart c = true)
    (closed : content ++ ['"'] <+: rest) :
    rest.takeWhile isStringPart = content ∧ ∃ tail, rest.dropWhile isStringPart = '"' :: tail := by
  obtain ⟨tail, rfl⟩ := closed
  rw [List.append_assoc, List.takeWhile_append_of_pos parts, List.dropWhile_append_of_pos parts]
  exact ⟨List.append_nil content, tail, rfl⟩

/-- Without a closing quote a string runs up to the end of its line. -/
theorem takeWhile_unclosed {rest : List Char}
    (unclosed : ∀ tail, rest.dropWhile isStringPart ≠ '"' :: tail) :
    rest.takeWhile isStringPart = rest.takeWhile staysOnLine := by
  induction rest with
  | nil => rfl
  | cons c rest ih =>
    by_cases part : isStringPart c = true
    · have inside : staysOnLine c = true := (Bool.and_eq_true_iff.mp part).2
      rw [List.dropWhile_cons_of_pos part] at unclosed
      rw [List.takeWhile_cons_of_pos part, List.takeWhile_cons_of_pos inside, ih unclosed]
    · rw [List.dropWhile_cons_of_neg part] at unclosed
      have noQuote : c ≠ '"' := by
        rintro rfl
        exact unclosed rest rfl
      have lineEnd : ¬ staysOnLine c = true := by
        simpa [staysOnLine, isStringPart, noQuote] using part
      rw [List.takeWhile_cons_of_neg part, List.takeWhile_cons_of_neg lineEnd]

namespace Lexeme

/-- The longest mark is taken. -/
theorem extendMark_munched {first : Char} {rest : List Char} {single : Mark}
    {longer : List (Char × Mark)} (started : markStart? first = some (single, longer)) :
    Munched (first :: rest) (extendMark single longer rest).1.spelling.toList
      (.mark (extendMark single longer rest).1) := by
  have found : scanMark? first rest = some (extendMark single longer rest) := by
    rw [scanMark?, started, Option.map_some]
  have covered := scanMark?_written found
  refine .of_longest (.mark _) ⟨_, covered.symm⟩ ?_
  intro lexeme other isLexeme front
  obtain ⟨begins, others, rfl, behind⟩ := isLexeme.begins_of_prefix front
  obtain ⟨sign, rfl, spelled⟩ := isLexeme.eq_mark begins (by rw [started]; nofun)
  obtain ⟨head, more, split, one, table, known, place⟩ := markStart?_complete sign
  obtain ⟨rfl, rfl⟩ := List.cons.inj (spelled.trans split)
  rw [started] at known
  cases known
  obtain ⟨rfl, rfl⟩ | ⟨second, rfl, looked⟩ := place
  · obtain ⟨begun, _, spelling, _⟩ := markStart?_complete (extendMark sign longer rest).1
    rw [spelling]
    exact Nat.succ_le_succ (Nat.zero_le _)
  · obtain ⟨tail, rfl⟩ := behind
    have extended : extendMark single longer ([second] ++ tail) = (sign, tail) := by
      rw [List.singleton_append, extendMark, looked]
    rw [extended, ← spelled]

/-- The longest run of a class is taken when every lexeme that begins so is a run of it. -/
theorem run_munched {p : Char → Bool} {first : Char} {rest : List Char} {kind : TokenKind}
    (belongs : p first = true) (taken : IsLexeme (first :: rest.takeWhile p) kind)
    (others : ∀ lexeme other, IsLexeme lexeme other → other.BeginsWith first →
      ∀ c ∈ lexeme, p c = true) :
    Munched (first :: rest) (first :: rest.takeWhile p) kind := by
  have run : (first :: rest).takeWhile p = first :: rest.takeWhile p :=
    List.takeWhile_cons_of_pos belongs
  rw [← run] at taken ⊢
  refine .of_longest taken (List.takeWhile_prefix p) ?_
  intro lexeme other isLexeme front
  have inside := others _ _ isLexeme (isLexeme.begins_of_prefix front).1
  exact ((prefix_takeWhile_iff inside).mpr front).length_le

/-- A word is taken as the keyword it spells, and else as a name. -/
theorem ofWord_isLexeme {first : Char} {others : List Char} (start : isNameStart first = true)
    (parts : ∀ c ∈ others, isNamePart c = true) :
    IsLexeme (first :: others) (ofWord (String.ofList (first :: others))).kind := by
  unfold ofWord
  split
  · next reserved known =>
    have spelled := List.find?_some known
    have keyword := IsLexeme.keyword reserved
    rwa [eq_of_beq spelled, String.toList_ofList] at keyword
  · next unknown =>
    refine .identifier start parts fun reserved spelled => ?_
    have listed : reserved ∈ Keyword.all := by cases reserved <;> decide
    have missed := List.find?_eq_none.mp unknown reserved listed
    rw [← spelled, String.ofList_toList] at missed
    exact missed (beq_self_eq_true _)

/-- A string is taken up to the quote that closes it. -/
theorem scanString_munched (rest : List Char) :
    Munched ('"' :: rest) (scanString rest).1.written (scanString rest).1.kind := by
  have covered := List.takeWhile_append_dropWhile (p := isStringPart) (l := rest)
  have parts : ∀ c ∈ rest.takeWhile isStringPart, isStringPart c = true :=
    fun c member => List.mem_takeWhile_imp member
  have strings : ∀ lexeme other, IsLexeme lexeme other → lexeme <+: '"' :: rest →
      lexeme = '"' :: (rest.takeWhile isStringPart ++ ['"']) ∧
        ∃ tail, rest.dropWhile isStringPart = '"' :: tail := by
    intro lexeme other isLexeme front
    obtain ⟨begins, _, rfl, behind⟩ := isLexeme.begins_of_prefix front
    obtain ⟨content, same, inside⟩ := isLexeme.eq_string begins
    obtain ⟨_, rfl⟩ := List.cons.inj same
    obtain ⟨taken, closed⟩ := string_split inside behind
    exact ⟨by rw [taken], closed⟩
  unfold scanString
  simp only
  split
  · next tail closed =>
    rw [closed] at covered
    simp only [written, String.toList_ofList]
    refine .of_longest (.string parts) ⟨tail, ?_⟩ ?_
    · rw [List.cons_append, List.append_assoc, List.singleton_append, covered]
    · intro lexeme other isLexeme front
      rw [(strings _ _ isLexeme front).1]
  · next unclosed =>
    simp only [written, String.toList_ofList]
    refine .of_none ?_ ?_
    · intro lexeme other isLexeme front
      obtain ⟨_, tail, closed⟩ := strings _ _ isLexeme front
      exact unclosed tail closed
    · rw [takeWhile_unclosed unclosed, List.head?_cons, if_pos rfl]
      rfl

/-- The lexer takes the longest lexeme in front of a text. -/
theorem scan_munched (first : Char) (rest : List Char) :
    Munched (first :: rest) (scan first rest).1.written (scan first rest).1.kind := by
  unfold scan
  split
  · next sign tail found =>
    obtain ⟨⟨single, longer⟩, started, made⟩ := Option.map_eq_some_iff.mp found
    have munched : Munched (first :: rest) _ _ := extendMark_munched started
    rwa [show extendMark single longer rest = (sign, tail) from made] at munched
  · next noMark =>
    have unmarked : markStart? first = none := Option.map_eq_none_iff.mp noMark
    split
    · next quote => rw [quote]; exact scanString_munched rest
    · next noQuote =>
      split
      · next digit =>
        simp only [written, String.toList_ofList]
        refine run_munched digit (.number (List.cons_ne_nil _ _) ?_) fun _ _ isLexeme begins =>
          isLexeme.eq_number begins digit
        exact List.forall_mem_cons.mpr ⟨digit, fun c member => List.mem_takeWhile_imp member⟩
      · next noDigit =>
        split
        · next start =>
          have part := isNamePart_of_nameStart start
          simp only [ofWord_written, String.toList_ofList]
          refine run_munched part (ofWord_isLexeme start ?_) fun _ _ isLexeme begins =>
            isLexeme.eq_word begins start
          exact fun c member => List.mem_takeWhile_imp member
        · next noStart =>
          refine .of_none ?_ ?_
          · intro lexeme other isLexeme front
            have begins := (isLexeme.begins_of_prefix front).1
            cases other with
            | mark _ => exact begins unmarked
            | number => exact noDigit begins
            | keyword _ => exact noStart begins
            | identifier => exact noStart begins
            | string => exact noQuote begins
            | invalid => exact begins
          · rw [List.head?_cons, if_neg (fun same => noQuote (Option.some.inj same))]
            rfl

end Lexeme

/-- The text of a source from a place up to the end of its line. -/
def Source.lineFrom (source : Source) (place : Position) : List Char :=
  (source.lines.getD (place.line - 1) []).drop (place.column - 1)

/-- The text that a token covers. -/
def Source.covered (source : Source) (token : Token) : List Char :=
  (source.lineFrom token.start).take token.width

/-- The codepoints before the first line feed. -/
def lineBody (text : List Char) : List Char := text.takeWhile (· ≠ '\n')

/-- A codepoint before the line feed belongs to the line. -/
theorem lineBody_cons {c : Char} (stays : c ≠ '\n') (rest : List Char) :
    lineBody (c :: rest) = c :: lineBody rest :=
  List.takeWhile_cons_of_pos (decide_eq_true stays)

/-- A text on one line stands in front of another exactly if it stands in front of its line. -/
theorem prefix_lineBody_iff {run text : List Char} (oneLine : '\n' ∉ run) :
    run <+: lineBody text ↔ run <+: text :=
  prefix_takeWhile_iff fun _ member => decide_eq_true fun same => oneLine (same ▸ member)

/-- A codepoint that is no line feed goes into the first line. -/
theorem consLines_cons {c : Char} (stays : c ≠ '\n') (line : List Char) (later : List (List Char)) :
    consLines c (line :: later) = (c :: line) :: later := if_neg stays

/-- A line feed is a line of its own before what follows. -/
theorem consLines_lineFeed (lines : List (List Char)) : consLines '\n' lines = ['\n'] :: lines :=
  if_pos rfl

/-- The first line of a text has the same codepoints before its line feed. -/
theorem lineBody_splitLines (text : List Char) :
    lineBody ((splitLines text).headD []) = lineBody text := by
  induction text with
  | nil => rfl
  | cons c rest ih =>
    obtain ⟨line, later, lines⟩ := List.exists_cons_of_ne_nil (splitLines_ne_nil rest)
    by_cases feed : c = '\n'
    · rw [feed, splitLines_cons, consLines_lineFeed]
      rfl
    · rw [lines] at ih
      have same : lineBody line = lineBody rest := ih
      rw [splitLines_cons, lines, consLines_cons feed, lineBody_cons feed, ← same]
      exact lineBody_cons feed line

/-- What stands behind the last line feed does not depend on what stands before one. -/
theorem takeWhile_reverse_cons {c : Char} {before : List Char}
    (stops : c = '\n' ∨ '\n' ∈ before) :
    (c :: before).reverse.takeWhile (· ≠ '\n') = before.reverse.takeWhile (· ≠ '\n') := by
  rw [List.reverse_cons, List.takeWhile_append]
  split
  · next whole =>
    have all := (List.takeWhile_prefix _).eq_of_length_le (Nat.le_of_eq whole.symm)
    rw [all]
    obtain rfl | member := stops
    · exact List.append_nil _
    · rw [List.takeWhile_eq_self_iff] at all
      exact absurd (all _ (List.mem_reverse.mpr member)) (by decide)
  · rfl

/-- Without a line feed everything stands behind the last one. -/
theorem takeWhile_reverse_oneLine {before : List Char} (oneLine : '\n' ∉ before) :
    before.reverse.takeWhile (· ≠ '\n') = before.reverse := by
  rw [List.takeWhile_eq_self_iff]
  intro c inside
  exact decide_eq_true fun same => oneLine (same ▸ List.mem_reverse.mp inside)

/-- Behind a text the lines go on, at its place, with the first line of what stands there. -/
theorem splitLines_placeAfter (before rest : List Char) :
    ((splitLines (before ++ rest)).getD ((placeAfter before).line - 1) []).drop
      ((placeAfter before).column - 1) = (splitLines rest).headD [] := by
  simp only [placeAfter, Nat.add_sub_cancel_left]
  -- A line feed in front adds a line before the one in question. Any other codepoint adds a column
  -- to the first line, which is the one in question only if no line feed follows.
  induction before with
  | nil =>
    obtain ⟨line, later, lines⟩ := List.exists_cons_of_ne_nil (splitLines_ne_nil rest)
    rw [List.nil_append, lines]
    rfl
  | cons c before ih =>
    by_cases feed : c = '\n'
    · rw [takeWhile_reverse_cons (.inl feed), feed, List.count_cons_self, List.cons_append,
        splitLines_cons, consLines_lineFeed, List.getD_cons_succ]
      exact ih
    · obtain ⟨line, later, lines⟩ := List.exists_cons_of_ne_nil
        (splitLines_ne_nil (before ++ rest))
      rw [lines] at ih
      rw [List.cons_append, splitLines_cons, lines, consLines_cons feed,
        List.count_cons_of_ne feed]
      by_cases member : '\n' ∈ before
      · obtain ⟨feeds, counted⟩ := Nat.exists_eq_succ_of_ne_zero
          (Nat.pos_iff_ne_zero.mp (List.count_pos_iff.mpr member))
        rw [takeWhile_reverse_cons (.inr member), counted]
        rw [counted] at ih
        exact ih
      · have both : '\n' ∉ c :: before := by
          rw [List.mem_cons, not_or]
          exact ⟨Ne.symm feed, member⟩
        have none := List.count_eq_zero.mpr member
        rw [none, takeWhile_reverse_oneLine member, List.length_reverse] at ih
        rw [none, takeWhile_reverse_oneLine both, List.length_reverse]
        exact ih

/-- What is taken from the front of a text is taken from the front of its line. -/
theorem Munched.of_lineBody {first : Char} {text line covered : List Char} {kind : TokenKind}
    (munched : Munched (first :: text) covered kind) (feed : first ≠ '\n')
    (same : lineBody line = lineBody (first :: text)) : Munched line covered kind := by
  have fronts : ∀ lexeme other, IsLexeme lexeme other →
      (lexeme <+: line ↔ lexeme <+: first :: text) := by
    intro lexeme other isLexeme
    rw [← prefix_lineBody_iff isLexeme.oneLine, same, prefix_lineBody_iff isLexeme.oneLine]
  have cut : ∀ text : List Char,
      (lineBody text).takeWhile staysOnLine = text.takeWhile staysOnLine := by
    intro text
    rw [lineBody, List.takeWhile_takeWhile]
    congr 1
    funext c
    by_cases feed : c = '\n' <;> simp [staysOnLine, isLineBreak, feed]
  obtain ⟨others, rfl⟩ : ∃ others, line = first :: others := by
    have front : [first] <+: line := by
      have oneLine : '\n' ∉ [first] := by simpa using Ne.symm feed
      rw [← prefix_lineBody_iff oneLine, same, lineBody_cons feed]
      exact ⟨_, rfl⟩
    obtain ⟨others, rfl⟩ := front
    exact ⟨others, rfl⟩
  constructor
  · rintro ⟨lexeme, other, isLexeme, front⟩
    obtain ⟨taken, longest⟩ := munched.longest ⟨lexeme, other, isLexeme,
      (fronts _ _ isLexeme).mp front⟩
    exact ⟨taken, fun _ _ isLexeme front => longest _ _ isLexeme ((fronts _ _ isLexeme).mp front)⟩
  · intro none
    obtain ⟨invalid, taken⟩ := munched.malformed fun _ _ isLexeme front =>
      none _ _ isLexeme ((fronts _ _ isLexeme).mpr front)
    refine ⟨invalid, ?_⟩
    rw [← cut, same, cut]
    exact taken

namespace Lexer

/-- The next token is scanned from the text at which it starts. -/
theorem next?_scanned {cursor later : Cursor} {token : Token} {before : List Char}
    (placed : cursor.position = placeAfter before) (found : next? cursor = some (token, later)) :
    ∃ between first rest, cursor.ahead = between ++ first :: rest ∧ isBlank first = false ∧
      token = ⟨(Lexeme.scan first rest).1, placeAfter (before ++ between)⟩ := by
  unfold next? at found
  simp only at found
  split at found
  · cases found
  · next first rest same =>
    cases found
    obtain ⟨gap, _, ahead, place⟩ | ⟨_, ended⟩ := skipTrivia_gap placed
    · refine ⟨gap, first, rest, ?_, skipTrivia_not_blank same, ?_⟩
      · rw [ahead, same]
      · rw [place]
    · rw [same] at ended
      cases ended

/-- Every token of a run is scanned from the text at which it starts. -/
theorem run_scanned {cursor : Cursor} {before : List Char} {token : Token}
    (placed : cursor.position = placeAfter before) (member : token ∈ (run cursor).1) :
    ∃ between first rest, cursor.ahead = between ++ first :: rest ∧ isBlank first = false ∧
      token = ⟨(Lexeme.scan first rest).1, placeAfter (before ++ between)⟩ := by
  induction remaining : cursor.ahead.length using Nat.strongRecOn generalizing cursor before with
  | _ remaining ih =>
    rw [run_eq] at member
    cases step : next? cursor with
    | none => rw [step] at member; cases member
    | some found =>
      obtain ⟨head, later⟩ := found
      have shorter := next?_length step
      rw [remaining] at shorter
      rw [step] at member
      obtain rfl | further := List.mem_cons.mp member
      · exact next?_scanned placed step
      · obtain ⟨piece, _, _, ahead, place⟩ := next?_stands placed step
        obtain ⟨between, first, rest, behind, notBlank, scanned⟩ := ih _ shorter place further rfl
        refine ⟨piece.text ++ between, first, rest, ?_, notBlank, ?_⟩
        · rw [ahead, behind, List.append_assoc]
        · rw [scanned, List.append_assoc]

end Lexer

/-- The token is written as a lexeme of its kind. -/
def Token.Spelled (token : Token) : Prop := IsLexeme token.lexeme.written token.kind

/-- Every valid token of a source is spelled. -/
theorem Source.token_spelled {source : Source} {token : Token}
    (member : token ∈ source.tokenStream.tokens) (valid : token.kind ≠ .invalid) :
    token.Spelled := by
  have placed : (Cursor.start source).position = placeAfter [] := rfl
  obtain ⟨_, first, rest, _, _, rfl⟩ := Lexer.run_scanned placed member
  exact (Lexeme.scan_munched first rest).isLexeme valid

/-- Every token covers the longest lexeme with which the rest of its line begins, and has the kind
of that lexeme. If the line begins with none, the token is invalid: it covers a string up to the end
of the line, or one codepoint. -/
theorem token_covers_longest_lexeme (source : Source) (token : Token)
    (member : token ∈ source.tokenStream.tokens) :
    (source.covered token).length = token.width ∧
      Munched (source.lineFrom token.start) (source.covered token) token.kind := by
  have placed : (Cursor.start source).position = placeAfter [] := rfl
  obtain ⟨before, first, rest, content, notBlank, rfl⟩ := Lexer.run_scanned placed member
  have same : source.content.toList = before ++ first :: rest := content
  have line : source.lineFrom (placeAfter before) = (splitLines (first :: rest)).headD [] := by
    rw [Source.lineFrom, Source.lines, Source.chars, same]
    exact splitLines_placeAfter before (first :: rest)
  have body : lineBody (source.lineFrom (placeAfter before)) = lineBody (first :: rest) := by
    rw [line, lineBody_splitLines]
  have feed : first ≠ '\n' := by
    rintro rfl
    cases notBlank
  obtain ⟨whole, oneLine⟩ := Lexeme.scan_written notBlank rest
  have front : (Lexeme.scan first rest).1.written <+: source.lineFrom (placeAfter before) := by
    rw [← prefix_lineBody_iff oneLine, body, prefix_lineBody_iff oneLine]
    exact ⟨_, whole.symm⟩
  have covered : source.covered ⟨(Lexeme.scan first rest).1, placeAfter before⟩ =
      (Lexeme.scan first rest).1.written := (List.prefix_iff_eq_take.mp front).symm
  rw [List.nil_append, covered]
  exact ⟨rfl, (Lexeme.scan_munched first rest).of_lineBody feed body⟩

/-- A shift that stands before an equals sign and a string that a carriage return cuts are covered
as the longest lexeme and as a malformed one. -/
theorem shift_and_cut_string_covered :
    (⟨.mark .lessLess, ⟨1, 2⟩⟩ ∈ (⟨0, "cut.sb", "a<<= \"b\r\"c\""⟩ : Source).tokenStream.tokens ∧
      Munched "<<= \"b\r\"c\"".toList "<<".toList (.mark .lessLess)) ∧
    (⟨.unterminated "b", ⟨1, 6⟩⟩ ∈ (⟨0, "cut.sb", "a<<= \"b\r\"c\""⟩ : Source).tokenStream.tokens ∧
      Munched "\"b\r\"c\"".toList "\"b".toList .invalid) := by
  have shift : ⟨.mark .lessLess, ⟨1, 2⟩⟩ ∈
      (⟨0, "cut.sb", "a<<= \"b\r\"c\""⟩ : Source).tokenStream.tokens := by decide +kernel
  have cut : ⟨.unterminated "b", ⟨1, 6⟩⟩ ∈
      (⟨0, "cut.sb", "a<<= \"b\r\"c\""⟩ : Source).tokenStream.tokens := by decide +kernel
  exact ⟨⟨shift, (token_covers_longest_lexeme _ _ shift).2⟩,
    cut, (token_covers_longest_lexeme _ _ cut).2⟩

end Cascade
