import Cascade.Proofs.LongestLexeme

/-!
# Lexemes spelled out

A blank ends every lexeme, and it is part of none but a string, which its own quote ends. So a text
that spells lexemes with trivia between them is read back as these lexemes, whatever the trivia are,
if those behind each lexeme begin with a blank.

Main definitions:

* `SpacedLexeme`, a lexeme with the trivia behind it;
* `WellSpaced`, what a row of them has to satisfy to be read back.
-/
namespace Cascade

/-- A run of a class ends before a character outside the class, and at the end of the text. -/
theorem run_ends {p : Char → Bool} {run rest : List Char} (belongs : ∀ c ∈ run, p c = true)
    (stops : ∀ c ∈ rest.head?, p c = false) :
    (run ++ rest).takeWhile p = run ∧ (run ++ rest).dropWhile p = rest := by
  rw [List.takeWhile_append_of_pos belongs, List.dropWhile_append_of_pos belongs]
  cases rest with
  | nil => exact ⟨List.append_nil run, rfl⟩
  | cons c rest =>
    have stops : ¬ p c = true := by rw [stops c rfl]; nofun
    rw [List.takeWhile_cons_of_neg stops, List.dropWhile_cons_of_neg stops, List.append_nil]
    exact ⟨rfl, rfl⟩

/-- The text is empty or begins with a blank. -/
def BlankFirst (text : List Char) : Prop := ∀ c ∈ text.head?, isBlank c = true

namespace BlankFirst

variable {gap rest : List Char}

/-- The empty text begins with nothing else. -/
theorem nil : BlankFirst [] := nofun

/-- A text that begins with a blank does. -/
theorem cons {c : Char} (blank : isBlank c = true) (rest : List Char) : BlankFirst (c :: rest) := by
  intro first same
  cases same
  exact blank

/-- What stands behind a gap does not change how it begins, unless there is no gap. -/
theorem append (gapFirst : BlankFirst gap) (behind : gap = [] → BlankFirst rest) :
    BlankFirst (gap ++ rest) := by
  cases gap with
  | nil => exact behind rfl
  | cons c gap => exact .cons (gapFirst c rfl) _

/-- A run of a class without blanks ends before a blank, and at the end of the text. -/
theorem run {p : Char → Bool} {run : List Char} (blankFirst : BlankFirst rest)
    (belongs : ∀ c ∈ run, p c = true) (noBlank : ∀ c, isBlank c = true → p c = false) :
    (run ++ rest).takeWhile p = run ∧ (run ++ rest).dropWhile p = rest :=
  run_ends belongs fun c first => noBlank c (blankFirst c first)

end BlankFirst

/-- What holds of the four blanks holds of every blank. -/
theorem of_isBlank {holds : Char → Prop} (space : holds ' ') (tab : holds '\t')
    (feed : holds '\n') (carriage : holds '\r') (c : Char) (blank : isBlank c = true) :
    holds c := by
  simp only [isBlank, Bool.or_eq_true, decide_eq_true_eq] at blank
  rcases blank with ((rfl | rfl) | rfl) | rfl
  · exact space
  · exact tab
  · exact feed
  · exact carriage

namespace Lexeme

/-- Where the lexeme stands before the rest of a text, neither a blank nor a comment begins, and the
lexeme is read. -/
def ReadBefore (lexeme : Lexeme) (rest : List Char) : Prop :=
  ∃ first others, lexeme.written = first :: others ∧ isBlank first = false ∧
    ¬ (first = '/' ∧ (others ++ rest).head? = some '/') ∧
    scan first (others ++ rest) = (lexeme, rest)

variable {first : Char} {others rest : List Char}

/-- No blank begins a mark. -/
theorem markStart?_blank : ∀ c, isBlank c = true → markStart? c = none :=
  of_isBlank rfl rfl rfl rfl

/-- No second character of a mark is a blank. -/
theorem lookup_blank {single : Mark} {longer : List (Char × Mark)}
    (started : markStart? first = some (single, longer)) :
    ∀ c, isBlank c = true → longer.lookup c = none := by
  unfold markStart? at started
  split at started <;> cases started <;> exact of_isBlank rfl rfl rfl rfl

/-- A mark is read before a blank. -/
theorem mark_readBefore (sign : Mark) (blankFirst : BlankFirst rest) :
    ReadBefore (.mark sign) rest := by
  obtain ⟨first, others, spelled, single, longer, started, shape⟩ := markStart?_complete sign
  have notBlank : isBlank first = false := by
    rw [Bool.eq_false_iff]
    intro blank
    rw [markStart?_blank first blank] at started
    cases started
  have extended : extendMark single longer (others ++ rest) = (sign, rest) := by
    rcases shape with ⟨rfl, rfl⟩ | ⟨second, rfl, known⟩
    · cases rest with
      | nil => rfl
      | cons c rest =>
        rw [List.nil_append, extendMark, lookup_blank started c (blankFirst c rfl)]
    · rw [List.singleton_append, extendMark, known]
  refine ⟨first, others, spelled, notBlank, ?_, ?_⟩
  · rintro ⟨rfl, slash⟩
    cases started
    rcases shape with ⟨rfl, _⟩ | ⟨second, _, known⟩
    · exact absurd (blankFirst '/' slash) (by decide)
    · cases known
  · rw [scan, scanMark?, started, Option.map_some]
    dsimp only
    rw [extended]

/-- What begins a word or a number begins neither a blank nor a comment. -/
theorem begins_no_trivia (begins : isNamePart first = true) :
    isBlank first = false ∧ first ≠ '/' := by
  have noPart : ∀ c, isBlank c = true → isNamePart c = false := of_isBlank rfl rfl rfl rfl
  constructor
  · rw [Bool.eq_false_iff]
    intro blank
    rw [noPart first blank] at begins
    cases begins
  · rintro rfl
    cases begins

/-- A word is read before a blank as the keyword or the name it is. -/
theorem word_readBefore (start : isNameStart first = true)
    (parts : ∀ c ∈ others, isNamePart c = true) (blankFirst : BlankFirst rest) :
    ReadBefore (ofWord (String.ofList (first :: others))) rest := by
  obtain ⟨taken, left⟩ := blankFirst.run parts (of_isBlank rfl rfl rfl rfl)
  obtain ⟨notBlank, noSlash⟩ := begins_no_trivia (isNamePart_of_nameStart start)
  have noQuote : first ≠ '"' := by rintro rfl; cases start
  have noDigit : ¬ isDigit first = true := by rw [not_isDigit_of_nameStart start]; nofun
  have noMark : scanMark? first (others ++ rest) = none := by
    rw [scanMark?, markStart?_nameStart start, Option.map_none]
  refine ⟨first, others, ?_, notBlank, fun comment => noSlash comment.1, ?_⟩
  · rw [ofWord_written, String.toList_ofList]
  · unfold scan
    rw [noMark]
    dsimp only
    rw [if_neg noQuote, if_neg noDigit, if_pos start, taken, left]

/-- A number is read before a blank. -/
theorem number_readBefore (digit : isDigit first = true) (digits : ∀ c ∈ others, isDigit c = true)
    (blankFirst : BlankFirst rest) :
    ReadBefore (.number (String.ofList (first :: others))) rest := by
  obtain ⟨taken, left⟩ := blankFirst.run digits (of_isBlank rfl rfl rfl rfl)
  obtain ⟨notBlank, noSlash⟩ := begins_no_trivia (Bool.or_eq_true_iff.mpr (.inr digit))
  have noQuote : first ≠ '"' := by rintro rfl; cases digit
  have noMark : scanMark? first (others ++ rest) = none := by
    rw [scanMark?, markStart?_digit digit, Option.map_none]
  refine ⟨first, others, String.toList_ofList, notBlank, fun comment => noSlash comment.1, ?_⟩
  unfold scan
  rw [noMark]
  dsimp only
  rw [if_neg noQuote, if_pos digit, taken, left]

/-- A string is read whatever stands behind it. -/
theorem string_readBefore {content : List Char} (parts : ∀ c ∈ content, isStringPart c = true)
    (rest : List Char) : ReadBefore (.string (String.ofList content)) rest := by
  have taken : (content ++ '"' :: rest).takeWhile isStringPart = content := by
    rw [List.takeWhile_append_of_pos parts, List.takeWhile_cons_of_neg (by decide),
      List.append_nil]
  have left : (content ++ '"' :: rest).dropWhile isStringPart = '"' :: rest := by
    rw [List.dropWhile_append_of_pos parts, List.dropWhile_cons_of_neg (by decide)]
  have noMark : scanMark? '"' (content ++ '"' :: rest) = none := rfl
  refine ⟨'"', content ++ ['"'], ?_, rfl, fun comment => absurd comment.1 (by decide), ?_⟩
  · rw [written, String.toList_ofList]
  · rw [List.append_assoc, List.singleton_append]
    unfold scan
    rw [noMark]
    dsimp only
    rw [if_pos rfl, scanString, taken, left]
    rfl

/-- A word that is no keyword is a name. -/
theorem ofWord_name {word : List Char}
    (fresh : ∀ reserved : Keyword, reserved.spelling.toList ≠ word) :
    ofWord (String.ofList word) = .identifier (String.ofList word) := by
  have none : Keyword.ofSpelling? (String.ofList word) = none := by
    refine List.find?_eq_none.mpr fun reserved _ same => ?_
    have spelled := congrArg String.toList (eq_of_beq same)
    rw [String.toList_ofList] at spelled
    exact fresh reserved spelled
  rw [ofWord, none]

/-- Every lexeme is read before a blank. -/
theorem readBefore {lexeme : Lexeme} (spelled : IsLexeme lexeme.written lexeme.kind)
    (blankFirst : BlankFirst rest) : lexeme.ReadBefore rest := by
  obtain ⟨first, others, written, begins⟩ := spelled.begins
  cases lexeme with
  | mark sign => exact mark_readBefore sign blankFirst
  | keyword word =>
    obtain ⟨first, others, same, start, parts⟩ := keyword_word word
    have reserved : ofWord word.spelling = .keyword word := by cases word <;> rfl
    have read := word_readBefore start parts blankFirst
    rwa [← same, String.ofList_toList, reserved] at read
  | identifier name =>
    obtain ⟨first, others, same, start, parts, fresh⟩ := IsLexeme.eq_identifier spelled
    have text : String.ofList (first :: others) = name := by
      rw [← same]; exact String.ofList_toList
    have read := word_readBefore start parts blankFirst
    rwa [ofWord_name fresh, text] at read
  | number digits =>
    have each := spelled.eq_number begins begins
    rw [written] at each
    obtain ⟨digit, run⟩ := List.forall_mem_cons.mp each
    have text : String.ofList (first :: others) = digits := by
      rw [← written]; exact String.ofList_toList
    have read := number_readBefore digit run blankFirst
    rwa [text] at read
  | string content =>
    obtain ⟨inner, same, parts⟩ := spelled.eq_string rfl
    obtain rfl : content.toList = inner := List.append_cancel_right (List.cons.inj same).2
    have read := string_readBefore parts rest
    rwa [String.ofList_toList] at read
  | unterminated content | stray character => exact begins.elim

end Lexeme

/-- A lexeme with the trivia behind it. -/
structure SpacedLexeme where
  /-- The lexeme. -/
  lexeme : Lexeme
  /-- What stands between it and the next lexeme. -/
  gap : List Char

/-- The lexeme as it is written, and the trivia. -/
def SpacedLexeme.text (item : SpacedLexeme) : List Char := item.lexeme.written ++ item.gap

/-- The lexemes are well-formed, and trivia keep each of them apart from the next one. -/
structure WellSpaced (items : List SpacedLexeme) : Prop where
  /-- Each lexeme is written as lexemes of its kind are. -/
  spelled : ∀ item ∈ items, IsLexeme item.lexeme.written item.lexeme.kind
  /-- Blanks and comments stand behind it. -/
  trivia : ∀ item ∈ items, Trivia item.gap
  /-- If there are any, a blank is the first of them. -/
  blankFirst : ∀ item ∈ items, BlankFirst item.gap
  /-- Before another lexeme there are some. -/
  apart : ∀ item ∈ items.dropLast, item.gap ≠ []

namespace WellSpaced

variable {item : SpacedLexeme} {later items : List SpacedLexeme}

/-- The lexemes behind the first are well-spaced. -/
theorem tail (spaced : WellSpaced (item :: later)) : WellSpaced later where
  spelled := (List.forall_mem_cons.mp spaced.spelled).2
  trivia := (List.forall_mem_cons.mp spaced.trivia).2
  blankFirst := (List.forall_mem_cons.mp spaced.blankFirst).2
  apart other member := by
    have some : later ≠ [] := by rintro rfl; cases member
    refine spaced.apart other ?_
    rw [List.dropLast_cons_of_ne_nil some]
    exact List.mem_cons_of_mem item member

/-- Behind the first lexeme the text ends or goes on with a blank. -/
theorem blankFirst_behind (spaced : WellSpaced (item :: later)) :
    BlankFirst (item.gap ++ later.flatMap SpacedLexeme.text) := by
  refine (spaced.blankFirst item List.mem_cons_self).append fun noGap => ?_
  cases later with
  | nil => exact .nil
  | cons next later => exact absurd noGap (spaced.apart item List.mem_cons_self)

end WellSpaced

namespace Lexer

/-- Trivia are skipped, whatever stands behind them. -/
theorem skipTrivia_append {gap : List Char} (trivia : Trivia gap) (rest : List Char)
    (place : Position) :
    ∃ later, skipTrivia ⟨gap ++ rest, place⟩ = skipTrivia ⟨rest, later⟩ := by
  induction trivia generalizing place with
  | nil => exact ⟨place, rfl⟩
  | @blank c _ blank _ ih =>
    obtain ⟨later, skipped⟩ := ih (place.after c)
    exact ⟨later, (skipTrivia_blank blank _ place).trans skipped⟩
  | @comment body behind oneLine _ ih =>
    obtain ⟨later, skipped⟩ := ih ⟨place.line + 1, 1⟩
    refine ⟨later, ?_⟩
    have line : '\n' ∉ '/' :: '/' :: body := by simpa using oneLine
    have found : Cursor.afterLineFeed? (('/' :: '/' :: body) ++ '\n' :: (behind ++ rest)) =
        some (behind ++ rest) := by
      rw [afterLineFeed?_append line, Cursor.afterLineFeed?, if_pos rfl]
    have dropped : Cursor.skipLine ⟨'/' :: '/' :: (body ++ '\n' :: (behind ++ rest)), place⟩ =
        ⟨behind ++ rest, ⟨place.line + 1, 1⟩⟩ := skipLine_next found
    rw [List.cons_append, List.cons_append, List.append_assoc, List.cons_append,
      skipTrivia_comment, dropped, skipped]

/-- Behind trivia a lexeme that is read there is the next token. -/
theorem next?_readBefore {gap rest : List Char} {lexeme : Lexeme} (trivia : Trivia gap)
    (read : lexeme.ReadBefore rest) (place : Position) :
    ∃ start, next? ⟨gap ++ (lexeme.written ++ rest), place⟩ =
      some (⟨lexeme, start⟩, ⟨rest, start.shift lexeme.width⟩) := by
  obtain ⟨first, others, written, notBlank, noComment, scanned⟩ := read
  obtain ⟨start, skipped⟩ := skipTrivia_append trivia (lexeme.written ++ rest) place
  rw [written, List.cons_append] at skipped ⊢
  rw [skipTrivia_lexeme notBlank noComment] at skipped
  refine ⟨start, ?_⟩
  rw [next?, skipped]
  dsimp only
  rw [scanned]

/-- Well-spaced lexemes are read one by one behind any trivia. -/
theorem run_spaced {items : List SpacedLexeme} (spaced : WellSpaced items) {lead : List Char}
    (before : Trivia lead) (place : Position) :
    (run ⟨lead ++ items.flatMap SpacedLexeme.text, place⟩).1.map Token.lexeme =
      items.map SpacedLexeme.lexeme := by
  -- What stands between two lexemes is behind the first one and before the second one.
  induction items generalizing lead place with
  | nil =>
    obtain ⟨later, skipped⟩ := skipTrivia_append before [] place
    have ended : next? ⟨lead ++ [], place⟩ = none := by rw [next?, skipped, skipTrivia_nil]
    rw [List.flatMap_nil, run_eq, ended]
    rfl
  | cons item later ih =>
    have spelled := spaced.spelled item List.mem_cons_self
    obtain ⟨start, found⟩ :=
      next?_readBefore before (Lexeme.readBefore spelled spaced.blankFirst_behind) place
    have further := ih spaced.tail (spaced.trivia item List.mem_cons_self)
      (start.shift item.lexeme.width)
    rw [List.flatMap_cons, SpacedLexeme.text, List.append_assoc, run_eq, found, List.map_cons,
      List.map_cons, further]

end Lexer

/-- Lexing inverts spelling: a source that spells well-spaced lexemes behind any trivia has these
lexemes as its tokens, and nothing is wrong with them. -/
theorem lexer_reads_spelled_lexemes (source : Source) (lead : List Char)
    (items : List SpacedLexeme) (before : Trivia lead) (spaced : WellSpaced items)
    (text : source.content.toList = lead ++ items.flatMap SpacedLexeme.text) :
    source.tokenStream.tokens.map Token.lexeme = items.map SpacedLexeme.lexeme ∧
      source.tokenStream.problems = [] := by
  have lexemes : source.tokenStream.tokens.map Token.lexeme = items.map SpacedLexeme.lexeme := by
    have read := Lexer.run_spaced spaced before .first
    rw [← text] at read
    exact read
  refine ⟨lexemes, List.filterMap_eq_nil_iff.mpr fun token member => token.problem?_valid ?_⟩
  have listed : token.lexeme ∈ source.tokenStream.tokens.map Token.lexeme :=
    List.mem_map_of_mem member
  rw [lexemes] at listed
  obtain ⟨item, there, same⟩ := List.mem_map.mp listed
  have spelled := spaced.spelled item there
  rw [same] at spelled
  exact spelled.valid

/-- A string that looks like a comment, a slash before a comment and two marks that would make a
longer one are read back, with a comment in front, one between them and one behind. -/
theorem lexer_reads_string_like_a_comment :
    WellSpaced [⟨.string "// é +", "\t".toList⟩, ⟨.mark .slash, " //*\"\n".toList⟩,
      ⟨.mark .plus, "\r\n".toList⟩, ⟨.mark .plus, "\n// done\n".toList⟩] ∧
    (⟨0, "spelled.sb", "// über\n\"// é +\"\t/ //*\"\n+\r\n+\n// done\n"⟩ :
      Source).tokenStream.tokens.map Token.lexeme =
        [.string "// é +", .mark .slash, .mark .plus, .mark .plus] ∧
    (⟨0, "spelled.sb", "// über\n\"// é +\"\t/ //*\"\n+\r\n+\n// done\n"⟩ :
      Source).tokenStream.problems = [] := by
  have before : Trivia "// über\n".toList := .line " über".toList (by decide)
  have note : Trivia "//*\"\n".toList := .line "*\"".toList (by decide)
  have done : Trivia "// done\n".toList := .line " done".toList (by decide)
  have spaced : WellSpaced [⟨.string "// é +", "\t".toList⟩, ⟨.mark .slash, " //*\"\n".toList⟩,
      ⟨.mark .plus, "\r\n".toList⟩, ⟨.mark .plus, "\n// done\n".toList⟩] := by
    constructor
    · simp only [List.forall_mem_cons]
      have content : ∀ c ∈ "// é +".toList, isStringPart c = true := List.all_eq_true.mp rfl
      exact ⟨.string content, .mark _, .mark _, .mark _, nofun⟩
    · simp only [List.forall_mem_cons]
      exact ⟨.blank rfl .nil, .blank rfl note, .blank rfl (.blank rfl .nil), .blank rfl done, nofun⟩
    · simp only [List.forall_mem_cons]
      exact ⟨.cons rfl _, .cons rfl _, .cons rfl _, .cons rfl _, nofun⟩
    · decide
  exact ⟨spaced, lexer_reads_spelled_lexemes _ _ _ before spaced (by decide +kernel)⟩

end Cascade
