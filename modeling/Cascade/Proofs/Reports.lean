import Cascade.Proofs.Lookahead

/-!
# What a parse reports

The lexer reports a malformed token when it comes into view, one token before the parser looks at
it; the parser reports why it stops. Together the two say no more and no less than the result does:
nothing is reported exactly if the parse succeeds, and what is reported last belongs to the error.

A malformed token stops the parser without a second report, with two exceptions. The nesting limit
and the size of a number are looked at without a look at the token in view, so where that token is
malformed two errors are reported.
-/
namespace Cascade

variable {context : ParseContext} {goal : Goal} {room : Nat} {tokens rest : List Token}
  {completed : List (Expr Span)} {failure : Failure}

/-- The problem of a token is an error at its start, with one of three numbers. -/
structure Token.Problem (token : Token) (report : Diagnostic) : Prop where
  /-- The text is refused for it. -/
  severity : report.severity = .error
  /-- It is about the columns from the start of the token on. -/
  start : report.span.start = token.start
  /-- It has one of the numbers of the lexer. -/
  code : report.code ∈ [1001, 1002, 1003]

namespace Token

variable {token : Token} {report : Diagnostic}

/-- A hint changes neither the place of a problem nor its number. -/
theorem Problem.withHint (problem : token.Problem report) (hint : String) :
    token.Problem (report.withHint hint) :=
  ⟨problem.severity, problem.start, problem.code⟩

/-- A message of the lexer at the start of a token is a problem of it. -/
theorem Problem.of_message (message : Message) (severity : message.severity = .error)
    (code : message.code ∈ [1001, 1002, 1003]) (token : Token) (length : Nat)
    (arguments : List String) :
    token.Problem (.of (token.start.span length) message arguments) :=
  ⟨severity, rfl, code⟩

/-- An invalid token has a problem. -/
theorem problem?_invalid (invalid : token.kind = .invalid) :
    ∃ report, token.problem? = some report ∧ token.Problem report := by
  have unexpected := Problem.of_message .unexpectedCharacter rfl (by decide) token
  have malformed := Problem.of_message .invalidCharacter rfl (by decide) token
  have unterminated := Problem.of_message .unterminatedString rfl (by decide) token
  obtain ⟨lexeme, start⟩ := token
  cases lexeme with
  | unterminated content => exact ⟨_, rfl, (unterminated _ _).withHint _⟩
  | stray character =>
    by_cases ascii : character.toNat < 128
    · exact ⟨_, if_pos ascii, unexpected _ _⟩
    · refine ⟨_, if_neg ascii, ?_⟩
      dsimp only
      split
      · exact (malformed _ _).withHint _
      · exact malformed _ _
  | _ => cases invalid

end Token

/-- What the lexer reports of the token in view. -/
def problemInView (rest : List Token) : List Diagnostic := (rest.take 1).filterMap Token.problem?

/-- Nothing is reported of a valid token, or of the end. -/
theorem problemInView_valid (valid : ∀ token ∈ rest.head?, token.kind ≠ .invalid) :
    problemInView rest = [] := by
  cases rest with
  | nil => rfl
  | cons token behind =>
    have none : token.problem? = none := Token.problem?_valid (valid token rfl)
    rw [problemInView, List.take_succ_cons, List.filterMap_cons_none none]
    rfl

/-- Of an invalid token its problem is reported. -/
theorem problemInView_invalid {token : Token} (first : rest.head? = some token)
    (invalid : token.kind = .invalid) :
    ∃ report, token.Problem report ∧ problemInView rest = [report] := by
  obtain ⟨behind, rfl⟩ := List.head?_eq_some_iff.mp first
  obtain ⟨report, found, problem⟩ := Token.problem?_invalid invalid
  refine ⟨report, problem, ?_⟩
  rw [problemInView, List.take_succ_cons, List.filterMap_cons_some found]
  rfl

/-- While valid tokens are used up only the token that is in view behind them has a problem. -/
theorem problems_usesUp (used : UsesUp tokens rest) :
    (tokens.take 1).filterMap Token.problem? ++
      (Session.cameIntoView tokens rest).filterMap Token.problem? = problemInView rest := by
  obtain ⟨read, rfl, valid⟩ := used
  -- The first token was in view from the start, and one more has come into view for each one read.
  have viewed : (read ++ rest).take 1 ++ Session.cameIntoView (read ++ rest) rest =
      read ++ rest.take 1 := by
    rw [Session.cameIntoView, List.length_append, Nat.add_sub_cancel, ← List.take_add,
      Nat.add_comm, List.take_length_add_append]
  have silent : read.filterMap Token.problem? = [] :=
    List.filterMap_eq_nil_iff.mpr fun token member =>
      Token.problem?_valid (valid token member)
  rw [← List.filterMap_append, viewed, List.filterMap_append, silent]
  rfl

/-- The bracket is open before the rest of the tokens: what stands between them is complete. -/
def OpenBefore (tokens rest : List Token) (opener : Token) : Prop :=
  (opener.kind = .mark .openParen ∨ opener.kind = .mark .openBracket) ∧
    ∃ before inside room values, tokens = before ++ opener :: (inside ++ rest) ∧
      Writing .arguments room values inside

/-- The bracket is open behind other tokens as well. -/
theorem OpenBefore.behind {opener : Token} (opened : OpenBefore tokens rest opener)
    (before : List Token) : OpenBefore (before ++ tokens) rest opener := by
  obtain ⟨bracket, earlier, inside, room, values, rfl, writing⟩ := opened
  exact ⟨bracket, before ++ earlier, inside, room, values, (List.append_assoc ..).symm, writing⟩

/-- What is reported in all of a parse that stopped at the rest of the tokens. -/
inductive Reported (context : ParseContext) (tokens rest : List Token) :
    SyntaxError → List Diagnostic → Prop where
  /-- At an invalid token its problem is all. -/
  | invalid {token : Token} {report : Diagnostic} :
    rest.head? = some token → token.Problem report →
    Reported context tokens rest (.invalidToken token.start) [report]
  /-- What was found is no expression. -/
  | expression {span : Span} {text : String} :
    Failure.found context rest = (span, text) →
    Reported context tokens rest (.expectedExpression span.start text)
      [.of span .expectedExpression [text]]
  /-- What was found is no selector. -/
  | selector {span : Span} {text : String} :
    Failure.found context rest = (span, text) →
    Reported context tokens rest (.expectedSelector span.start text)
      [.of span .expectedSelector [text]]
  /-- What was found does not close the bracket, at which a note is left. -/
  | unclosed {span : Span} {text : String} {close : Mark} {opener : Token} :
    Failure.found context rest = (span, text) → OpenBefore tokens rest opener →
    Reported context tokens rest (.unclosedDelimiter opener.start opener.text)
      [.of span .expectedClosing [close.spelling, text],
        .of opener.span .unclosedDelimiter [opener.text]]
  /-- A number is too large, whatever is in view behind it. -/
  | number (token : Token) (digits : String) :
    Reported context tokens rest (.integerTooLarge token.start digits)
      (problemInView rest ++ (Failure.integerTooLarge token digits).reports)
  /-- The nesting limit is passed, whatever is in view. -/
  | depth {span : Span} {text : String} :
    Failure.found context rest = (span, text) →
    Reported context tokens rest (.nestingTooDeep span.start context.limit)
      (problemInView rest ++ [.of span .nestedTooDeeply [toString context.limit]])

namespace Reported

variable {error : SyntaxError} {entries : List Diagnostic}

/-- Other tokens before those that are read change nothing. -/
theorem behind (reported : Reported context tokens rest error entries) (before : List Token) :
    Reported context (before ++ tokens) rest error entries := by
  cases reported with
  | invalid first problem => exact .invalid first problem
  | expression found => exact .expression found
  | selector found => exact .selector found
  | unclosed found opened => exact .unclosed found (opened.behind before)
  | number token digits => exact .number token digits
  | depth found => exact .depth found

/-- A failure is reported unless the token in view is invalid, which was reported before. -/
theorem unlessInvalid (otherwise : Reported context tokens rest failure.error failure.reports) :
    Reported context tokens rest (Failure.unlessInvalid rest failure).error
      (problemInView rest ++ (Failure.unlessInvalid rest failure).reports) := by
  cases rest with
  | nil => exact otherwise
  | cons token behind =>
    unfold Failure.unlessInvalid
    dsimp only
    split
    · next invalid =>
      have first : (token :: behind).head? = some token := rfl
      obtain ⟨report, problem, view⟩ := problemInView_invalid first invalid
      rw [view]
      exact .invalid first problem
    · next valid =>
      have view : problemInView (token :: behind) = [] :=
        problemInView_valid fun _ first => Option.some.inj first ▸ valid
      rw [view]
      exact otherwise

end Reported

/-- A failure reports what its error says. -/
theorem Fails.reported (fails : Fails context goal room tokens failure rest completed) :
    Reported context tokens rest failure.error (problemInView rest ++ failure.reports) := by
  induction fails with
  | too_deep => exact .depth rfl
  | expression _ ih => exact ih
  | primary _ ih => exact ih
  | chain parsed _ ih =>
    obtain ⟨used, rfl, _⟩ := parsed.usesUp
    exact ih.behind used
  | @unary_too_deep token _ _ _ => exact .behind (.depth rfl) [token]
  | @unary _ token _ _ _ _ _ _ _ ih => exact ih.behind [token]
  | descend _ _ _ ih => exact ih
  | run _ _ parsed _ ih =>
    obtain ⟨used, rfl, _⟩ := parsed.usesUp
    exact ih.behind used
  | @operand _ token _ _ _ _ _ _ _ _ ih => exact ih.behind [token]
  | @operator _ token _ _ _ _ _ _ _ _ _ parsed _ ih =>
    obtain ⟨used, rfl, _⟩ := parsed.usesUp
    exact ih.behind (token :: used)
  | link _ ih => exact ih
  | chain_link linked _ ih =>
    obtain ⟨used, rfl, _⟩ := linked.usesUp
    exact ih.behind used
  | @index _ _ opener _ _ _ _ _ _ ih => exact ih.behind [opener]
  | unclosed_index opens parsed _ =>
    obtain ⟨inside, rfl, position, _⟩ := parsed.sound
    have opened := Writing.last_argument position
    exact .unlessInvalid (.unclosed rfl ⟨.inr opens, [], inside, _, _, rfl, opened⟩)
  | @call _ _ opener _ _ _ _ _ _ _ ih => exact ih.behind [opener]
  | unclosed_call opens _ parsed _ =>
    obtain ⟨inside, rfl, arguments⟩ := parsed.sound
    exact .unlessInvalid (.unclosed rfl ⟨.inl opens, [], inside, _, _, rfl, arguments⟩)
  | selector _ _ => exact .unlessInvalid (.selector rfl)
  | argument _ ih => exact ih
  | @later_argument _ _ comma _ middle _ _ _ parsed _ _ ih =>
    obtain ⟨used, rfl, _⟩ := parsed.usesUp
    have reported := ih.behind (used ++ [comma])
    rwa [List.append_assoc] at reported
  | no_primary _ => exact .unlessInvalid (.expression rfl)
  | too_large _ _ => exact .number _ _
  | @group _ opener _ _ _ _ _ _ ih => exact ih.behind [opener]
  | unclosed_group opens parsed _ =>
    obtain ⟨inside, rfl, inner, _⟩ := parsed.sound
    have opened := Writing.last_argument inner
    exact .unlessInvalid (.unclosed rfl ⟨.inl opens, [], inside, _, _, rfl, opened⟩)

/-- What a program reports of its failure, if it has one. -/
def ProgramOutcome.reports (outcome : ProgramOutcome) : List Diagnostic :=
  match outcome.stop with
  | none => []
  | some (failure, _) => failure.reports

/-- A program that stops reports what its error says. -/
theorem parseProgram_reported
    (stopped : (parseProgram context tokens).stop = some (failure, completed)) :
    Reported context tokens (parseProgram context tokens).rest failure.error
      (problemInView (parseProgram context tokens).rest ++ failure.reports) := by
  fun_induction parseProgram context tokens with
  | case1 => cases stopped
  | case2 token tail failed rest others _ stuck =>
    cases stopped
    have follows := parseExpression_follows context context.limit (token :: tail)
    rw [stuck] at follows
    exact Fails.reported follows
  | case3 token tail root middle shorter parsed later ih =>
    have follows := parseExpression_follows context context.limit (token :: tail)
    rw [parsed] at follows
    obtain ⟨used, split, _⟩ := Succeeds.usesUp follows
    rw [split]
    exact (ih stopped).behind used

/-- A session reports what comes into view, and behind it why its program stopped. -/
theorem Session.program_log (session : Session) :
    session.program.2.log.entries =
      (session.moveOn session.outcome.rest).log.entries ++ session.outcome.reports := by
  cases stop : (parseProgram session.context session.ahead).stop with
  | none =>
    simp only [program, outcome, ProgramOutcome.reports, stop, moveOn, List.append_nil]
  | some found =>
    simp only [program, outcome, ProgramOutcome.reports, stop, moveOn, fail,
      DiagnosticLog.reportAll]

/-- The log of a source holds the problem of the token in view and the failure of the program. -/
theorem Source.log_entries (source : Source) (limit : Nat) :
    (Session.start source limit).program.2.log.entries =
      problemInView (source.outcome limit).rest ++ (source.outcome limit).reports := by
  have used : UsesUp source.tokenStream.tokens (source.outcome limit).rest :=
    parseProgram_usesUp _ _
  have viewed : ((Session.start source limit).moveOn (source.outcome limit).rest).log.entries =
      problemInView (source.outcome limit).rest := problems_usesUp used
  rw [Session.program_log]
  exact congrArg (· ++ _) viewed

/-- A parse that succeeds reports nothing. -/
theorem Source.log_of_ok {source : Source} {limit : Nat}
    (success : (Session.start source limit).program.1 = .ok ()) :
    (Session.start source limit).program.2.log.entries = [] := by
  have finished : (source.outcome limit).stop = none := (Session.program_ok _).mp success
  have rest : (source.outcome limit).rest = [] := parseProgram_finished finished
  rw [source.log_entries, rest, ProgramOutcome.reports, finished]
  rfl

/-- A parse that fails reports what its error says. -/
theorem Source.log_of_error {source : Source} {limit : Nat} {error : SyntaxError}
    (stopped : (Session.start source limit).program.1 = .error error) :
    Reported ⟨limit, source.tokenStream.stop⟩ source.tokenStream.tokens
      (Session.start source limit).program.2.ahead error
      (Session.start source limit).program.2.log.entries := by
  obtain ⟨failure, completed, stop, rfl⟩ := Session.program_error stopped
  have reports : (source.outcome limit).reports = failure.reports := by
    have stop : (source.outcome limit).stop = _ := stop
    rw [ProgramOutcome.reports, stop]
  rw [source.log_entries, reports, Session.program_ahead]
  exact parseProgram_reported stop

/-- The numbers that what is reported last may have. -/
def SyntaxError.codes : SyntaxError → List Nat
  | .expectedExpression .. => [2001]
  | .expectedSelector .. => [2004]
  | .unclosedDelimiter .. => [2003]
  | .integerTooLarge .. => [2005]
  | .nestingTooDeep .. => [2006]
  | .invalidToken .. => [1001, 1002, 1003]

/-- The columns of the token in view, or of the end. -/
def inView (stop : Position) (rest : List Token) : Span :=
  (rest.head?.map Token.span).getD (stop.span 0)

/-- The report is a note at a bracket that is open, and what was expected in view is reported right
before it. -/
structure NotesOpener (stop : Position) (tokens rest : List Token) (earlier : List Diagnostic)
    (note : Diagnostic) : Prop where
  /-- The note is no error. -/
  severity : note.severity = .info
  /-- It stands at a bracket that is open before the rest. -/
  opener : ∃ opener, OpenBefore tokens rest opener ∧ note.span = opener.span
  /-- What was expected is reported at the token in view. -/
  expected : ∃ others report, earlier = others ++ [report] ∧ report.code = 2002 ∧
    report.span = inView stop rest

/-- What was found is what is in view. -/
theorem found_inView {span : Span} {text : String}
    (found : Failure.found context rest = (span, text)) : span = inView context.stop rest := by
  cases rest <;> cases found <;> rfl

/-- What a failed parse reports last belongs to its error. -/
theorem Reported.last {error : SyntaxError} {entries : List Diagnostic}
    (reported : Reported context tokens rest error entries) :
    ∃ earlier last, entries = earlier ++ [last] ∧ last.span.start = error.position ∧
      last.code ∈ error.codes ∧
      ((∃ place delimiter, error = .unclosedDelimiter place delimiter) →
        NotesOpener context.stop tokens rest earlier last) := by
  cases reported with
  | invalid _ problem => exact ⟨[], _, rfl, problem.start, problem.code, nofun⟩
  | expression _ => exact ⟨[], _, rfl, rfl, List.mem_singleton_self _, nofun⟩
  | selector _ => exact ⟨[], _, rfl, rfl, List.mem_singleton_self _, nofun⟩
  | unclosed found opened =>
    refine ⟨[_], _, rfl, rfl, List.mem_singleton_self _, fun _ => ⟨rfl, ⟨_, opened, rfl⟩, ?_⟩⟩
    exact ⟨[], _, rfl, rfl, found_inView found⟩
  | number token digits => exact ⟨_, _, rfl, rfl, List.mem_singleton_self _, nofun⟩
  | depth _ => exact ⟨_, _, rfl, rfl, List.mem_singleton_self _, nofun⟩

/-- A parse succeeds exactly if nothing is reported, and no source with an invalid token is parsed.
What is reported last when it fails stands where the error points and has a number of the error. For
a bracket that is not closed that is a note, right behind what was expected in its place. -/
theorem parser_reports_result (source : Source) (limit : Nat) :
    ((Session.start source limit).program.1 = .ok () ↔
      (Session.start source limit).program.2.log.entries = []) ∧
    ((∃ token ∈ source.tokenStream.tokens, token.kind = .invalid) →
      (Session.start source limit).program.1 ≠ .ok ()) ∧
    ∀ error, (Session.start source limit).program.1 = .error error →
      ∃ earlier last,
        (Session.start source limit).program.2.log.entries = earlier ++ [last] ∧
        last.span.start = error.position ∧ last.code ∈ error.codes ∧
        ((∃ place delimiter, error = .unclosedDelimiter place delimiter) →
          NotesOpener source.tokenStream.stop source.tokenStream.tokens
            (Session.start source limit).program.2.ahead earlier last) := by
  refine ⟨⟨Source.log_of_ok, fun silent => ?_⟩, ?_, fun error stopped => ?_⟩
  · cases result : (Session.start source limit).program.1 with
    | ok _ => rfl
    | error error =>
      obtain ⟨_, _, entries, _⟩ := (Source.log_of_error result).last
      rw [silent] at entries
      exact absurd entries.symm (List.append_ne_nil_of_right_ne_nil _ (List.cons_ne_nil _ _))
  · rintro ⟨token, member, invalid⟩ success
    have program := (source.program_iff limit _).mpr ⟨success, rfl⟩
    exact program.valid token member invalid
  · exact (Source.log_of_error stopped).last

/-- A bracket around two numbers is not closed, and that is noted at the bracket. -/
theorem unclosed_index_is_noted :
    (Session.start ⟨0, "open.sb", "a[1 2"⟩ 8).program.1 =
      .error (.unclosedDelimiter ⟨1, 2⟩ "[") ∧
    ∃ earlier last,
      (Session.start ⟨0, "open.sb", "a[1 2"⟩ 8).program.2.log.entries = earlier ++ [last] ∧
      last.span.start = ⟨1, 2⟩ ∧ last.code ∈ [2003] ∧
      NotesOpener (⟨0, "open.sb", "a[1 2"⟩ : Source).tokenStream.stop
        (⟨0, "open.sb", "a[1 2"⟩ : Source).tokenStream.tokens
        (Session.start ⟨0, "open.sb", "a[1 2"⟩ 8).program.2.ahead earlier last := by
  obtain ⟨_, _, failed⟩ := parser_reports_result ⟨0, "open.sb", "a[1 2"⟩ 8
  have stopped : (Session.start ⟨0, "open.sb", "a[1 2"⟩ 8).program.1 =
      .error (.unclosedDelimiter ⟨1, 2⟩ "[") := by decide +kernel
  obtain ⟨earlier, last, entries, start, code, noted⟩ := failed _ stopped
  exact ⟨stopped, earlier, last, entries, start, code, noted ⟨_, _, rfl⟩⟩

/-- How serious the reports of a failed parse ought to be, in order: one error, and for a bracket
that is not closed a note behind it. -/
def SyntaxError.severities : SyntaxError → List Severity
  | .unclosedDelimiter .. => [.error, .info]
  | _ => [.error]

namespace Reported

variable {error : SyntaxError} {entries : List Diagnostic}

/-- One error is reported if the parse stopped at a token, or behind no invalid one. -/
theorem once (reported : Reported context tokens rest error entries)
    (view : error.AtToken ∨ ∀ token ∈ rest.head?, token.kind ≠ .invalid) :
    entries.map Diagnostic.severity = error.severities := by
  cases reported with
  | invalid _ problem => exact congrArg (· :: []) problem.severity
  | expression _ | selector _ | unclosed _ _ => rfl
  | number _ _ | depth _ =>
    rw [problemInView_valid (view.resolve_left id)]
    rfl

/-- Two errors are reported if something else stopped the parse before an invalid token. -/
theorem twice (reported : Reported context tokens rest error entries) (hasty : ¬ error.AtToken)
    {token : Token} (first : rest.head? = some token) (invalid : token.kind = .invalid) :
    entries.map Diagnostic.severity = [.error, .error] := by
  obtain ⟨report, problem, view⟩ := problemInView_invalid first invalid
  cases reported with
  | invalid _ _ | expression _ | selector _ | unclosed _ _ => exact absurd trivial hasty
  | number _ _ | depth _ =>
    rw [view, List.singleton_append, List.map_cons, problem.severity]
    rfl

end Reported

/-- A failed parse reports one error if it stopped at a token, or before none that is invalid. If
the nesting limit or the size of a number stopped it before an invalid token it reports two. -/
theorem parser_reports_error_once (source : Source) (limit : Nat) (error : SyntaxError)
    (stopped : (Session.start source limit).program.1 = .error error) :
    (error.AtToken ∨ (∀ token ∈ (Session.start source limit).program.2.ahead.head?,
        token.kind ≠ .invalid) →
      (Session.start source limit).program.2.log.entries.map Diagnostic.severity =
        error.severities) ∧
    (¬ error.AtToken → (∃ token ∈ (Session.start source limit).program.2.ahead.head?,
        token.kind = .invalid) →
      (Session.start source limit).program.2.log.entries.map Diagnostic.severity =
        [.error, .error]) := by
  have reported := Source.log_of_error stopped
  constructor
  · exact reported.once
  · rintro hasty ⟨token, first, invalid⟩
    exact reported.twice hasty first invalid

/-- A bracket that is not closed is one error with a note. -/
theorem unclosed_index_is_one_error :
    (Session.start ⟨0, "open.sb", "a[1 2"⟩ 8).program.1 =
      .error (.unclosedDelimiter ⟨1, 2⟩ "[") ∧
    (Session.start ⟨0, "open.sb", "a[1 2"⟩ 8).program.2.log.entries.map Diagnostic.severity =
      [.error, .info] := by
  have stopped : (Session.start ⟨0, "open.sb", "a[1 2"⟩ 8).program.1 =
      .error (.unclosedDelimiter ⟨1, 2⟩ "[") := by decide +kernel
  exact ⟨stopped, (parser_reports_error_once _ _ _ stopped).1 (.inl trivial)⟩

/-- An operand that is nested too deeply and malformed is two errors. -/
theorem deep_malformed_operand_is_two_errors :
    (Session.start ⟨0, "deep.sb", "-@"⟩ 1).program.1 = .error (.nestingTooDeep ⟨1, 2⟩ 1) ∧
    (Session.start ⟨0, "deep.sb", "-@"⟩ 1).program.2.log.entries.map Diagnostic.code =
      [1002, 2006] ∧
    (Session.start ⟨0, "deep.sb", "-@"⟩ 1).program.2.log.entries.map Diagnostic.severity ≠
      (SyntaxError.nestingTooDeep ⟨1, 2⟩ 1).severities := by
  decide +kernel

end Cascade
