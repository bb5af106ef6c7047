import Cascade.Proofs.MalformedText
import Cascade.Proofs.ParserCalls
import Cascade.Proofs.SpannedText
import Cascade.Proofs.TemplateFilling

/-!
# The forms of reports

Whatever is asked of a parser, what it reports has one of seven forms: the problem of a malformed
token, one of four messages about the token found, which may be the end of the tokens, a note at a
bracket, and a message about a number. So a report stands at a token of the source or at the end of
the tokens, and what its message quotes is text of the source that stands on one line.

Main definitions:

* `Filed`, the forms of reports;
* `Session.Files`, the invariant of a session that every call keeps.
-/
namespace Cascade

variable {context : ParseContext} {goal : Goal} {room : Nat} {tokens rest : List Token}
  {completed : List (Expr Span)} {failure : Failure} {report : Diagnostic}

/-- The reports that are made of a source with the tokens. -/
inductive Filed (context : ParseContext) (tokens : List Token) : Diagnostic → Prop where
  /-- The problem of a malformed token. -/
  | problem {token : Token} {report : Diagnostic} :
    token ∈ tokens → token.problem? = some report → Filed context tokens report
  /-- What was found is no expression. -/
  | expression {rest : List Token} : rest <:+ tokens →
    Filed context tokens (.of (Failure.found context rest).1 .expectedExpression
      [(Failure.found context rest).2])
  /-- What was found is no selector. -/
  | selector {rest : List Token} : rest <:+ tokens →
    Filed context tokens (.of (Failure.found context rest).1 .expectedSelector
      [(Failure.found context rest).2])
  /-- What was found does not close a bracket. -/
  | closing {rest : List Token} {close : Mark} : close ∈ [.closeParen, .closeBracket] →
    rest <:+ tokens →
    Filed context tokens (.of (Failure.found context rest).1 .expectedClosing
      [close.spelling, (Failure.found context rest).2])
  /-- The nesting limit is passed at what was found. -/
  | depth {rest : List Token} : rest <:+ tokens →
    Filed context tokens (.of (Failure.found context rest).1 .nestedTooDeeply
      [toString context.limit])
  /-- The bracket that is not closed. -/
  | opener {token : Token} : token ∈ tokens →
    Filed context tokens (.of token.span .unclosedDelimiter [token.text])
  /-- The number is too large. -/
  | number {token : Token} {digits : String} : token ∈ tokens → token.lexeme = .number digits →
    Filed context tokens ((Diagnostic.of token.span .integerTooLarge [digits]).withHint
      s!"the largest integer literal is {UInt64.size - 1}")

namespace Filed

/-- More tokens in front change no form. -/
theorem mono (filed : Filed context rest report) (late : rest <:+ tokens) :
    Filed context tokens report := by
  cases filed with
  | problem member problem => exact .problem (late.subset member) problem
  | expression behind => exact .expression (behind.trans late)
  | selector behind => exact .selector (behind.trans late)
  | closing closes behind => exact .closing closes (behind.trans late)
  | depth behind => exact .depth (behind.trans late)
  | opener member => exact .opener (late.subset member)
  | number member number => exact .number (late.subset member) number

/-- A failure that an invalid token hides reports nothing. -/
theorem of_unlessInvalid (filed : ∀ report ∈ failure.reports, Filed context tokens report) :
    ∀ report ∈ (Failure.unlessInvalid rest failure).reports, Filed context tokens report := by
  unfold Failure.unlessInvalid
  split
  · exact filed
  · split
    · exact List.forall_mem_nil _
    · exact filed

end Filed

/-- What is reported of a bracket that is not closed: what was found, and the bracket. -/
theorem Failure.unclosed_filed {close : Mark} {opener : Token}
    (closes : close ∈ [.closeParen, .closeBracket]) (opened : opener ∈ tokens)
    (late : rest <:+ tokens) :
    ∀ report ∈ (Failure.unclosed context close opener rest).reports,
      Filed context tokens report := by
  apply Filed.of_unlessInvalid
  rw [List.forall_mem_cons]
  exact ⟨.closing closes late, List.forall_mem_singleton.mpr (.opener opened)⟩

/-- What a failure reports has one of the forms. -/
theorem Fails.filed (fails : Fails context goal room tokens failure rest completed) :
    ∀ report ∈ failure.reports, Filed context tokens report := by
  have first {token : Token} {tokens : List Token} : tokens <:+ token :: tokens :=
    List.suffix_cons token tokens
  induction fails with
  | too_deep => exact List.forall_mem_singleton.mpr (.depth (List.suffix_refl _))
  | expression _ ih | primary _ ih | descend _ _ _ ih | link _ ih | argument _ ih => exact ih
  | unary_too_deep _ => exact List.forall_mem_singleton.mpr (.depth first)
  | unary _ _ ih | operand _ _ ih | index _ _ ih | call _ _ _ ih | group _ _ ih =>
    exact fun report member => (ih report member).mono first
  | chain parsed _ ih | run _ _ parsed _ ih | chain_link parsed _ ih =>
    exact fun report member => (ih report member).mono parsed.usesUp.suffix
  | operator _ parsed _ ih =>
    exact fun report member => (ih report member).mono (parsed.usesUp.suffix.trans first)
  | later_argument parsed _ _ ih =>
    exact fun report member => (ih report member).mono (first.trans parsed.usesUp.suffix)
  | unclosed_index _ parsed _ | unclosed_call _ _ parsed _ | unclosed_group _ parsed _ =>
    exact Failure.unclosed_filed (by decide) List.mem_cons_self (parsed.usesUp.suffix.trans first)
  | selector _ _ => exact .of_unlessInvalid (List.forall_mem_singleton.mpr (.selector first))
  | no_primary _ =>
    exact .of_unlessInvalid (List.forall_mem_singleton.mpr (.expression (List.suffix_refl _)))
  | too_large number _ =>
    exact List.forall_mem_singleton.mpr (.number List.mem_cons_self number)

/-- What the failure of a program reports has one of the forms. -/
theorem parseProgram_filed
    (stopped : (parseProgram context tokens).stop = some (failure, completed)) :
    ∀ report ∈ failure.reports, Filed context tokens report := by
  fun_induction parseProgram context tokens with
  | case1 => cases stopped
  | case2 token tail failed rest others _ stuck =>
    cases stopped
    have follows := parseExpression_follows context context.limit (token :: tail)
    rw [stuck] at follows
    exact Fails.filed follows
  | case3 token tail root middle shorter parsed later ih =>
    have follows := parseExpression_follows context context.limit (token :: tail)
    rw [parsed] at follows
    exact fun report member => (ih stopped report member).mono (Succeeds.usesUp follows).suffix

/-- What was found is a token, or the end of the tokens. -/
theorem Failure.found_place (context : ParseContext) (late : rest <:+ tokens) :
    (∃ token ∈ tokens, (Failure.found context rest).1 = token.span) ∨
      (Failure.found context rest).1 = context.stop.span 0 := by
  cases rest with
  | nil => exact .inr rfl
  | cons token behind => exact .inl ⟨token, late.subset List.mem_cons_self, rfl⟩

/-- Every report has the span of a token, or it is one of the parser at the end of the tokens. -/
theorem Filed.place (filed : Filed context tokens report) :
    (∃ token ∈ tokens, report.span = token.span) ∨
      report.span = context.stop.span 0 ∧ report.code ∈ [2001, 2002, 2004, 2006] := by
  cases filed with
  | problem member problem => exact .inl ⟨_, member, Token.problem?_span problem⟩
  | opener member => exact .inl ⟨_, member, rfl⟩
  | number member _ => exact .inl ⟨_, member, rfl⟩
  | expression late | selector late | closing _ late | depth late =>
    exact (Failure.found_place context late).imp_right fun ended => ⟨ended, List.elem_iff.mp rfl⟩

/-- A lexeme on one line reads in a message as text on one line. -/
theorem Lexeme.description_oneLine {lexeme : Lexeme} (oneLine : '\n' ∉ lexeme.written) :
    '\n' ∉ lexeme.description.toList := by
  cases lexeme with
  | mark sign =>
    have plain : '\n' ∉ sign.spelling.toList := oneLine
    simp [description, kind, TokenKind.description, toString, plain]
  | keyword word =>
    have plain : '\n' ∉ word.spelling.toList := oneLine
    simp [description, kind, TokenKind.description, toString, plain]
  | string content =>
    show '\n' ∉ "string literal".toList
    decide
  | identifier text | number text =>
    have plain : '\n' ∉ text.toList := oneLine
    simp [description, kind, TokenKind.description, Lexeme.text, payload?, toString, plain]
  | unterminated text =>
    have plain : '\n' ∉ text.toList := List.not_mem_of_not_mem_cons oneLine
    simp [description, kind, TokenKind.description, Lexeme.text, payload?, toString, plain]
  | stray character =>
    have plain : '\n' ≠ character := List.ne_of_not_mem_cons oneLine
    simp [description, kind, TokenKind.description, Lexeme.text, payload?, toString, plain]

/-- A lexeme on one line has its text on one line. -/
theorem Lexeme.text_oneLine {lexeme : Lexeme} (oneLine : '\n' ∉ lexeme.written) :
    '\n' ∉ lexeme.text.toList := by
  cases lexeme with
  | mark sign => exact oneLine
  | keyword word => exact oneLine
  | identifier text | number text => exact oneLine
  | string content =>
    intro member
    exact oneLine (List.mem_cons_of_mem _ (List.mem_append_left _ member))
  | unterminated content => exact List.not_mem_of_not_mem_cons oneLine
  | stray character =>
    have single : (Lexeme.stray character).text.toList = [character] :=
      String.toList_singleton character
    rwa [single]

/-- An escaped character stands on one line. -/
theorem escapeAscii_oneLine {c : Char} (ascii : c.toNat < 128) :
    '\n' ∉ (Text.escapeAscii c).toList := by
  have all : ∀ code < 128, '\n' ∉ (Text.escapeAscii (Char.ofNat code)).toList := by
    decide +kernel
  have plain := all c.toNat ascii
  rwa [Char.ofNat_toNat] at plain

/-- The messages of the front end. -/
def Message.all : List Message :=
  [.invalidCharacter, .unexpectedCharacter, .unterminatedString, .expectedExpression,
    .expectedClosing, .unclosedDelimiter, .expectedSelector, .integerTooLarge, .nestedTooDeeply]

/-- The report gives the message with the arguments, each of which stands on one line. -/
structure Diagnostic.Gives (report : Diagnostic) (message : Message) (arguments : List String) :
    Prop where
  /-- It has the number of the message. -/
  code : report.code = message.code
  /-- Its text is the template with the arguments put in. -/
  text : report.message = Template.fill message.template arguments
  /-- No argument goes over a line end. -/
  oneLine : ∀ argument ∈ arguments, '\n' ∉ argument.toList
  /-- There are two arguments only for a bracket, the first of them its mark. -/
  few : arguments.length ≤ 1 ∨
    message = .expectedClosing ∧ ∃ close ∈ [Mark.closeParen, Mark.closeBracket], ∃ found,
      arguments = [close.spelling, found]

namespace Diagnostic.Gives

/-- A message without arguments. -/
theorem none {message : Message} (code : report.code = message.code)
    (text : report.message = Template.fill message.template []) : report.Gives message [] :=
  ⟨code, text, List.forall_mem_nil _, .inl (Nat.zero_le 1)⟩

/-- A message with one argument. -/
theorem one {message : Message} {argument : String} (code : report.code = message.code)
    (text : report.message = Template.fill message.template [argument])
    (oneLine : '\n' ∉ argument.toList) : report.Gives message [argument] :=
  ⟨code, text, List.forall_mem_singleton.mpr oneLine, .inl (Nat.le_refl 1)⟩

end Diagnostic.Gives

/-- The problem of a token on one line gives a message of the front end. -/
theorem Token.problem?_gives {token : Token} (problem : token.problem? = some report)
    (oneLine : '\n' ∉ token.lexeme.written) :
    ∃ message ∈ Message.all, ∃ arguments, report.Gives message arguments := by
  obtain ⟨lexeme, start⟩ := token
  cases lexeme with
  | unterminated content =>
    cases problem
    exact ⟨.unterminatedString, by decide, [], .none rfl rfl⟩
  | stray character =>
    unfold problem? Lexeme.problem? at problem
    dsimp only at problem
    split at problem
    · next ascii =>
      cases problem
      exact ⟨.unexpectedCharacter, by decide, _, .one rfl rfl (escapeAscii_oneLine ascii)⟩
    · have plain : '\n' ∉ character.toString.toList := by
        rw [show character.toString.toList = [character] from String.toList_singleton character]
        exact oneLine
      split at problem
      · cases problem
        exact ⟨.invalidCharacter, by decide, _, .one rfl rfl plain⟩
      · cases problem
        exact ⟨.invalidCharacter, by decide, _, .one rfl rfl plain⟩
  | _ => cases problem

/-- Every report gives a message of the front end. -/
theorem Filed.gives (filed : Filed context tokens report)
    (lines : ∀ token ∈ tokens, '\n' ∉ token.lexeme.written) :
    ∃ message ∈ Message.all, ∃ arguments, report.Gives message arguments := by
  have found {rest : List Token} (late : rest <:+ tokens) :
      '\n' ∉ (Failure.found context rest).2.toList := by
    cases rest with
    | nil =>
      show '\n' ∉ "end of input".toList
      decide
    | cons token behind =>
      exact Lexeme.description_oneLine (lines token (late.subset List.mem_cons_self))
  cases filed with
  | @problem token _ member problem => exact Token.problem?_gives problem (lines token member)
  | expression late => exact ⟨.expectedExpression, by decide, _, .one rfl rfl (found late)⟩
  | selector late => exact ⟨.expectedSelector, by decide, _, .one rfl rfl (found late)⟩
  | @closing _ close closes late =>
    have marks : ∀ close ∈ [Mark.closeParen, Mark.closeBracket], '\n' ∉ close.spelling.toList := by
      decide
    have mark := marks close closes
    refine ⟨.expectedClosing, by decide, _, rfl, rfl, ?_, .inr ⟨rfl, close, closes, _, rfl⟩⟩
    exact List.forall_mem_cons.mpr ⟨mark, List.forall_mem_singleton.mpr (found late)⟩
  | depth late =>
    refine ⟨.nestedTooDeeply, by decide, _, .one rfl rfl ?_⟩
    intro member
    exact absurd (Template.isNamePart_of_mem_toString member) (by decide)
  | @opener token member =>
    exact ⟨.unclosedDelimiter, by decide, _, .one rfl rfl (Lexeme.text_oneLine (lines token member))⟩
  | @number token digits member number =>
    have oneLine := lines token member
    rw [number] at oneLine
    exact ⟨.integerTooLarge, by decide, _, .one rfl rfl oneLine⟩

/-- What a message of the front end gives stands on one line. -/
theorem Diagnostic.Gives.message_oneLine {message : Message} {arguments : List String}
    (gives : report.Gives message arguments) (listed : message ∈ Message.all) :
    '\n' ∉ report.message.toList := by
  have templates : ∀ message ∈ Message.all, '\n' ∉ message.template.toList := by
    decide +kernel
  rw [gives.text, Template.fill, String.toList_ofList]
  intro member
  rcases Template.mem_fillFrom member with kept | ⟨argument, given, inside⟩
  · exact templates message listed kept
  · exact gives.oneLine argument given inside

/-- In what a message of the front end gives the arguments were put in all at once: a mark brings in
no placeholder, and every other argument is the last. -/
theorem Diagnostic.Gives.substituted {message : Message} {arguments : List String}
    (gives : report.Gives message arguments) :
    Template.Substituted (Template.values arguments) message.template.toList
      report.message.toList := by
  rw [gives.text]
  rcases gives.few with few | ⟨rfl, close, closes, found, rfl⟩
  · match arguments, few with
    | [], _ =>
      have unfilled : Template.fill message.template [] = message.template := String.ofList_toList
      rw [unfilled]
      exact .of_none (fun _ => rfl) _
    | [argument], _ => exact Template.substituted_singleton _ argument
  · apply Template.substituted_fill
    intro count inside _
    match count, inside with
    | 0, _ => rfl
    | 1, _ =>
      have once : ∀ close ∈ [Mark.closeParen, Mark.closeBracket],
          Template.occurrences 1 (Template.fill Message.expectedClosing.template
            [close.spelling]).toList =
          Template.occurrences 1 Message.expectedClosing.template.toList := by decide +kernel
      exact once close closes

namespace Session

/-- The session is at a place in the tokens, and what it has reported has the forms of reports. -/
structure Files (tokens : List Token) (session : Session) : Prop where
  /-- The tokens that are left are the last ones. -/
  ahead : session.ahead <:+ tokens
  /-- Every report has one of the forms. -/
  log : ∀ report ∈ session.log.entries, Filed session.context tokens report

namespace Files

variable {session : Session}

/-- A session that begins has reported at most the problem of the first token. -/
theorem start (source : Source) (limit : Nat) :
    (Session.start source limit).Files source.tokenStream.tokens where
  ahead := List.suffix_refl _
  log := by
    intro report member
    obtain ⟨token, first, problem⟩ := List.mem_filterMap.mp member
    exact .problem (List.mem_of_mem_take first) problem

/-- Tokens that come into view report their problems. -/
theorem moveOn (files : session.Files tokens) (late : rest <:+ session.ahead) :
    (session.moveOn rest).Files tokens where
  ahead := late.trans files.ahead
  log := by
    intro report member
    obtain earlier | viewed := List.mem_append.mp member
    · exact files.log report earlier
    · obtain ⟨token, came, problem⟩ := List.mem_filterMap.mp viewed
      have ahead := List.mem_of_mem_drop (List.mem_of_mem_take came)
      exact .problem (files.ahead.subset ahead) problem

/-- A failure adds its reports. -/
theorem fail (files : session.Files tokens)
    (filed : ∀ report ∈ failure.reports, Filed session.context tokens report) :
    (session.fail failure completed).Files tokens where
  ahead := files.ahead
  log := by
    intro report member
    obtain earlier | added := List.mem_append.mp member
    · exact files.log report earlier
    · exact filed report added

/-- What is stored does not matter. -/
theorem store (files : session.Files tokens) (ast : Ast) :
    ({ session with ast } : Session).Files tokens := ⟨files.ahead, files.log⟩

/-- A call keeps the forms of reports. -/
theorem perform (files : session.Files tokens) (call : Machine.Call) :
    (session.perform call).2.Files tokens := by
  cases call with
  | expression =>
    have follows := parseExpression_follows session.context session.context.limit session.ahead
    show session.expression.2.Files tokens
    unfold Session.expression
    split
    · next expr rest parsed =>
      rw [parsed] at follows
      exact (files.moveOn (Succeeds.usesUp follows).suffix).store _
    · next failure rest completed stuck =>
      rw [stuck] at follows
      apply (files.moveOn (Fails.usesUp follows).suffix).fail
      exact fun report member => (Fails.filed follows report member).mono files.ahead
  | program =>
    have late := (parseProgram_usesUp session.context session.ahead).suffix
    have parsed := (files.moveOn late).store
      (session.ast.insertRoots (parseProgram session.context session.ahead).roots)
    show session.program.2.Files tokens
    unfold Session.program
    dsimp only
    split
    · exact parsed
    · next failure completed stopped =>
      apply parsed.fail
      exact fun report member => (parseProgram_filed stopped report member).mono files.ahead

/-- Calls keep the forms of reports. -/
theorem performAll (files : session.Files tokens) (calls : List Machine.Call) :
    (session.performAll calls).2.Files tokens := by
  induction calls generalizing session with
  | nil => exact files
  | cons call calls ih => exact ih (files.perform call)

end Files

/-- Calls change neither the nesting limit nor the end of the tokens. -/
theorem performAll_context (session : Session) (calls : List Machine.Call) :
    (session.performAll calls).2.context = session.context := by
  induction calls generalizing session with
  | nil => rfl
  | cons call calls ih =>
    refine (ih _).trans ?_
    cases call with
    | expression =>
      show session.expression.2.context = session.context
      unfold Session.expression
      split <;> rfl
    | program =>
      show session.program.2.context = session.context
      unfold Session.program
      dsimp only
      split <;> rfl

/-- Whatever was asked for, every report has one of the forms. -/
theorem filed (source : Source) (limit : Nat) (calls : List Machine.Call) :
    ∀ report ∈ ((Session.start source limit).performAll calls).2.log.entries,
      Filed ⟨limit, source.tokenStream.stop⟩ source.tokenStream.tokens report := by
  have files := (Files.start source limit).performAll calls
  have context := performAll_context (Session.start source limit) calls
  intro report member
  have filed := files.log report member
  rwa [context] at filed

end Session

/-- Every token stands on one line. -/
theorem Source.tokens_oneLine {source : Source} :
    ∀ token ∈ source.tokenStream.tokens, '\n' ∉ token.lexeme.written := by
  intro token member
  obtain ⟨_, _, _, _, oneLine⟩ := token_split member
  exact oneLine

/-- Whatever is asked of a parser, every report gives a message of the front end on one line, into
which its arguments were put all at once. -/
theorem reported_messages_are_put_in (source : Source) (limit : Nat) (calls : List Machine.Call)
    (report : Diagnostic)
    (member : report ∈ ((Session.start source limit).performAll calls).2.log.entries) :
    ∃ message ∈ Message.all, ∃ arguments, report.code = message.code ∧
      Template.Substituted (Template.values arguments) message.template.toList
        report.message.toList ∧ '\n' ∉ report.message.toList := by
  have filed := Session.filed source limit calls report member
  obtain ⟨message, listed, arguments, gives⟩ := filed.gives Source.tokens_oneLine
  exact ⟨message, listed, arguments, gives.code, gives.substituted, gives.message_oneLine listed⟩

end Cascade
