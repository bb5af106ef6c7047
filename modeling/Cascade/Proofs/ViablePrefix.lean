import Cascade.Proofs.Completion
import Cascade.Proofs.Respelling

/-!
# The parser stops at the first impossible token

A parse that stops at a token it cannot use has read the beginning of a program, and no program goes
on with that token. Both are facts about sources, told by the kinds and the texts of their tokens:
one source that begins as read so far is parsed under the same limit, and none that has the token
next is parsed under any limit.
-/
namespace Cascade

/-- The kinds and the texts of the tokens of a source. -/
def Source.faces (source : Source) : List (TokenKind × String) :=
  source.tokenStream.tokens.map Token.face

/-- The source begins with tokens of the same kinds and texts, and behind them it goes on with the
next one or, if there is none, ends. -/
def Source.GoesOn (source : Source) (before : List Token) : Option Token → Prop
  | some next => (before ++ [next]).map Token.face <+: source.faces
  | none => source.faces = before.map Token.face

namespace Source

/-- A source without invalid tokens that goes on with a token respells what goes on with it. -/
theorem GoesOn.respells {source : Source} {before : List Token} {next : Option Token}
    (goesOn : source.GoesOn before next)
    (valid : ∀ token ∈ source.tokenStream.tokens, token.kind ≠ .invalid) :
    ∃ behind, behind.head? = next ∧ Respells (before ++ behind) source.tokenStream.tokens := by
  cases next with
  | none =>
    refine ⟨[], rfl, ?_⟩
    rw [List.append_nil]
    exact (Respells.of_faces goesOn valid).symm
  | some next =>
    obtain ⟨later, split⟩ := goesOn
    obtain ⟨read, behind, tokens, same, _⟩ := List.map_eq_append_iff.mp split.symm
    rw [tokens] at valid ⊢
    have respells := Respells.of_faces same (List.forall_mem_append.mp valid).1
    refine ⟨next :: behind, rfl, ?_⟩
    rw [List.append_cons]
    exact respells.symm.append rfl

/-- A program of spelled tokens is the program of some source. -/
theorem of_program {limit : Nat} {tokens : List Token} {roots : List (Expr Span)}
    (program : Program limit tokens roots) (spelled : ∀ token ∈ tokens, token.Spelled) :
    ∃ source : Source, source.faces = tokens.map Token.face ∧
      (Session.start source limit).program.1 = .ok () := by
  have respells : Respells (spelling (tokens.map Token.lexeme)).tokenStream.tokens tokens :=
    spelling_tokens (List.forall_mem_map.mpr spelled)
  obtain ⟨again, program⟩ := program.respell respells (Nat.le_refl limit)
  exact ⟨_, respells.faces, ((program_iff _ limit again).mp program).1⟩

end Source

/-- A parse that stops at a token, or at the end, has read the beginning of the tokens of a source
that is parsed under the same limit. No source that begins so and goes on with that token, or ends
there, is parsed under any limit. -/
theorem parser_stops_at_impossible_token (source : Source) (limit : Nat) (error : SyntaxError)
    (stopped : (Session.start source limit).program.1 = .error error) (atToken : error.AtToken) :
    ∃ before,
      source.tokenStream.tokens = before ++ (Session.start source limit).program.2.ahead ∧
      (∃ other : Source, before.map Token.face <+: other.faces ∧
        (Session.start other limit).program.1 = .ok ()) ∧
      ∀ (other : Source) (more : Nat),
        other.GoesOn before (Session.start source limit).program.2.ahead.head? →
        (Session.start other more).program.1 ≠ .ok () := by
  obtain ⟨failure, completed, stop, rfl⟩ := Session.program_error stopped
  obtain ⟨used, more, roots, tokens, _, spelled, program⟩ := parseProgram_viable stop atToken
  obtain ⟨again, sameTokens, refuses⟩ := parseProgram_elsewhere stop atToken
  obtain rfl := List.append_cancel_right (tokens.symm.trans sameTokens)
  have split : source.tokenStream.tokens = used ++ (source.outcome limit).rest := tokens
  rw [Session.program_ahead]
  refine ⟨used, split, ?_, fun other wider goesOn success => ?_⟩
  · have valid := (List.forall_mem_append.mp program.valid).1
    have read : ∀ token ∈ used, token.Spelled := fun token member =>
      Source.token_spelled (by rw [split]; exact List.mem_append_left _ member)
        (valid token member)
    obtain ⟨other, faces, success⟩ :=
      Source.of_program program (List.forall_mem_append.mpr ⟨read, spelled⟩)
    refine ⟨other, ?_, success⟩
    rw [faces, List.map_append]
    exact List.prefix_append ..
  · -- A program that goes on so would, at the places of this source, be one the parser refuses.
    have program := (other.program_iff wider _).mpr ⟨success, rfl⟩
    obtain ⟨behind, next, respells⟩ := goesOn.respells program.valid
    obtain ⟨again, program⟩ := program.respell respells (Nat.le_max_right limit wider)
    let elsewhere : ParseContext := ⟨max limit wider, .first⟩
    have parsed := (parseProgram_iff elsewhere _ _).mp program
    exact refuses elsewhere behind next (Nat.le_max_left limit wider) parsed.1

/-- A call that is cut by a second name stops there: a call may begin so, and none goes on so. -/
theorem call_stops_at_second_name :
    (Session.start ⟨0, "cut.sb", "f(a b"⟩ 4).program.1 = .error (.unclosedDelimiter ⟨1, 2⟩ "(") ∧
    (∃ other : Source,
      [(.identifier, "f"), (.mark .openParen, "("), (.identifier, "a")] <+: other.faces ∧
      (Session.start other 4).program.1 = .ok ()) ∧
    ∀ (other : Source) (more : Nat),
      [(.identifier, "f"), (.mark .openParen, "("), (.identifier, "a"), (.identifier, "b")] <+:
        other.faces → (Session.start other more).program.1 ≠ .ok () := by
  have stopped : (Session.start ⟨0, "cut.sb", "f(a b"⟩ 4).program.1 =
      .error (.unclosedDelimiter ⟨1, 2⟩ "(") := by decide +kernel
  have left : (Session.start ⟨0, "cut.sb", "f(a b"⟩ 4).program.2.ahead =
      [⟨.identifier "b", ⟨1, 5⟩⟩] := by decide +kernel
  have tokens : (⟨0, "cut.sb", "f(a b"⟩ : Source).tokenStream.tokens =
      [⟨.identifier "f", ⟨1, 1⟩⟩, ⟨.mark .openParen, ⟨1, 2⟩⟩, ⟨.identifier "a", ⟨1, 3⟩⟩] ++
        [⟨.identifier "b", ⟨1, 5⟩⟩] := by decide +kernel
  obtain ⟨before, split, continued, refused⟩ :=
    parser_stops_at_impossible_token _ _ _ stopped trivial
  rw [left] at split refused
  obtain rfl := List.append_cancel_right (tokens.symm.trans split)
  exact ⟨stopped, continued, refused⟩
end Cascade
