import Cascade.Proofs.Program
import Cascade.Proofs.SpelledText

/-!
# Tokens spelled again

The grammar sees the lexemes of tokens and not their places: tokens with the lexemes of a program
are a program, with other spans. And every row of lexemes is the row of some source: written with
blanks between them, the lexemes are read back one by one.
-/
namespace Cascade

/-- The kind and the text of the token. -/
def Token.face (token : Token) : TokenKind × String := (token.kind, token.text)

/-- Valid tokens of one kind and text have one lexeme. -/
theorem Token.lexeme_of_face {one other : Token} (same : one.face = other.face)
    (valid : one.kind ≠ .invalid) : one.lexeme = other.lexeme := by
  obtain ⟨lexeme, start⟩ := one
  obtain ⟨again, place⟩ := other
  obtain ⟨kind, text⟩ := Prod.mk.inj same
  change lexeme.kind = again.kind at kind
  change lexeme.text = again.text at text
  cases lexeme with
  | unterminated _ | stray _ => exact absurd rfl valid
  | mark _ | keyword _ =>
    cases again <;> cases kind
    rfl
  | identifier _ | number _ | string _ =>
    cases again <;> cases kind
    cases text
    rfl

/-- The tokens have the same lexemes as others, wherever they stand. -/
def Respells (tokens others : List Token) : Prop :=
  tokens.map Token.lexeme = others.map Token.lexeme

namespace Respells

variable {tokens others first second : List Token} {token : Token}

/-- Valid tokens with the kinds and texts of others have their lexemes. -/
theorem of_faces (same : tokens.map Token.face = others.map Token.face)
    (valid : ∀ token ∈ tokens, token.kind ≠ .invalid) : Respells tokens others := by
  induction tokens generalizing others with
  | nil =>
    obtain rfl := List.map_eq_nil_iff.mp same.symm
    rfl
  | cons token tokens ih =>
    obtain ⟨other, behind, rfl, face, faces⟩ := List.map_eq_cons_iff.mp same.symm
    obtain ⟨here, later⟩ := List.forall_mem_cons.mp valid
    have lexeme := Token.lexeme_of_face face.symm here
    exact congrArg₂ List.cons lexeme (ih faces.symm later)

/-- Tokens with the lexemes of others have their kinds and texts. -/
theorem faces (respells : Respells tokens others) :
    tokens.map Token.face = others.map Token.face := by
  have face : Token.face = (fun lexeme : Lexeme => (lexeme.kind, lexeme.text)) ∘ Token.lexeme := rfl
  rw [face, ← List.map_map, ← List.map_map, respells]

/-- Tokens that others respell respell them. -/
theorem symm (respells : Respells tokens others) : Respells others tokens := Eq.symm respells

/-- Two stretches are respelled one behind the other. -/
theorem append {one two : List Token} (left : Respells one first) (right : Respells two second) :
    Respells (one ++ two) (first ++ second) := by
  rw [Respells, List.map_append, List.map_append, left, right]

/-- What respells two stretches falls into two stretches. -/
theorem append_inv (respells : Respells tokens (first ++ second)) :
    ∃ one two, tokens = one ++ two ∧ Respells one first ∧ Respells two second := by
  rw [Respells, List.map_append] at respells
  exact List.map_eq_append_iff.mp respells

/-- What respells a token and others is a token of its kind and others. -/
theorem cons_inv (respells : Respells tokens (token :: others)) :
    ∃ one behind, tokens = one :: behind ∧ one.lexeme = token.lexeme ∧ Respells behind others :=
  List.map_eq_cons_iff.mp respells

/-- What respells one token is one token. -/
theorem singleton_inv (respells : Respells tokens [token]) :
    ∃ one, tokens = [one] ∧ one.lexeme = token.lexeme := by
  obtain ⟨one, behind, rfl, lexeme, rest⟩ := respells.cons_inv
  obtain rfl := List.map_eq_nil_iff.mp rest
  exact ⟨one, rfl, lexeme⟩

/-- What respells a bracket with its inside is a bracket with an inside. -/
theorem bracket_inv {opener closer : Token} {inside : List Token}
    (respells : Respells tokens (opener :: (inside ++ [closer]))) :
    ∃ one body last, tokens = one :: (body ++ [last]) ∧ one.lexeme = opener.lexeme ∧
      Respells body inside ∧ last.lexeme = closer.lexeme := by
  obtain ⟨one, behind, rfl, opening, later⟩ := respells.cons_inv
  obtain ⟨body, ending, rfl, same, sealed⟩ := later.append_inv
  obtain ⟨last, rfl, closing⟩ := sealed.singleton_inv
  exact ⟨one, body, last, rfl, opening, same, closing⟩

end Respells

/-- A token with the lexeme of one that is an expression is one as well. -/
theorem Token.leaf?_respell {token other : Token} {expr : Expr Span}
    (alone : token.leaf? = some expr) (lexeme : other.lexeme = token.lexeme) :
    ∃ again, other.leaf? = some again := by
  unfold Token.leaf? at alone
  rw [← lexeme] at alone
  split at alone
  · next written => exact ⟨_, by rw [leaf?, written]⟩
  · next written => exact ⟨_, by rw [leaf?, written]⟩
  · next written => exact ⟨_, by rw [leaf?, written]⟩
  · next written => exact ⟨_, by rw [leaf?, written]⟩
  · next written =>
    obtain ⟨value, small, _⟩ := Option.map_eq_some_iff.mp alone
    exact ⟨.int other.span value, by simp only [leaf?, written, small, Option.map_some]⟩
  · cases alone

/-- A token with the lexeme of another is of its kind. -/
theorem Token.kind_of_lexeme {token other : Token} {kind : TokenKind} (is : token.kind = kind)
    (lexeme : other.lexeme = token.lexeme) : other.kind = kind :=
  (congrArg Lexeme.kind lexeme).trans is

/-- Tokens with the lexemes of a writing are a writing. -/
theorem Writing.respell {phrase : Phrase} {room : Nat} {values : List (Expr Span)}
    {written tokens : List Token} (writing : Writing phrase room values written)
    (respells : Respells tokens written) : ∃ again, Writing phrase room again tokens := by
  induction writing generalizing tokens with
  | whole _ ih =>
    obtain ⟨_, inner⟩ := ih respells
    obtain ⟨expr, rfl⟩ := inner.single nofun
    exact ⟨_, .whole inner⟩
  | leaf alone =>
    obtain ⟨token, rfl, lexeme⟩ := respells.singleton_inv
    obtain ⟨expr, alone⟩ := Token.leaf?_respell alone lexeme
    exact ⟨_, .leaf alone⟩
  | group opens closes _ ih =>
    obtain ⟨opener, inside, closer, rfl, opening, same, closing⟩ := respells.bracket_inv
    obtain ⟨_, inner⟩ := ih same
    obtain ⟨expr, rfl⟩ := inner.single nofun
    exact ⟨_, .group (Token.kind_of_lexeme opens opening) (Token.kind_of_lexeme closes closing)
      inner⟩
  | binary found allowed _ _ left right =>
    obtain ⟨before, behind, rfl, lhs, later⟩ := respells.append_inv
    obtain ⟨token, behind, rfl, lexeme, rhs⟩ := later.cons_inv
    obtain ⟨_, left⟩ := left lhs
    obtain ⟨_, right⟩ := right rhs
    obtain ⟨lhs, rfl⟩ := left.single nofun
    obtain ⟨rhs, rfl⟩ := right.single nofun
    rw [← Token.kind_of_lexeme rfl lexeme] at found
    exact ⟨_, .binary found allowed left right⟩
  | unary found allowed _ ih =>
    obtain ⟨token, behind, rfl, lexeme, same⟩ := respells.cons_inv
    obtain ⟨_, inner⟩ := ih same
    obtain ⟨expr, rfl⟩ := inner.single nofun
    rw [← Token.kind_of_lexeme rfl lexeme] at found
    exact ⟨_, .unary found allowed inner⟩
  | index opens closes _ _ target position =>
    obtain ⟨before, behind, rfl, targetSame, later⟩ := respells.append_inv
    obtain ⟨opener, inside, closer, rfl, opening, positionSame, closing⟩ := later.bracket_inv
    obtain ⟨_, target⟩ := target targetSame
    obtain ⟨_, position⟩ := position positionSame
    obtain ⟨expr, rfl⟩ := target.single nofun
    obtain ⟨index, rfl⟩ := position.single nofun
    exact ⟨_, .index (Token.kind_of_lexeme opens opening) (Token.kind_of_lexeme closes closing)
      target position⟩
  | call_empty opens closes _ callee =>
    obtain ⟨before, behind, rfl, calleeSame, later⟩ := respells.append_inv
    obtain ⟨opener, ending, rfl, opening, last⟩ := later.cons_inv
    obtain ⟨closer, rfl, closing⟩ := last.singleton_inv
    obtain ⟨_, callee⟩ := callee calleeSame
    obtain ⟨expr, rfl⟩ := callee.single nofun
    exact ⟨_, .call_empty (Token.kind_of_lexeme opens opening)
      (Token.kind_of_lexeme closes closing) callee⟩
  | call opens closes _ _ callee arguments =>
    obtain ⟨before, behind, rfl, calleeSame, later⟩ := respells.append_inv
    obtain ⟨opener, inside, closer, rfl, opening, argumentsSame, closing⟩ := later.bracket_inv
    obtain ⟨_, callee⟩ := callee calleeSame
    obtain ⟨_, arguments⟩ := arguments argumentsSame
    obtain ⟨expr, rfl⟩ := callee.single nofun
    exact ⟨_, .call (Token.kind_of_lexeme opens opening) (Token.kind_of_lexeme closes closing)
      callee arguments⟩
  | selector dotted accepted _ target =>
    obtain ⟨before, behind, rfl, targetSame, later⟩ := respells.append_inv
    obtain ⟨dot, ending, rfl, dotLexeme, last⟩ := later.cons_inv
    obtain ⟨token, rfl, lexeme⟩ := last.singleton_inv
    obtain ⟨_, target⟩ := target targetSame
    obtain ⟨expr, rfl⟩ := target.single nofun
    rw [← Token.kind_of_lexeme rfl lexeme] at accepted
    exact ⟨_, .selector (Token.kind_of_lexeme dotted dotLexeme) accepted target⟩
  | last_argument _ ih =>
    obtain ⟨_, inner⟩ := ih respells
    obtain ⟨expr, rfl⟩ := inner.single nofun
    exact ⟨_, .last_argument inner⟩
  | argument separates _ _ first others =>
    obtain ⟨before, behind, rfl, firstSame, later⟩ := respells.append_inv
    obtain ⟨comma, behind, rfl, lexeme, othersSame⟩ := later.cons_inv
    obtain ⟨_, first⟩ := first firstSame
    obtain ⟨_, others⟩ := others othersSame
    obtain ⟨expr, rfl⟩ := first.single nofun
    exact ⟨_, .argument (Token.kind_of_lexeme separates lexeme) first others⟩

/-- Tokens with the lexemes of what continues nothing continue nothing. -/
theorem Closed.respell {tier : Tier} {tokens others : List Token} (closed : Closed tier others)
    (respells : Respells tokens others) : Closed tier tokens := by
  cases others with
  | nil =>
    obtain rfl := List.map_eq_nil_iff.mp respells
    exact .nil tier
  | cons token behind =>
    obtain ⟨one, later, rfl, lexeme, _⟩ := respells.cons_inv
    have kind : one.kind = token.kind := congrArg Lexeme.kind lexeme
    constructor
    · intro first same
      cases same
      rw [kind]
      exact closed.target token rfl
    · intro first same op found
      cases same
      rw [kind] at found
      exact closed.operand token rfl op found

namespace Program

variable {limit more : Nat} {tokens others : List Token} {roots : List (Expr Span)}

/-- Tokens with the lexemes of a program are a program under every larger limit. -/
theorem respell (program : Program limit others roots) (respells : Respells tokens others)
    (wider : limit ≤ more) : ∃ again, Program more tokens again := by
  induction program generalizing tokens with
  | nil =>
    obtain rfl := List.map_eq_nil_iff.mp respells
    exact ⟨[], .nil⟩
  | cons writing closed _ ih =>
    obtain ⟨first, behind, rfl, same, later⟩ := respells.append_inv
    obtain ⟨_, writing⟩ := writing.respell same
    obtain ⟨root, rfl⟩ := writing.single nofun
    obtain ⟨roots, program⟩ := ih later
    exact ⟨_, .cons (writing.widen wider) (closed.respell later) program⟩

end Program

/-- The lexemes with a blank behind each. -/
def spell (lexemes : List Lexeme) : List Char :=
  lexemes.flatMap fun lexeme => lexeme.written ++ [' ']

/-- The lexeme with a blank behind it. -/
def SpacedLexeme.beforeBlank (lexeme : Lexeme) : SpacedLexeme := ⟨lexeme, [' ']⟩

/-- With a blank behind each of them lexemes are well-spaced. -/
theorem WellSpaced.of_blanks {lexemes : List Lexeme}
    (spelled : ∀ lexeme ∈ lexemes, IsLexeme lexeme.written lexeme.kind) :
    WellSpaced (lexemes.map SpacedLexeme.beforeBlank) where
  spelled := List.forall_mem_map.mpr spelled
  trivia := List.forall_mem_map.mpr fun _ _ => .blank rfl .nil
  blankFirst := List.forall_mem_map.mpr fun _ _ => .cons rfl []
  apart item member := by
    obtain ⟨lexeme, _, rfl⟩ := List.mem_map.mp (List.dropLast_subset _ member)
    exact List.cons_ne_nil ' ' []

/-- The source that spells the lexemes. -/
def Source.spelling (lexemes : List Lexeme) : Source :=
  ⟨0, "spelling", String.ofList (' ' :: spell lexemes)⟩

/-- The tokens of a spelled source are the lexemes. -/
theorem Source.spelling_tokens {lexemes : List Lexeme}
    (spelled : ∀ lexeme ∈ lexemes, IsLexeme lexeme.written lexeme.kind) :
    (Source.spelling lexemes).tokenStream.tokens.map Token.lexeme = lexemes := by
  have blank : Trivia [' '] := .blank rfl .nil
  have text : (Source.spelling lexemes).chars =
      [' '] ++ (lexemes.map SpacedLexeme.beforeBlank).flatMap SpacedLexeme.text := by
    rw [List.flatMap_map]
    exact String.toList_ofList
  have read := Lexer.run_spaced (.of_blanks spelled) blank .first
  rw [← text, List.map_map] at read
  exact read.trans (List.map_id lexemes)

end Cascade
