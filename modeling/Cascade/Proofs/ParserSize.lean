import Cascade.Proofs.Lexer
import Cascade.Proofs.ParserRules
import Cascade.Proofs.StoredTree

/-!
# How large parsed trees are

Every node comes from a token of its own, and every token from a codepoint of its own. So the trees
of a source, those that a failed parse hands out included, have no more nodes than the source has
bytes, and handles of 32 bits are enough for every source whose places are.
-/
namespace Cascade

open Cascade.Expr (sizeAll)

/-- How many nodes a goal has been given before it takes up any token. -/
def Goal.given : Goal → Nat
  | .run _ lhs => lhs.size
  | .chain target => target.size
  | .link target => target.size
  | _ => 0

/-- A token that is an expression on its own is one node. -/
theorem leaf?_size {token : Token} {expr : Expr Span} (alone : token.leaf? = some expr) :
    expr.size = 1 := by
  unfold Token.leaf? at alone
  split at alone
  · cases alone; rfl
  · cases alone; rfl
  · cases alone; rfl
  · cases alone; rfl
  · obtain ⟨_, _, rfl⟩ := Option.map_eq_some_iff.mp alone; rfl
  · cases alone

/-- A selector adds one node to its target. -/
theorem selected_size (target : Expr Span) (dot token : Token) (selector : Selector) :
    (selected target dot token selector).size = target.size + 1 := by
  cases selector <;> rfl

/-- A success has no more nodes than it took up tokens, beside those it was given. -/
theorem Succeeds.size {goal : Goal} {room : Nat} {tokens rest : List Token}
    {values : List (Expr Span)} (succeeds : Succeeds goal room tokens values rest) :
    sizeAll values + rest.length ≤ tokens.length + goal.given := by
  induction succeeds with
  | leaf alone =>
    simp only [sizeAll, leaf?_size alone, List.length_cons]
    omega
  | selector _ _ =>
    simp only [sizeAll, selected_size, List.length_cons, Goal.given]
    omega
  | _ =>
    simp only [sizeAll, Expr.size, List.length_cons, Goal.given] at *
    omega

/-- A failure hands out no more nodes than it took up tokens, beside those it was given. -/
theorem Fails.size {context : ParseContext} {goal : Goal} {room : Nat} {tokens rest : List Token}
    {failure : Failure} {completed : List (Expr Span)}
    (fails : Fails context goal room tokens failure rest completed) :
    sizeAll completed + rest.length ≤ tokens.length + goal.given := by
  induction fails with
  | chain parsed _ _ | run _ _ parsed _ _ | operator _ parsed _ _ | chain_link parsed _ _
  | unclosed_index _ parsed _ | unclosed_call _ _ parsed _ | later_argument parsed _ _ _
  | unclosed_group _ parsed _ =>
    have before := parsed.size
    simp only [sizeAll, Expr.size, List.length_cons, Goal.given] at *
    omega
  | _ =>
    simp only [sizeAll, List.length_cons, Goal.given] at *
    omega

/-- The expressions that were complete when a program stopped. -/
def ProgramOutcome.completed (outcome : ProgramOutcome) : List (Expr Span) :=
  match outcome.stop with
  | none => []
  | some (_, completed) => completed

/-- The trees of a program have no more nodes than it used up tokens. -/
theorem parseProgram_size (context : ParseContext) (tokens : List Token) :
    sizeAll (parseProgram context tokens).roots + sizeAll (parseProgram context tokens).completed +
      (parseProgram context tokens).rest.length ≤ tokens.length := by
  fun_induction parseProgram context tokens with
  | case1 => exact Nat.le_refl _
  | case2 token tail failure rest completed _ stuck =>
    have follows := parseExpression_follows context context.limit (token :: tail)
    rw [stuck] at follows
    have size := Fails.size follows
    simp only [Goal.given] at size
    simp only [ProgramOutcome.completed, sizeAll]
    omega
  | case3 token tail root rest shorter parsed later ih =>
    have follows := parseExpression_follows context context.limit (token :: tail)
    rw [parsed] at follows
    have size := Succeeds.size follows
    have same : later = parseProgram context rest := rfl
    have completed : ({ later with roots := root :: later.roots } : ProgramOutcome).completed =
        later.completed := rfl
    rw [completed, same]
    simp only [single, sizeAll, Goal.given] at size ⊢
    omega

/-- There are no more tokens than codepoints. -/
theorem Lexer.run_length (cursor : Cursor) : (run cursor).1.length ≤ cursor.ahead.length := by
  induction remaining : cursor.ahead.length using Nat.strongRecOn generalizing cursor with
  | _ remaining ih =>
    rw [run_eq]
    cases step : next? cursor with
    | none => exact Nat.zero_le _
    | some found =>
      have shorter := next?_length step
      rw [remaining] at shorter
      exact Nat.lt_of_le_of_lt (ih _ shorter found.2 rfl) shorter

/-- A text has no fewer bytes than codepoints. -/
theorem length_le_utf8ByteSize (text : List Char) :
    text.length ≤ (String.ofList text).utf8ByteSize := by
  induction text with
  | nil => exact Nat.zero_le _
  | cons c text ih =>
    have parts : String.ofList (c :: text) = String.singleton c ++ String.ofList text := by
      rw [String.singleton_eq_ofList, ← String.ofList_append]
      rfl
    have wide := Char.utf8Size_pos c
    rw [parts, String.utf8ByteSize_append, String.utf8ByteSize_singleton, List.length_cons]
    omega

/-- A source has no more tokens than bytes. -/
theorem Source.tokens_length (source : Source) :
    source.tokenStream.tokens.length ≤ source.content.utf8ByteSize := by
  have codepoints := Lexer.run_length (.start source)
  have bytes := length_le_utf8ByteSize source.content.toList
  rw [String.ofList_toList] at bytes
  exact Nat.le_trans codepoints bytes

end Cascade
