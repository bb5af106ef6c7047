import Cascade.Proofs.ParsedSource
import Cascade.Proofs.Parser

/-!
# The grammar of programs

A program is its roots written one behind the other. Nothing separates them, so a minus or an
opening parenthesis that could begin a root goes on with the root before it: each root is the
longest writing at its place. Parsing a source succeeds exactly on the programs, and the store that
it leaves behind holds the trees of the grammar under the roots, with their spans.
-/
namespace Cascade

/-- The tokens are writings of the roots, one behind the other, and none is continued by the tokens
behind it. -/
inductive Program (limit : Nat) : List Token → List (Expr Span) → Prop where
  /-- There may be no roots. -/
  | nil : Program limit [] []
  /-- A root that ends where the others begin. -/
  | cons {root : Expr Span} {roots : List (Expr Span)} {written rest : List Token} :
    Writing .whole limit [root] written → Closed .lowest rest → Program limit rest roots →
    Program limit (written ++ rest) (root :: roots)

/-- The parser succeeds on programs only, and gives their roots. -/
theorem parseProgram_iff (context : ParseContext) (tokens : List Token)
    (roots : List (Expr Span)) :
    Program context.limit tokens roots ↔
      (parseProgram context tokens).stop = none ∧ (parseProgram context tokens).roots = roots := by
  constructor
  · intro program
    induction program with
    | nil => rw [parseProgram]; exact ⟨rfl, rfl⟩
    | @cons root roots written rest writing closed _ ih =>
      obtain ⟨_, left, ⟨⟩, parsed⟩ := (writing.read rest closed).parses context
      obtain ⟨token, tail, rfl, _⟩ := writing.begins
      have parsed : parseExpression context context.limit (token :: (tail ++ rest)) = _ := parsed
      rw [List.cons_append, parseProgram, parsed]
      exact ⟨ih.1, congrArg (root :: ·) ih.2⟩
  · rintro ⟨succeeds, rfl⟩
    fun_induction parseProgram context tokens with
    | case1 => exact .nil
    | case2 => cases succeeds
    | case3 token tail root rest shorter parsed later ih =>
      have follows := parseExpression_follows context context.limit (token :: tail)
      rw [parsed] at follows
      obtain ⟨written, same, writing, closed⟩ := Succeeds.sound follows
      rw [same]
      exact .cons writing closed (ih succeeds)

/-- A writing either begins with a token that goes on with nothing before it, or joins every writing
before it. -/
theorem Written.closed_or_joins {piece : List Token} (written : Written .lowest piece)
    (rest : List Token) : Closed .lowest (piece ++ rest) ∨
      ∀ before, Written .lowest before → Written .lowest (before ++ piece) := by
  obtain ⟨_, _, writing⟩ := written
  obtain ⟨token, tail, rfl, begins⟩ := writing.begins
  by_cases stops : acceptContinuation token.kind = none ∧ token.kind.binaryOp? = none
  · exact .inl (.cons _ _ stops.1 stops.2)
  · have joins := TokenKind.joins_of_begins begins stops
    exact .inr fun before first => writing.join rfl ⟨token, rfl, joins⟩ first

/-- A first piece and others make a program, each being written somehow: what looks like the start
of a piece may go on with the one before it. -/
theorem Program.of_first {limit : Nat} {piece : List Token} {others : List (List Token)}
    (first : Written .lowest piece) (each : ∀ other ∈ others, Written .lowest other)
    (few : (piece ++ others.flatten).length ≤ limit) :
    ∃ roots, Program limit (piece ++ others.flatten) roots := by
  induction others generalizing piece with
  | nil =>
    obtain ⟨room, root, inner⟩ := first
    rw [List.flatten_nil, List.append_nil] at few
    exact ⟨[root], .cons ((Writing.whole inner).room_of_length few) (.nil _) .nil⟩
  | cons next later ih =>
    rw [List.flatten_cons] at few ⊢
    obtain ⟨second, others⟩ := List.forall_mem_cons.mp each
    obtain closed | joins := second.closed_or_joins later.flatten
    · obtain ⟨room, root, inner⟩ := first
      rw [List.length_append] at few
      have writing := (Writing.whole inner).room_of_length (Nat.le_trans (Nat.le_add_right ..) few)
      obtain ⟨roots, program⟩ := ih second others (Nat.le_trans (Nat.le_add_left ..) few)
      exact ⟨root :: roots, .cons writing closed program⟩
    · rw [← List.append_assoc] at few ⊢
      exact ih (joins piece first) others few

/-- Pieces that are each written somehow make a program when the limit is not in the way. -/
theorem Program.of_pieces {limit : Nat} {pieces : List (List Token)}
    (each : ∀ piece ∈ pieces, Written .lowest piece) (few : pieces.flatten.length ≤ limit) :
    ∃ roots, Program limit pieces.flatten roots := by
  cases pieces with
  | nil => exact ⟨[], .nil⟩
  | cons piece others =>
    obtain ⟨first, others⟩ := List.forall_mem_cons.mp each
    exact Program.of_first first others few

/-- A program is pieces that are each written somehow. -/
theorem Program.pieces {limit : Nat} {tokens : List Token} {roots : List (Expr Span)}
    (program : Program limit tokens roots) :
    ∃ pieces : List (List Token), pieces.flatten = tokens ∧
      ∀ piece ∈ pieces, Written .lowest piece := by
  induction program with
  | nil => exact ⟨[], rfl, nofun⟩
  | @cons root roots written rest writing _ _ ih =>
    obtain ⟨pieces, rfl, each⟩ := ih
    cases writing with
    | whole inner =>
      refine ⟨written :: pieces, rfl, ?_⟩
      intro piece member
      obtain rfl | later := List.mem_cons.mp member
      · exact ⟨_, root, inner⟩
      · exact each piece later

/-- The pieces are writings of the roots, and none of them can be made longer by the tokens behind
it, however deeply the longer writing may be nested. -/
inductive Greedy (limit : Nat) : List (List Token) → List (Expr Span) → Prop where
  /-- There may be no roots. -/
  | nil : Greedy limit [] []
  /-- A root is the longest writing before the others. -/
  | cons {root : Expr Span} {roots : List (Expr Span)} {piece : List Token}
      {pieces : List (List Token)} :
    Writing .whole limit [root] piece →
    (∀ longer tail, Written .lowest longer → piece ++ pieces.flatten = longer ++ tail →
      longer.length ≤ piece.length) →
    Greedy limit pieces roots → Greedy limit (piece :: pieces) (root :: roots)

/-- A program is cut into the longest writings. -/
theorem Program.greedy {limit : Nat} {tokens : List Token} {roots : List (Expr Span)}
    (program : Program limit tokens roots) :
    ∃ pieces, pieces.flatten = tokens ∧ Greedy limit pieces roots := by
  induction program with
  | nil => exact ⟨[], rfl, .nil⟩
  | @cons root roots written rest writing closed _ ih =>
    obtain ⟨pieces, rfl, greedy⟩ := ih
    refine ⟨written :: pieces, rfl, .cons writing ?_ greedy⟩
    intro longer tail somehow same
    obtain ⟨_, _, inner⟩ := somehow
    exact writing.longest closed (.whole inner) same

/-- The longest writings make a program: if a piece joined the one before it, that one would not be
the longest. -/
theorem Greedy.program {limit : Nat} {pieces : List (List Token)} {roots : List (Expr Span)}
    (greedy : Greedy limit pieces roots) : Program limit pieces.flatten roots := by
  induction greedy with
  | nil => exact .nil
  | @cons root roots piece pieces writing longest later ih =>
    refine .cons writing ?_ ih
    cases later with
    | nil => exact .nil _
    | @cons _ _ next others following _ _ =>
      cases writing with
      | whole inner =>
        cases following with
        | whole second =>
          have written : Written .lowest next := ⟨_, _, second⟩
          obtain closed | joins := written.closed_or_joins others.flatten
          · exact closed
          · obtain ⟨token, tail, rfl, _⟩ := second.begins
            have short := longest _ others.flatten (joins piece ⟨_, _, inner⟩)
              (by rw [List.flatten_cons, List.append_assoc])
            rw [List.length_append, List.length_cons] at short
            omega

/-- A program is the same as a row of longest writings. -/
theorem Program.iff_greedy {limit : Nat} {tokens : List Token} {roots : List (Expr Span)} :
    Program limit tokens roots ↔
      ∃ pieces, pieces.flatten = tokens ∧ Greedy limit pieces roots := by
  constructor
  · exact Program.greedy
  · rintro ⟨pieces, rfl, greedy⟩
    exact greedy.program

/-- Parsing a source gives the roots of the program that its tokens are. -/
theorem Source.program_iff (source : Source) (limit : Nat) (roots : List (Expr Span)) :
    Program limit source.tokenStream.tokens roots ↔
      (Session.start source limit).program.1 = .ok () ∧ (source.outcome limit).roots = roots := by
  rw [Session.program_ok]
  exact parseProgram_iff ⟨limit, source.tokenStream.stop⟩ _ roots

/-- The trees of a source are read back from its store, with their spans. -/
theorem Source.ast_shows (source : Source) (limit : Nat)
    (small : source.content.utf8ByteSize < 2 ^ 32) :
    (source.ast limit).Shows (source.ast limit).read (source.ast limit).roots.toList
      (source.outcome limit).roots :=
  (source.ast_stored limit small).2.shows fun expr member _ _ stored =>
    stored.read (Nat.le_trans expr.height_le_size (Source.size_le_depthLimit small member))

/-- Parsing succeeds exactly on rows of longest writings, and stores the trees that are written. If
the nesting limit is not in the way, it succeeds on every row of writings. -/
theorem parser_accepts_grammar (source : Source) (limit : Nat) :
    ((Session.start source limit).program.1 = .ok () ↔
      ∃ pieces roots, pieces.flatten = source.tokenStream.tokens ∧ Greedy limit pieces roots) ∧
    (source.content.utf8ByteSize < 2 ^ 32 → ∀ pieces roots,
      pieces.flatten = source.tokenStream.tokens → Greedy limit pieces roots →
      (source.ast limit).Shows (source.ast limit).read (source.ast limit).roots.toList roots) ∧
    (source.tokenStream.tokens.length ≤ limit →
      ((Session.start source limit).program.1 = .ok () ↔
        ∃ pieces : List (List Token), pieces.flatten = source.tokenStream.tokens ∧
          ∀ piece ∈ pieces, Written .lowest piece)) := by
  have accepted : (Session.start source limit).program.1 = .ok () ↔
      ∃ roots, Program limit source.tokenStream.tokens roots := by
    constructor
    · intro success
      exact ⟨_, (source.program_iff limit _).mpr ⟨success, rfl⟩⟩
    · rintro ⟨roots, program⟩
      exact ((source.program_iff limit roots).mp program).1
  refine ⟨?_, ?_, fun few => ?_⟩
  · rw [accepted, exists_comm]
    exact exists_congr fun roots => Program.iff_greedy
  · intro small pieces roots same greedy
    have program := Program.iff_greedy.mpr ⟨pieces, same, greedy⟩
    rw [← ((source.program_iff limit roots).mp program).2]
    exact source.ast_shows limit small
  · rw [accepted]
    constructor
    · rintro ⟨roots, program⟩
      exact program.pieces
    · rintro ⟨pieces, same, each⟩
      rw [← same] at few ⊢
      exact Program.of_pieces each few

/-- A difference and a field selection behind it are read back as the two roots that they are. -/
theorem parser_accepts_two_roots :
    (∃ pieces roots,
      pieces.flatten = (⟨0, "two.sb", "f(1, x) -y z.w"⟩ : Source).tokenStream.tokens ∧
      Greedy 16 pieces roots ∧
      ((⟨0, "two.sb", "f(1, x) -y z.w"⟩ : Source).ast 16).Shows
        ((⟨0, "two.sb", "f(1, x) -y z.w"⟩ : Source).ast 16).read
        ((⟨0, "two.sb", "f(1, x) -y z.w"⟩ : Source).ast 16).roots.toList roots) ∧
    ∃ pieces : List (List Token),
      pieces.flatten = (⟨0, "two.sb", "f(1, x) -y z.w"⟩ : Source).tokenStream.tokens ∧
      ∀ piece ∈ pieces, Written .lowest piece := by
  obtain ⟨accepted, stored, cut⟩ :=
    parser_accepts_grammar ⟨0, "two.sb", "f(1, x) -y z.w"⟩ 16
  have success : (Session.start ⟨0, "two.sb", "f(1, x) -y z.w"⟩ 16).program.1 = .ok () :=
    (Session.program_ok _).mpr (Option.isNone_iff_eq_none.mp (by decide +kernel))
  obtain ⟨pieces, roots, same, greedy⟩ := accepted.mp success
  have shows := stored (by decide) pieces roots same greedy
  exact ⟨⟨pieces, roots, same, greedy, shows⟩, (cut (by decide +kernel)).mp success⟩

end Cascade
