import Mathlib.Data.List.MinMax
import Mathlib.Order.Nat
import Cascade.Proofs.CutSource
import Cascade.Proofs.NestingLimit

/-!
# How deep a source is nested

The limit at which a source stops failing for its nesting can be read off the tokens and the trees.
A literal or a name is nested one level, one more for every bracket that is open where it stands and
one more for every operator before an operand that it stands under. The deepest of them tells the
limit: operators between operands and runs of indices, calls and selectors do not count.

The brackets are those of the tokens, as grouping leaves no trace in the trees. The operators are
those of the trees, as the tokens do not show where an operand ends.
-/
namespace Cascade

variable {room more limit : Nat} {tokens left right part written : List Token}
  {place : Position} {values : List (Expr Span)}

/-- Whether a token of the kind opens a bracket. -/
def TokenKind.opens (kind : TokenKind) : Bool :=
  kind = .mark .openParen || kind = .mark .openBracket

/-- Whether a token of the kind closes a bracket. -/
def TokenKind.closes (kind : TokenKind) : Bool :=
  kind = .mark .closeParen || kind = .mark .closeBracket

/-- How many of the tokens open a bracket. -/
def openings (tokens : List Token) : Nat := tokens.countP fun token => token.kind.opens

/-- How many of the tokens close one. -/
def closings (tokens : List Token) : Nat := tokens.countP fun token => token.kind.closes

/-- How many brackets are open behind the tokens. -/
def openBrackets (tokens : List Token) : Nat := openings tokens - closings tokens

/-- The tokens before a place. -/
def tokensBefore (place : Position) (tokens : List Token) : List Token :=
  tokens.takeWhile fun token => token.start ≠ place

/-- The tokens open so many brackets more than they close. -/
def Opens (count : Nat) (tokens : List Token) : Prop := openings tokens = closings tokens + count

/-- Tokens of the kind neither open nor close a bracket. -/
def TokenKind.Plain (kind : TokenKind) : Prop := kind.opens = false ∧ kind.closes = false

/-- Two kinds open a bracket. -/
theorem TokenKind.opens_iff {kind : TokenKind} :
    kind.opens = true ↔ kind = .mark .openParen ∨ kind = .mark .openBracket := by
  simp [opens]

/-- Two kinds close one. -/
theorem TokenKind.closes_iff {kind : TokenKind} :
    kind.closes = true ↔ kind = .mark .closeParen ∨ kind = .mark .closeBracket := by
  simp [closes]

/-- A mark that is no bracket is none. -/
theorem TokenKind.Plain.of_mark {kind : TokenKind} {sign : Mark} (marked : kind = .mark sign)
    (other : (TokenKind.mark sign).Plain) : kind.Plain := by
  rwa [marked]

/-- What is accepted where the brackets are refused is none of them. -/
theorem TokenKind.Plain.of_accepted {β : Type} {accept : TokenKind → Option β}
    {kind : TokenKind} {value : β} (accepted : accept kind = some value)
    (refused : ∀ sign ∈ [Mark.openParen, .openBracket, .closeParen, .closeBracket],
      (accept (.mark sign)).isNone = true) : kind.Plain := by
  have other : ∀ sign ∈ [Mark.openParen, .openBracket, .closeParen, .closeBracket],
      kind ≠ .mark sign := by
    rintro sign bracket rfl
    have none := refused sign bracket
    rw [accepted] at none
    cases none
  simp only [List.forall_mem_cons] at other
  constructor
  · rw [Bool.eq_false_iff]
    intro opens
    rcases opens_iff.mp opens with paren | bracket
    · exact other.1 paren
    · exact other.2.1 bracket
  · rw [Bool.eq_false_iff]
    intro closes
    rcases closes_iff.mp closes with paren | bracket
    · exact other.2.2.1 paren
    · exact other.2.2.2.1 bracket

namespace Opens

variable {first second : Nat} {token opener closer : Token}

/-- Brackets are opened one stretch after the other. -/
theorem append (one : Opens first left) (other : Opens second right) :
    Opens (first + second) (left ++ right) := by
  unfold Opens openings closings at *
  rw [List.countP_append, List.countP_append]
  omega

/-- A token that is no bracket opens none. -/
theorem plain (neither : token.kind.Plain) : Opens 0 [token] := by
  unfold Opens openings closings
  rw [List.countP_singleton, List.countP_singleton, neither.1, neither.2]
  rfl

/-- A bracket is open behind the token that opens it. -/
theorem opening (opens : opener.kind.opens = true) : Opens 1 [opener] := by
  have other : opener.kind.closes = false := by
    rcases TokenKind.opens_iff.mp opens with paren | bracket
    · rw [paren]; decide
    · rw [bracket]; decide
  unfold Opens openings closings
  rw [List.countP_singleton, List.countP_singleton, opens, other]
  rfl

/-- A stretch in brackets opens no more than it closes if what stands inside does not. -/
theorem enclosed (opens : opener.kind.opens = true) (closes : closer.kind.closes = true)
    (inside : Opens 0 part) : Opens 0 (opener :: (part ++ [closer])) := by
  have other : closer.kind.opens = false := by
    rcases TokenKind.closes_iff.mp closes with paren | bracket
    · rw [paren]; decide
    · rw [bracket]; decide
  have before := (Opens.opening opens).append inside
  rw [← List.cons_append]
  unfold Opens openings closings at *
  rw [List.countP_append, List.countP_append, List.countP_singleton, List.countP_singleton, closes,
    other]
  simp only [List.singleton_append] at before
  show _ + 0 = _ + 1 + 0
  omega

/-- As many brackets are open behind tokens as they open. -/
theorem openBrackets_eq {count : Nat} (opens : Opens count tokens) :
    openBrackets tokens = count := by
  unfold Opens at opens
  unfold openBrackets
  omega

end Opens

/-- A token that is an expression on its own is no bracket. -/
theorem plain_of_leaf {token : Token} {expr : Expr Span} (alone : token.leaf? = some expr) :
    token.kind.Plain := by
  have leaf := leaf?_kind alone
  revert leaf
  generalize token.kind = kind
  revert kind
  unfold TokenKind.Plain
  decide

/-- An operator before an operand is no bracket. -/
theorem plain_of_unaryOp? {kind : TokenKind} {op : UnaryOp} (found : kind.unaryOp? = some op) :
    kind.Plain :=
  .of_accepted found (by decide)

/-- An operator between operands is no bracket. -/
theorem plain_of_binaryOp? {kind : TokenKind} {op : BinaryOp} (found : kind.binaryOp? = some op) :
    kind.Plain :=
  .of_accepted found (by decide)

/-- A writing closes every bracket that it opens, and no other. -/
theorem Writing.opens_none {phrase : Phrase} (writing : Writing phrase room values written) :
    Opens 0 written := by
  induction writing with
  | whole _ ih => exact ih
  | leaf alone => exact .plain (plain_of_leaf alone)
  | group opens closes _ ih =>
    exact .enclosed (TokenKind.opens_iff.mpr (.inl opens)) (TokenKind.closes_iff.mpr (.inl closes))
      ih
  | binary found _ _ _ left right =>
    exact left.append ((Opens.plain (plain_of_binaryOp? found)).append right)
  | unary found _ _ ih => exact (Opens.plain (plain_of_unaryOp? found)).append ih
  | index opens closes _ _ target inside =>
    have opened := TokenKind.opens_iff.mpr (.inr opens)
    exact target.append (.enclosed opened (TokenKind.closes_iff.mpr (.inr closes)) inside)
  | @call_empty _ _ _ closer _ _ opens closes _ callee =>
    have empty : Opens 0 ([] : List Token) := rfl
    have opened := TokenKind.opens_iff.mpr (.inl opens)
    exact callee.append (.enclosed opened (TokenKind.closes_iff.mpr (.inl closes)) empty)
  | call opens closes _ _ callee inside =>
    have opened := TokenKind.opens_iff.mpr (.inl opens)
    exact callee.append (.enclosed opened (TokenKind.closes_iff.mpr (.inl closes)) inside)
  | selector dotted accepted _ target =>
    have dot := Opens.plain (.of_mark dotted ⟨rfl, rfl⟩)
    exact target.append (dot.append (.plain (.of_accepted accepted (by decide))))
  | last_argument _ ih => exact ih
  | argument separates _ _ first others =>
    have comma := Opens.plain (.of_mark separates ⟨rfl, rfl⟩)
    exact first.append (comma.append others)

/-- A literal or a name in a tree. An expression in parentheses is less deep than what stands in it,
so these are the primaries that count. -/
structure Primary where
  /-- Where it starts. -/
  place : Position
  /-- How many operators before an operand it stands under. -/
  operators : Nat
  deriving DecidableEq, Repr

/-- The primary under one more operator. -/
def Primary.under (primary : Primary) : Primary :=
  { primary with operators := primary.operators + 1 }

namespace Expr

mutual

/-- The literals and names of a tree in order. -/
def primaries : Expr Span → List Primary
  | .bool span _ => [⟨span.start, 0⟩]
  | .int span _ => [⟨span.start, 0⟩]
  | .str span _ => [⟨span.start, 0⟩]
  | .identifier span _ => [⟨span.start, 0⟩]
  | .binary _ _ lhs rhs => lhs.primaries ++ rhs.primaries
  | .unary _ _ operand => operand.primaries.map Primary.under
  | .index _ target position => target.primaries ++ position.primaries
  | .call _ callee arguments => callee.primaries ++ primariesAll arguments
  | .primitive _ _ target => target.primaries
  | .field _ target _ => target.primaries

/-- The literals and names of trees in order. -/
def primariesAll : List (Expr Span) → List Primary
  | [] => []
  | expr :: exprs => expr.primaries ++ primariesAll exprs

end

/-- The primaries of one tree. -/
theorem primariesAll_singleton (expr : Expr Span) : primariesAll [expr] = expr.primaries :=
  List.append_nil _

/-- Every tree has a primary. -/
theorem exists_primary (expr : Expr Span) : ∃ primary, primary ∈ expr.primaries := by
  cases expr with
  | bool | int | str | identifier => exact ⟨_, List.mem_singleton.mpr rfl⟩
  | binary span op lhs rhs =>
    obtain ⟨primary, member⟩ := exists_primary lhs
    exact ⟨primary, List.mem_append_left _ member⟩
  | unary span op operand =>
    obtain ⟨primary, member⟩ := exists_primary operand
    exact ⟨primary.under, List.mem_map_of_mem member⟩
  | index span target position =>
    obtain ⟨primary, member⟩ := exists_primary target
    exact ⟨primary, List.mem_append_left _ member⟩
  | call span callee arguments =>
    obtain ⟨primary, member⟩ := exists_primary callee
    exact ⟨primary, List.mem_append_left _ member⟩
  | primitive span access target => exact exists_primary target
  | field span target name => exact exists_primary target

end Expr

/-- A token that is an expression on its own is one primary at its place. -/
theorem leaf?_primaries {token : Token} {expr : Expr Span} (alone : token.leaf? = some expr) :
    expr.primaries = [⟨token.start, 0⟩] := by
  unfold Token.leaf? at alone
  split at alone
  · cases alone; rfl
  · cases alone; rfl
  · cases alone; rfl
  · cases alone; rfl
  · obtain ⟨_, _, rfl⟩ := Option.map_eq_some_iff.mp alone; rfl
  · cases alone

/-- How many brackets are open where a primary stands. -/
def Primary.brackets (primary : Primary) (tokens : List Token) : Nat :=
  openBrackets (tokensBefore primary.place tokens)

/-- A token starts where the primary does, and no bracket is closed before it that is not opened. -/
structure Primary.Stands (primary : Primary) (tokens : List Token) : Prop where
  /-- One of the tokens starts there. -/
  there : primary.place ∈ tokens.map Token.start
  /-- The tokens before it open the brackets that are open there. -/
  opens : Opens (primary.brackets tokens) (tokensBefore primary.place tokens)

/-- The part stands among the tokens behind so many open brackets. -/
def Behind (count : Nat) (part tokens : List Token) : Prop :=
  ∃ left right, tokens = left ++ (part ++ right) ∧ Opens count left

/-- The tokens before a token of a part are those before the part and those of the part before it,
if no two tokens start at one place. -/
theorem tokensBefore_part (distinct : ((left ++ (part ++ right)).map Token.start).Nodup)
    (there : place ∈ part.map Token.start) :
    tokensBefore place (left ++ (part ++ right)) = left ++ tokensBefore place part := by
  rw [List.map_append, List.map_append] at distinct
  have apart : ∀ token ∈ left, decide (token.start ≠ place) = true := by
    intro token member
    have start : token.start ∈ left.map Token.start := List.mem_map_of_mem member
    have inside : place ∈ part.map Token.start ++ right.map Token.start :=
      List.mem_append_left _ there
    exact decide_eq_true ((List.nodup_append.mp distinct).2.2 _ start _ inside)
  have found : (tokensBefore place part).length ≠ part.length := by
    intro all
    have whole : tokensBefore place part = part := (List.takeWhile_sublist _).eq_of_length all
    obtain ⟨token, member, start⟩ := List.mem_map.mp there
    rw [← whole] at member
    have other : decide (token.start ≠ place) = true :=
      @List.mem_takeWhile_imp _ (fun token : Token => token.start ≠ place) _ _ member
    exact of_decide_eq_true other start
  unfold tokensBefore at found ⊢
  rw [List.takeWhile_append_of_pos apart, List.takeWhile_append, if_neg found]

namespace Behind

variable {count : Nat} {primary : Primary}

/-- What stands first stands behind no bracket. -/
theorem first (front rest : List Token) : Behind 0 front (front ++ rest) :=
  ⟨[], rest, rfl, rfl⟩

/-- What stands last stands behind the brackets that are open before it. -/
theorem last (opens : Opens count left) (part : List Token) :
    Behind count part (left ++ part) :=
  ⟨left, [], by rw [List.append_nil], opens⟩

/-- What stands in brackets behind a writing stands behind one open bracket. -/
theorem enclosed {opener : Token} (before : Opens 0 left)
    (opens : opener.kind.opens = true) (part right : List Token) :
    Behind 1 part (left ++ opener :: (part ++ right)) := by
  have inside := before.append (Opens.opening opens)
  exact ⟨left ++ [opener], right, by rw [List.append_assoc]; rfl, inside⟩

/-- Places that are distinct are so in a part. -/
theorem distinct (behind : Behind count part tokens)
    (apart : (tokens.map Token.start).Nodup) : (part.map Token.start).Nodup := by
  obtain ⟨left, right, rfl, _⟩ := behind
  have inside : part.Sublist (left ++ (part ++ right)) :=
    (List.sublist_append_left part right).trans (List.sublist_append_right _ _)
  exact (inside.map Token.start).nodup apart

/-- Where a primary stands in a part the brackets before the part are open as well. -/
theorem stands (behind : Behind count part tokens) (apart : (tokens.map Token.start).Nodup)
    (inside : primary.Stands part) :
    primary.Stands tokens ∧ primary.brackets tokens = count + primary.brackets part := by
  obtain ⟨left, right, rfl, opens⟩ := behind
  have before := tokensBefore_part apart inside.there
  have both := opens.append inside.opens
  rw [← before] at both
  have same : primary.brackets (left ++ (part ++ right)) = count + primary.brackets part :=
    both.openBrackets_eq
  refine ⟨⟨?_, by rw [same]; exact both⟩, same⟩
  rw [List.map_append, List.map_append]
  exact List.mem_append_right _ (List.mem_append_left _ inside.there)

end Behind

/-- The primaries of the values, which begin so many levels in, are within the limit. -/
def Within (levels : Nat) (values : List (Expr Span)) (tokens : List Token) (limit : Nat) : Prop :=
  ∀ primary ∈ Expr.primariesAll values,
    levels + primary.brackets tokens + primary.operators ≤ limit

/-- How many levels a phrase adds to those around it. -/
def Phrase.levels : Phrase → Nat
  | .tier _ => 0
  | .whole | .arguments => 1

/-- The primaries stand in a writing, with the levels for which there is room, and no other room is
needed than for them. -/
structure Nested (phrase : Phrase) (room : Nat) (values : List (Expr Span)) (written : List Token) :
    Prop where
  /-- The primaries stand in the writing. -/
  stands : ∀ primary ∈ Expr.primariesAll values, primary.Stands written
  /-- There is room for them. -/
  within : Within phrase.levels values written room
  /-- There need not be more. -/
  narrow : ∀ more, Within phrase.levels values written more → Writing phrase more values written

/-- The primaries of a part are within the limit if they are so where the part stands. -/
theorem Behind.within_iff {levels count : Nat} (behind : Behind count part tokens)
    (apart : (tokens.map Token.start).Nodup)
    (stands : ∀ primary ∈ Expr.primariesAll values, primary.Stands part) :
    Within levels values tokens limit ↔ Within (levels + count) values part limit := by
  refine forall₂_congr fun primary member => ?_
  rw [(behind.stands apart (stands primary member)).2]
  omega

/-- Primaries of two parts stand where the parts do, and are within the limit if both are. -/
theorem Behind.both {count further : Nat} {front back : List Token} {one two : List (Expr Span)}
    (before : Behind count front tokens) (behind : Behind further back tokens)
    (apart : (tokens.map Token.start).Nodup)
    (left : ∀ primary ∈ Expr.primariesAll one, primary.Stands front)
    (right : ∀ primary ∈ Expr.primariesAll two, primary.Stands back)
    (same : Expr.primariesAll values = Expr.primariesAll one ++ Expr.primariesAll two) :
    (∀ primary ∈ Expr.primariesAll values, primary.Stands tokens) ∧
      ∀ levels limit, Within levels values tokens limit ↔
        Within (levels + count) one front limit ∧ Within (levels + further) two back limit := by
  constructor
  · rw [same]
    refine List.forall_mem_append.mpr ⟨fun primary member => ?_, fun primary member => ?_⟩
    · exact (before.stands apart (left primary member)).1
    · exact (behind.stands apart (right primary member)).1
  · intro levels limit
    rw [← before.within_iff apart left, ← behind.within_iff apart right]
    unfold Within
    rw [same, List.forall_mem_append]

namespace Nested

variable {phrase inner first second : Phrase} {one two : List (Expr Span)}
  {front back : List Token} {count further : Nat}

/-- A phrase around a part is nested as the part is. -/
theorem around (nested : Nested inner room one part)
    (behind : Behind count part written) (apart : (written.map Token.start).Nodup)
    (levels : phrase.levels + count = inner.levels)
    (same : Expr.primariesAll values = Expr.primariesAll one)
    (rule : ∀ more, Writing inner more one part → Writing phrase more values written) :
    Nested phrase room values written := by
  have within (limit : Nat) :
      Within phrase.levels values written limit ↔ Within inner.levels one part limit := by
    rw [← levels, ← behind.within_iff apart nested.stands]
    unfold Within
    rw [same]
  refine ⟨fun primary member => ?_, (within room).mpr nested.within, fun more bound => ?_⟩
  · rw [same] at member
    exact (behind.stands apart (nested.stands primary member)).1
  · exact rule more (nested.narrow more ((within more).mp bound))

/-- A phrase of two parts is nested as the deeper of them. -/
theorem join (left : Nested first room one front) (right : Nested second room two back)
    (before : Behind count front written) (behind : Behind further back written)
    (apart : (written.map Token.start).Nodup)
    (outer : phrase.levels + count = first.levels) (later : phrase.levels + further = second.levels)
    (same : Expr.primariesAll values = Expr.primariesAll one ++ Expr.primariesAll two)
    (rule : ∀ more, Writing first more one front → Writing second more two back →
      Writing phrase more values written) :
    Nested phrase room values written := by
  have both := before.both behind apart left.stands right.stands same
  have within (limit : Nat) : Within phrase.levels values written limit ↔
      Within first.levels one front limit ∧ Within second.levels two back limit := by
    rw [← outer, ← later]
    exact both.2 phrase.levels limit
  refine ⟨both.1, (within room).mpr ⟨left.within, right.within⟩, fun more bound => ?_⟩
  have bounds := (within more).mp bound
  exact rule more (left.narrow more bounds.1) (right.narrow more bounds.2)

/-- A leaf needs no room. -/
theorem leaf {loosest : Tier} {token : Token} {expr : Expr Span}
    (alone : token.leaf? = some expr) : Nested (.tier loosest) room [expr] [token] := by
  have none : tokensBefore token.start [token] = [] :=
    List.takeWhile_cons_of_neg (by rw [decide_eq_true_iff]; exact not_not_intro rfl)
  have brackets : openBrackets (tokensBefore token.start [token]) = 0 := by rw [none]; rfl
  refine ⟨?_, ?_, fun more _ => .leaf alone⟩
  · rw [Expr.primariesAll_singleton, leaf?_primaries alone, List.forall_mem_singleton]
    refine ⟨List.mem_singleton.mpr rfl, ?_⟩
    show Opens (openBrackets (tokensBefore token.start [token])) (tokensBefore token.start [token])
    rw [brackets, none]
    rfl
  · rw [Within, Expr.primariesAll_singleton, leaf?_primaries alone, List.forall_mem_singleton]
    show 0 + openBrackets (tokensBefore token.start [token]) + 0 ≤ room
    omega

/-- A phrase one level around a part is nested one level deeper. -/
theorem deepen (nested : Nested inner room one part)
    (stands : ∀ primary ∈ Expr.primariesAll values, primary.Stands written)
    (within : ∀ limit, Within phrase.levels values written (limit + 1) ↔
      Within inner.levels one part limit)
    (positive : ¬ Within phrase.levels values written 0)
    (rule : ∀ more, Writing inner more one part → Writing phrase (more + 1) values written) :
    Nested phrase (room + 1) values written := by
  refine ⟨stands, (within room).mpr nested.within, fun more bound => ?_⟩
  cases more with
  | zero => exact absurd bound positive
  | succ more => exact rule more (nested.narrow more ((within more).mp bound))

/-- An expression that begins afresh is nested one level deeper. -/
theorem whole {expr : Expr Span} (nested : Nested (.tier .lowest) room [expr] written) :
    Nested .whole (room + 1) [expr] written := by
  refine nested.deepen nested.stands (fun limit => ?_) (fun bound => ?_) fun _ => .whole
  · refine forall₂_congr fun primary _ => ?_
    rw [Phrase.levels, Phrase.levels]
    omega
  · obtain ⟨primary, member⟩ := Expr.exists_primary expr
    have deep := bound primary (List.mem_append_left _ member)
    rw [Phrase.levels] at deep
    omega

/-- An operand is nested one level deeper than the operator before it. -/
theorem unary {loosest : Tier} {op : UnaryOp} {token : Token} {operand : Expr Span}
    (found : token.kind.unaryOp? = some op) (allowed : loosest.rank ≤ op.tier.rank)
    (nested : Nested (.tier op.tier) room [operand] part)
    (apart : ((token :: part).map Token.start).Nodup) :
    Nested (.tier loosest) (room + 1) [.unary token.span op operand] (token :: part) := by
  have behind : Behind 0 part (token :: part) := .last (.plain (plain_of_unaryOp? found)) part
  have primaries : Expr.primariesAll [.unary token.span op operand] =
      (Expr.primariesAll [operand]).map Primary.under := by
    rw [Expr.primariesAll_singleton, Expr.primariesAll_singleton, Expr.primaries]
  refine nested.deepen ?_ (fun limit => ?_) (fun bound => ?_) fun _ => .unary found allowed
  · rw [primaries, List.forall_mem_map]
    intro primary member
    have stands := (behind.stands apart (nested.stands primary member)).1
    exact ⟨stands.there, stands.opens⟩
  · rw [Phrase.levels, Phrase.levels, ← Nat.add_zero 0, ← behind.within_iff apart nested.stands]
    unfold Within
    rw [primaries, List.forall_mem_map]
    refine forall₂_congr fun primary _ => ?_
    rw [Nat.add_zero]
    exact Nat.succ_le_succ_iff
  · obtain ⟨primary, member⟩ := Expr.exists_primary operand
    rw [Within, primaries, List.forall_mem_map] at bound
    have deep : _ + (primary.operators + 1) ≤ 0 :=
      bound primary (List.mem_append_left _ member)
    omega

end Nested

/-- The room that a writing needs is that for its primaries, if no two of its tokens start at one
place. -/
theorem Writing.nested {phrase : Phrase} (writing : Writing phrase room values written)
    (apart : (written.map Token.start).Nodup) : Nested phrase room values written := by
  induction writing with
  | whole _ ih => exact (ih apart).whole
  | leaf alone => exact .leaf alone
  | @group loosest room opener closer expr inside opens closes _ ih =>
    have none : Opens 0 ([] : List Token) := rfl
    have behind := Behind.enclosed none (TokenKind.opens_iff.mpr (.inl opens)) inside [closer]
    exact (ih (behind.distinct apart)).around behind apart rfl rfl fun _ => .group opens closes
  | @binary loosest room op token lhs rhs left right found allowed leftWriting _ first second =>
    have before := Behind.first left (token :: right)
    have behind : Behind 0 right (left ++ token :: right) := by
      rw [List.append_cons]
      exact .last (leftWriting.opens_none.append (.plain (plain_of_binaryOp? found))) right
    refine (first (before.distinct apart)).join (second (behind.distinct apart)) before behind apart
      rfl rfl ?_ fun _ => .binary found allowed
    simp only [Expr.primariesAll, Expr.primaries, List.append_nil]
  | @unary loosest room op token operand part found allowed _ ih =>
    have behind := Behind.last (.plain (plain_of_unaryOp? found)) part
    exact (ih (behind.distinct apart)).unary found allowed apart
  | @index loosest room opener closer target position before inside opens closes writing _ first
      second =>
    have front := Behind.first before (opener :: (inside ++ [closer]))
    have opened := TokenKind.opens_iff.mpr (.inr opens)
    have behind := Behind.enclosed writing.opens_none opened inside [closer]
    refine (first (front.distinct apart)).join (second (behind.distinct apart)) front behind apart
      rfl rfl ?_ fun _ => .index opens closes
    simp only [Expr.primariesAll, Expr.primaries, List.append_nil]
  | @call_empty loosest room opener closer callee before opens closes _ ih =>
    have front := Behind.first before [opener, closer]
    refine (ih (front.distinct apart)).around front apart rfl ?_ fun _ => .call_empty opens closes
    simp only [Expr.primariesAll, Expr.primaries, List.append_nil]
  | @call loosest room opener closer callee arguments before inside opens closes writing _ first
      second =>
    have front := Behind.first before (opener :: (inside ++ [closer]))
    have opened := TokenKind.opens_iff.mpr (.inl opens)
    have behind := Behind.enclosed writing.opens_none opened inside [closer]
    refine (first (front.distinct apart)).join (second (behind.distinct apart)) front behind apart
      rfl rfl ?_ fun _ => .call opens closes
    simp only [Expr.primariesAll, Expr.primaries, List.append_nil]
  | @selector loosest room dot token selector target before dotted accepted _ ih =>
    have front := Behind.first before [dot, token]
    refine (ih (front.distinct apart)).around front apart rfl ?_ fun _ =>
      .selector dotted accepted
    cases selector <;> simp only [selected, Expr.primariesAll, Expr.primaries]
  | @last_argument room argument written _ ih =>
    have whole : Behind 0 written written := ⟨[], [], by rw [List.append_nil]; rfl, rfl⟩
    exact (ih apart).around whole apart rfl rfl fun _ => .last_argument
  | @argument room comma argument arguments before others separates writing _ first second =>
    have separator := Opens.plain (.of_mark separates ⟨rfl, rfl⟩)
    have front := Behind.first before (comma :: others)
    have behind : Behind 0 others (before ++ comma :: others) := by
      rw [List.append_cons]
      exact .last (writing.opens_none.append separator) others
    refine (first (front.distinct apart)).join (second (behind.distinct apart)) front behind apart
      rfl rfl ?_ fun _ => .argument separates
    simp only [Expr.primariesAll, List.append_nil]

/-- How deep trees are nested that the tokens write: a primary is one level deep, and one more for
every bracket that is open where it stands and for every operator before an operand that it stands
under. -/
def nesting (tokens : List Token) (roots : List (Expr Span)) : Nat :=
  ((Expr.primariesAll roots).map fun primary =>
    1 + primary.brackets tokens + primary.operators).foldr max 0

/-- Trees are nested no deeper than a limit if their primaries are within it. -/
theorem nesting_le : nesting tokens values ≤ limit ↔ Within 1 values tokens limit := by
  constructor
  · intro bound primary member
    exact Nat.le_trans (List.le_max_of_le' 0 (List.mem_map_of_mem member) (Nat.le_refl _)) bound
  · intro within
    exact List.max_le_of_forall_le _ _ (List.forall_mem_map.mpr within)

/-- The primaries of a program stand in it, within its limit, and no greater limit is needed than
for them. -/
theorem Program.nested {roots : List (Expr Span)} (program : Program limit tokens roots)
    (apart : (tokens.map Token.start).Nodup) :
    (∀ primary ∈ Expr.primariesAll roots, primary.Stands tokens) ∧
      Within 1 roots tokens limit ∧
      ∀ more, Within 1 roots tokens more → Program more tokens roots := by
  induction program with
  | nil => exact ⟨List.forall_mem_nil _, List.forall_mem_nil _, fun _ _ => .nil⟩
  | @cons root roots written rest writing closed _ ih =>
    have front := Behind.first written rest
    have behind := Behind.last writing.opens_none rest
    have first := writing.nested (front.distinct apart)
    have others := ih (behind.distinct apart)
    have same : Expr.primariesAll (root :: roots) =
        Expr.primariesAll [root] ++ Expr.primariesAll roots := by
      rw [Expr.primariesAll_singleton, Expr.primariesAll]
    have both := front.both behind apart first.stands others.1 same
    refine ⟨both.1, (both.2 1 _).mpr ⟨first.within, others.2.1⟩, fun more bound => ?_⟩
    have bounds := (both.2 1 more).mp bound
    exact .cons (first.narrow more bounds.1) closed (others.2.2 more bounds.2)

/-- The limits under which a program is one are those that it is nested no deeper than. -/
theorem Program.iff_nesting_le {roots : List (Expr Span)} (program : Program limit tokens roots)
    (apart : (tokens.map Token.start).Nodup) (more : Nat) :
    Program more tokens roots ↔ nesting tokens roots ≤ more := by
  rw [nesting_le]
  constructor
  · exact fun again => (again.nested apart).2.1
  · exact (program.nested apart).2.2 more

/-- The nesting limit is a sharp threshold and changes nothing else. Under every limit below it a
source fails for its nesting, and tells the limit; under every other limit it is answered alike,
reports the same and leaves the same store. If it is parsed then, the threshold is how deep its
trees are nested, and 0 for a source without tokens. -/
theorem nesting_limit_is_sharp (source : Source) :
    ∃ (threshold : Nat) (answer : Except SyntaxError Unit) (after : Session),
      (∀ limit < threshold, ∃ place,
        (Session.start source limit).program.1 = .error (.nestingTooDeep place limit)) ∧
      (∀ limit, threshold ≤ limit → (Session.start source limit).program =
        (answer, { after with context := (Session.start source limit).context })) ∧
      (∀ place limit, answer ≠ .error (.nestingTooDeep place limit)) ∧
      (answer = .ok () →
        threshold = nesting source.tokenStream.tokens (source.outcome threshold).roots) ∧
      (source.tokenStream.tokens = [] → threshold = 0) := by
  obtain ⟨threshold, shallow, deep⟩ := source.exists_threshold
  have fails : ∀ limit < threshold, ∃ place,
      (Session.start source limit).program.1 = .error (.nestingTooDeep place limit) :=
    fun limit below => Session.tooDeep_iff.mp (deep limit below)
  have widens (limit : Nat) (reached : threshold ≤ limit) :=
    Source.program_widen shallow reached
  refine ⟨threshold, _, _, fails, widens, ?_, ?_, ?_⟩
  · intro place limit failed
    obtain ⟨failure, completed, stopped, error⟩ := Session.program_error failed
    exact shallow ⟨failure, completed, stopped, by rw [error]; trivial⟩
  · intro success
    have program := (source.program_iff threshold _).mpr ⟨success, rfl⟩
    have bound := program.iff_nesting_le source.starts_distinct
    have enough := (bound threshold).mp program
    by_cases less : nesting source.tokenStream.tokens (source.outcome threshold).roots < threshold
    · -- A lower limit would do, but under every lower limit the source fails.
      have again := (source.program_iff _ _).mp ((bound _).mpr (Nat.le_refl _))
      obtain ⟨place, failed⟩ := fails _ less
      rw [again.1] at failed
      cases failed
    · omega
  · intro nothing
    by_cases positive : 0 < threshold
    · obtain ⟨failure, completed, stopped, _⟩ := deep 0 positive
      have empty : (source.outcome 0).stop = none := by
        show (parseProgram _ source.tokenStream.tokens).stop = _
        rw [nothing, parseProgram]
      rw [empty] at stopped
      cases stopped
    · omega

/-- The number in the index is the deepest primary here: it is in two brackets and under one
operator, and neither the sum around it nor the selector counts. -/
example : nesting (⟨0, "deep.sb", "a + f(-x[1].y) + b"⟩ : Source).tokenStream.tokens
    ((⟨0, "deep.sb", "a + f(-x[1].y) + b"⟩ : Source).outcome 4).roots = 4 := by
  decide +kernel

end Cascade
