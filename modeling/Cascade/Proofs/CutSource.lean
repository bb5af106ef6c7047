import Cascade.Proofs.LineLexing

/-!
# Cutting a text between tokens

A text that is cut where a token starts has the tokens that stood before it. What was read before
the cut ended before it, so it did not look at what is cut off but for one character that could have
made it longer and did not. Tokens start one behind the other, so a place tells its token.
-/
namespace Cascade

/-- The codepoints of a text before a place, when the text starts here. -/
def charsUpTo (place : Position) : Position → List Char → List Char
  | _, [] => []
  | here, c :: rest => if here = place then [] else c :: charsUpTo place (here.after c) rest

/-- The source cut before a place. -/
def Source.upTo (source : Source) (id : Nat) (place : Position) : Source :=
  ⟨id, source.name, String.ofList (charsUpTo place .first source.chars)⟩

/-- The first place is on an earlier line, or on the same one in an earlier column. -/
def Position.Before (here there : Position) : Prop :=
  here.line < there.line ∨ here.line = there.line ∧ here.column < there.column

/-- A codepoint comes before the place after it. -/
theorem Position.before_after (here : Position) (c : Char) : here.Before (here.after c) := by
  unfold Position.Before Position.after
  split
  · exact .inl (Nat.lt_succ_self _)
  · exact .inr ⟨rfl, Nat.lt_succ_self _⟩

/-- Places follow one another. -/
theorem Position.Before.trans {one two three : Position} (early : one.Before two)
    (late : two.Before three) : one.Before three := by
  unfold Position.Before at *
  omega

/-- A place stands before the place after a text from it on. -/
theorem before_placeAfter (before : List Char) {text : List Char} (nonempty : text ≠ []) :
    (placeAfter before).Before (placeAfter (before ++ text)) := by
  induction text generalizing before with
  | nil => exact absurd rfl nonempty
  | cons c text ih =>
    have step := (placeAfter before).before_after c
    rw [List.append_cons, ← placeAfter_append_singleton] at *
    cases text with
    | nil => rwa [List.append_nil]
    | cons next text => exact step.trans (ih (before ++ [c]) nofun)

/-- The text before the place at which a part of it ends is that part. -/
theorem charsUpTo_placeAfter (before front behind : List Char) :
    charsUpTo (placeAfter (before ++ front)) (placeAfter before) (front ++ behind) = front := by
  induction front generalizing before with
  | nil =>
    rw [List.append_nil, List.nil_append]
    cases behind with
    | nil => rfl
    | cons c behind => rw [charsUpTo, if_pos rfl]
  | cons c front ih =>
    have apart : placeAfter before ≠ placeAfter (before ++ c :: front) := by
      intro same
      have ahead := before_placeAfter before (List.cons_ne_nil c front)
      rw [← same] at ahead
      unfold Position.Before at ahead
      omega
    rw [List.cons_append, charsUpTo, if_neg apart, List.append_cons, ← placeAfter_append_singleton,
      ih]

/-- What a run of a class leaves of a text before a cut it leaves of the whole, if it does not go
over the cut. -/
theorem dropWhile_cut {p : Char → Bool} {text behind left : List Char}
    (stopped : (text ++ behind).dropWhile p = left ++ behind) :
    text.dropWhile p = left ∧ (text ++ behind).takeWhile p = text.takeWhile p := by
  induction text with
  | nil =>
    have covered := List.takeWhile_append_dropWhile (p := p) (l := behind)
    rw [List.nil_append] at stopped ⊢
    rw [stopped, ← List.append_assoc] at covered
    have nothing := List.append_left_eq_self.mp covered
    obtain ⟨taken, rfl⟩ := List.append_eq_nil_iff.mp nothing
    exact ⟨rfl, taken⟩
  | cons c text ih =>
    by_cases belongs : p c = true
    · rw [List.cons_append, List.dropWhile_cons_of_pos belongs] at stopped
      obtain ⟨dropped, taken⟩ := ih stopped
      rw [List.dropWhile_cons_of_pos belongs, List.cons_append, List.takeWhile_cons_of_pos belongs,
        List.takeWhile_cons_of_pos belongs, taken]
      exact ⟨dropped, rfl⟩
    · rw [List.dropWhile_cons_of_neg belongs, List.cons_append, List.takeWhile_cons_of_neg belongs,
        List.takeWhile_cons_of_neg belongs]
      rw [List.cons_append, List.dropWhile_cons_of_neg belongs, ← List.cons_append] at stopped
      exact ⟨List.append_cancel_right stopped, rfl⟩

namespace Lexeme

variable {first : Char} {tail behind left : List Char}

/-- A mark that ends before a cut is found in the text before it. -/
theorem extendMark_cut {single sign : Mark} {longer : List (Char × Mark)}
    (found : extendMark single longer (tail ++ behind) = (sign, left ++ behind)) :
    extendMark single longer tail = (sign, left) := by
  cases tail with
  | nil =>
    rw [List.nil_append] at found
    unfold extendMark at found
    split at found
    · obtain ⟨rfl, same⟩ := Prod.mk.inj found
      have nothing : left = [] := (List.append_eq_nil_iff.mp same.symm).1
      rw [nothing]
      rfl
    · next c rest =>
      split at found
      · obtain ⟨_, same⟩ := Prod.mk.inj found
        have shorter := congrArg List.length same
        rw [List.length_append, List.length_cons] at shorter
        omega
      · obtain ⟨rfl, same⟩ := Prod.mk.inj found
        have nothing : left = [] := List.append_left_eq_self.mp same.symm
        rw [nothing]
        rfl
  | cons second tail =>
    simp only [List.cons_append, extendMark] at found ⊢
    cases known : longer.lookup second with
    | some both =>
      simp only [known, Prod.mk.injEq] at found ⊢
      exact ⟨found.1, List.append_cancel_right found.2⟩
    | none =>
      simp only [known, Prod.mk.injEq] at found ⊢
      exact ⟨found.1, List.append_cancel_right found.2⟩

/-- A string literal that ends before a cut is found in the text before it. -/
theorem scanString_cut {lexeme : Lexeme}
    (found : scanString (tail ++ behind) = (lexeme, left ++ behind)) :
    scanString tail = (lexeme, left) := by
  unfold scanString at found ⊢
  cases rest : (tail ++ behind).dropWhile isStringPart with
  | nil =>
    simp only [rest, Prod.mk.injEq] at found
    have ended : (tail ++ behind).dropWhile isStringPart = left ++ behind := rest.trans found.2
    obtain ⟨dropped, taken⟩ := dropWhile_cut ended
    obtain ⟨rfl, rfl⟩ := List.append_eq_nil_iff.mp found.2.symm
    simp only [dropped, ← taken, found.1]
  | cons next rest' =>
    by_cases quote : next = '"'
    · subst quote
      simp only [rest, Prod.mk.injEq] at found
      have ended : (tail ++ behind).dropWhile isStringPart = ('"' :: left) ++ behind := by
        rw [rest, found.2, List.cons_append]
      obtain ⟨dropped, taken⟩ := dropWhile_cut ended
      simp only [dropped, ← taken, found.1]
    · simp only [rest] at found
      split at found
      · next same => cases same; exact absurd rfl quote
      · obtain ⟨same, remains⟩ := Prod.mk.inj found
        have ended : (tail ++ behind).dropWhile isStringPart = left ++ behind := rest.trans remains
        obtain ⟨dropped, taken⟩ := dropWhile_cut ended
        have other : ∀ later, left ≠ '"' :: later := by
          rintro later rfl
          rw [List.cons_append] at remains
          exact quote (List.cons.inj remains).1
        simp only [dropped]
        rw [← taken]
        exact Prod.ext same rfl

/-- A lexeme that ends before a cut is found in the text before it. -/
theorem scan_cut {lexeme : Lexeme}
    (found : scan first (tail ++ behind) = (lexeme, left ++ behind)) :
    scan first tail = (lexeme, left) := by
  cases started : markStart? first with
  | some mark =>
    obtain ⟨single, longer⟩ := mark
    simp only [scan, scanMark?, started, Option.map_some, Prod.mk.injEq] at found ⊢
    have cut := extendMark_cut (Prod.ext rfl found.2 :
      extendMark single longer (tail ++ behind) = (_, left ++ behind))
    exact ⟨by rw [cut]; exact found.1, by rw [cut]⟩
  | none =>
    simp only [scan, scanMark?, started, Option.map_none] at found ⊢
    by_cases quote : first = '"'
    · rw [if_pos quote] at found ⊢
      exact scanString_cut found
    · rw [if_neg quote] at found ⊢
      by_cases digit : isDigit first = true
      · rw [if_pos digit, Prod.mk.injEq] at found ⊢
        obtain ⟨dropped, taken⟩ := dropWhile_cut found.2
        exact ⟨by rw [← taken]; exact found.1, dropped⟩
      · rw [if_neg digit] at found ⊢
        by_cases start : isNameStart first = true
        · rw [if_pos start, Prod.mk.injEq] at found ⊢
          obtain ⟨dropped, taken⟩ := dropWhile_cut found.2
          exact ⟨by rw [← taken]; exact found.1, dropped⟩
        · rw [if_neg start, Prod.mk.injEq] at found ⊢
          exact ⟨found.1, List.append_cancel_right found.2⟩

end Lexeme

namespace Lexer

/-- A line that ends in a text is skipped in it as in a longer one. -/
theorem skipLine_inside {text rest : List Char}
    (found : Cursor.afterLineFeed? text = some rest) (behind : List Char) (place : Position) :
    Cursor.skipLine ⟨text, place⟩ = ⟨rest, place.nextLine⟩ ∧
      Cursor.skipLine ⟨text ++ behind, place⟩ = ⟨rest ++ behind, place.nextLine⟩ := by
  obtain ⟨line, oneLine, rfl⟩ := afterLineFeed?_split found
  have further :
      Cursor.afterLineFeed? (line ++ '\n' :: rest ++ behind) = some (rest ++ behind) := by
    rw [List.append_assoc, afterLineFeed?_append oneLine, List.cons_append, Cursor.afterLineFeed?,
      if_pos rfl]
  exact ⟨skipLine_next found, skipLine_next further⟩

/-- A line that does not end in a text ends in what stands behind it. -/
theorem skipLine_beyond {text behind : List Char} (oneLine : '\n' ∉ text) (more : behind ≠ [])
    (place : Position) :
    (Cursor.skipLine ⟨text ++ behind, place⟩).ahead.length < behind.length := by
  unfold Cursor.skipLine
  split
  · next rest found =>
    rw [afterLineFeed?_append oneLine] at found
    exact Cursor.afterLineFeed?_length found
  · exact List.length_pos_iff.mpr more

/-- Nothing is skipped if as much is ahead as there was. -/
theorem skipTrivia_stays {cursor : Cursor}
    (long : cursor.ahead.length ≤ (skipTrivia cursor).ahead.length) :
    skipTrivia cursor = cursor := by
  rw [skipTrivia] at long ⊢
  split at long
  · rfl
  · next c rest same =>
    split at long
    · have skipped := skipTrivia_length ⟨rest, cursor.position.after c⟩
      rw [same, List.length_cons] at long
      simp only at skipped
      omega
    · split at long
      · have more : cursor.ahead ≠ [] := by rw [same]; nofun
        have dropped := Cursor.skipLine_length more
        have skipped := skipTrivia_length cursor.skipLine
        omega
      · next blank slashes => rw [if_neg blank, if_neg slashes]

/-- Trivia that end before a cut are skipped in the text before it. -/
theorem skipTrivia_cut {text behind left : List Char} {place stop : Position}
    (stopped : skipTrivia ⟨text ++ behind, place⟩ = ⟨left ++ behind, stop⟩) :
    skipTrivia ⟨text, place⟩ = ⟨left, stop⟩ := by
  obtain rfl | nonempty := eq_or_ne behind []
  · rwa [List.append_nil, List.append_nil] at stopped
  have reached : (skipTrivia ⟨text ++ behind, place⟩).ahead.length =
      left.length + behind.length := by rw [stopped, List.length_append]
  induction remaining : text.length using Nat.strongRecOn generalizing text place with
  | _ remaining ih =>
    cases text with
    | nil =>
      have long : behind.length ≤ (skipTrivia ⟨[] ++ behind, place⟩).ahead.length := by
        rw [reached]
        exact Nat.le_add_left ..
      have stays : skipTrivia ⟨[] ++ behind, place⟩ = _ := skipTrivia_stays long
      obtain ⟨same, rfl⟩ := Cursor.mk.inj (stays.symm.trans stopped)
      have nothing : left = [] := List.append_left_eq_self.mp same.symm
      rw [nothing, skipTrivia_nil]
    | cons c text =>
      by_cases blank : isBlank c = true
      · rw [List.cons_append, skipTrivia_blank blank] at stopped reached
        rw [skipTrivia_blank blank]
        exact ih text.length (remaining ▸ Nat.lt_succ_self _) stopped reached rfl
      · have notBlank := Bool.eq_false_iff.mpr blank
        by_cases slashes : c = '/' ∧ (text ++ behind).head? = some '/'
        · obtain ⟨rfl, second⟩ := slashes
          obtain ⟨tail, split⟩ := List.head?_eq_some_iff.mp second
          rw [List.cons_append, split, skipTrivia_comment, ← split, ← List.cons_append]
            at stopped reached
          cases found : Cursor.afterLineFeed? ('/' :: text) with
          | some rest =>
            obtain ⟨along, whole⟩ := skipLine_inside found behind place
            rw [whole] at stopped reached
            have first : ∃ tail, text = '/' :: tail := by
              cases text with
              | nil => cases found
              | cons next tail =>
                rw [List.cons_append] at second
                obtain rfl := Option.some.inj second
                exact ⟨tail, rfl⟩
            obtain ⟨tail, rfl⟩ := first
            rw [skipTrivia_comment, along]
            have shorter := Cursor.afterLineFeed?_length found
            rw [remaining] at shorter
            exact ih _ shorter stopped reached rfl
          | none =>
            have beyond := skipLine_beyond (not_mem_of_afterLineFeed? found) nonempty place
            have skipped := skipTrivia_length (Cursor.skipLine ⟨'/' :: text ++ behind, place⟩)
            omega
        · have noComment : ¬ (c = '/' ∧ text.head? = some '/') := by
            rintro ⟨slash, second⟩
            refine slashes ⟨slash, ?_⟩
            rw [List.head?_append, second]
            rfl
          rw [List.cons_append, skipTrivia_lexeme notBlank slashes] at stopped
          rw [skipTrivia_lexeme notBlank noComment]
          obtain ⟨same, rfl⟩ := Cursor.mk.inj stopped
          rw [← List.cons_append] at same
          rw [List.append_cancel_right same]

/-- A token that ends before a cut is found in the text before it. -/
theorem next?_cut {text behind left : List Char} {place stop : Position} {token : Token}
    (found : next? ⟨text ++ behind, place⟩ = some (token, ⟨left ++ behind, stop⟩)) :
    next? ⟨text, place⟩ = some (token, ⟨left, stop⟩) := by
  cases stopped : skipTrivia ⟨text ++ behind, place⟩ with
  | mk ahead here =>
    cases ahead with
    | nil => rw [next?_ended stopped] at found; cases found
    | cons first rest =>
      rw [next?_found stopped] at found
      obtain ⟨same, later⟩ := Prod.mk.inj (Option.some.inj found)
      obtain ⟨remains, rfl⟩ := Cursor.mk.inj later
      -- The lexeme itself stands before the cut, as the text behind it reaches over the cut.
      have covered := (Lexeme.scan_written (skipTrivia_not_blank (congrArg Cursor.ahead stopped))
        rest).1
      have shorter := Lexeme.scan_length first rest
      rw [remains] at covered shorter
      have inside : ∃ tail, rest = tail ++ behind := by
        cases written : (Lexeme.scan first rest).1.written with
        | nil =>
          rw [written, List.nil_append] at covered
          rw [← covered, List.length_cons] at shorter
          omega
        | cons c others =>
          rw [written, List.cons_append, ← List.append_assoc] at covered
          exact ⟨others ++ left, (List.cons.inj covered).2⟩
      obtain ⟨tail, rfl⟩ := inside
      have whole : Lexeme.scan first (tail ++ behind) = (_, left ++ behind) := Prod.ext rfl remains
      have scanned := Lexeme.scan_cut whole
      rw [← List.cons_append] at stopped
      rw [next?_found (skipTrivia_cut stopped), scanned, ← same]

/-- The tokens before a token are those of the text before it. -/
theorem run_cut {text before : List Char} {used later : List Token} {token : Token}
    (found : (run ⟨text, placeAfter before⟩).1 = used ++ token :: later) :
    ∃ front behind, text = front ++ behind ∧ token.start = placeAfter (before ++ front) ∧
      (run ⟨front, placeAfter before⟩).1 = used := by
  induction used generalizing text before with
  | nil =>
    rw [run_eq] at found
    cases stopped : skipTrivia ⟨text, placeAfter before⟩ with
    | mk ahead here =>
      cases ahead with
      | nil => rw [next?_ended stopped] at found; cases found
      | cons first rest =>
        rw [next?_found stopped] at found
        obtain ⟨rfl, _⟩ := List.cons.inj found
        have placed : (⟨text, placeAfter before⟩ : Cursor).position = placeAfter before := rfl
        have gaps := skipTrivia_gap placed
        rw [stopped] at gaps
        obtain ⟨gap, _, split, place⟩ | ⟨_, ended⟩ := gaps
        · simp only at split place
          subst split
          have skipped : skipTrivia ⟨gap, placeAfter before⟩ = ⟨[], here⟩ := skipTrivia_cut stopped
          refine ⟨gap, first :: rest, rfl, place, ?_⟩
          rw [run_eq, next?_ended skipped]
        · cases ended
  | cons first used ih =>
    rw [run_eq] at found
    cases step : next? ⟨text, placeAfter before⟩ with
    | none => rw [step] at found; cases found
    | some next =>
      obtain ⟨token', ahead, place⟩ := next
      rw [step] at found
      obtain ⟨rfl, others⟩ := List.cons.inj found
      obtain ⟨piece, _, _, split, moved⟩ := next?_stands rfl step
      simp only at split moved
      subst split moved
      obtain ⟨front, behind, rfl, start, tokens⟩ := ih others
      rw [← List.append_assoc] at step
      refine ⟨piece.text ++ front, behind, (List.append_assoc ..).symm, ?_, ?_⟩
      · rw [start, List.append_assoc]
      · rw [run_eq, next?_cut step]
        exact congrArg (token' :: ·) tokens

end Lexer

namespace Lexer

/-- A token does not start before the cursor, and it starts before the place behind it. -/
theorem next?_advances {cursor later : Cursor} {token : Token} {before : List Char}
    (placed : cursor.position = placeAfter before) (found : next? cursor = some (token, later)) :
    ¬ token.start.Before cursor.position ∧ token.start.Before later.position := by
  cases stopped : skipTrivia cursor with
  | mk ahead here =>
    cases ahead with
    | nil => rw [next?_ended stopped] at found; cases found
    | cons first rest =>
      have gap := skipTrivia_gap placed
      have covered := (Lexeme.scan_written (skipTrivia_not_blank (congrArg Cursor.ahead stopped))
        rest).1
      have wide : 0 < (Lexeme.scan first rest).1.width := by
        have long := congrArg List.length covered
        have shorter := Lexeme.scan_length first rest
        rw [List.length_cons, List.length_append] at long
        show 0 < (Lexeme.scan first rest).1.written.length
        omega
      rw [next?_found stopped] at found
      cases found
      rw [stopped] at gap
      rcases gap with ⟨skipped, _, _, place⟩ | ⟨_, ended⟩
      · have start : here = placeAfter (before ++ skipped) := place
        refine ⟨?_, .inr ⟨rfl, Nat.lt_add_of_pos_right wide⟩⟩
        show ¬ here.Before cursor.position
        by_cases none : skipped = []
        · rw [start, placed, none, List.append_nil]
          unfold Position.Before
          omega
        · have ahead := before_placeAfter before none
          rw [start, placed]
          unfold Position.Before at *
          omega
      · cases ended

/-- The tokens of a run start one behind the other, and none before the cursor. -/
theorem run_ordered {cursor : Cursor} {before : List Char}
    (placed : cursor.position = placeAfter before) :
    (∀ token ∈ (run cursor).1, ¬ token.start.Before cursor.position) ∧
      (run cursor).1.Pairwise fun one other => one.start.Before other.start := by
  induction remaining : cursor.ahead.length using Nat.strongRecOn generalizing cursor before with
  | _ remaining ih =>
    rw [run_eq]
    cases step : next? cursor with
    | none => exact ⟨List.forall_mem_nil _, .nil⟩
    | some found =>
      have shorter := next?_length step
      rw [remaining] at shorter
      obtain ⟨_, _, _, _, place⟩ := next?_stands placed step
      have advances := next?_advances placed step
      have others := ih _ shorter place rfl
      have further : ∀ token ∈ (run found.2).1, found.1.start.Before token.start := by
        intro token member
        have behind := others.1 token member
        unfold Position.Before at *
        omega
      refine ⟨List.forall_mem_cons.mpr ⟨advances.1, fun token member => ?_⟩,
        .cons further others.2⟩
      have behind := further token member
      unfold Position.Before at *
      omega

end Lexer

namespace Source

/-- A source that is cut before a token has the tokens before it. -/
theorem tokens_upTo (source : Source) (id : Nat) {used later : List Token} {token : Token}
    (tokens : source.tokenStream.tokens = used ++ token :: later) :
    (source.upTo id token.start).tokenStream.tokens = used := by
  have found : (Lexer.run ⟨source.chars, placeAfter []⟩).1 = used ++ token :: later := tokens
  obtain ⟨front, behind, split, start, before⟩ := Lexer.run_cut found
  have text : (source.upTo id token.start).chars = front := by
    have cut := charsUpTo_placeAfter [] front behind
    rw [← start, ← split] at cut
    exact String.toList_ofList.trans cut
  have cursor : Cursor.start (source.upTo id token.start) = ⟨front, placeAfter []⟩ :=
    congrArg (Cursor.mk · .first) text
  rw [tokenStream, cursor]
  exact before

/-- No two tokens of a source start at one place. -/
theorem starts_distinct (source : Source) :
    (source.tokenStream.tokens.map Token.start).Nodup := by
  have placed : (Cursor.start source).position = placeAfter [] := rfl
  have ordered := (Lexer.run_ordered placed).2
  refine List.pairwise_map.mpr (ordered.imp fun {one other} before same => ?_)
  unfold Position.Before at before
  rw [same] at before
  omega

end Source

end Cascade
