import Cascade.Json.Error

/-!
# Readers of documents

A reader takes a value from the front of a text and leaves the rest. No reader leaves more than it
was given, which is part of what a reader is; so a loop that takes at least one character each time
round ends, whatever readers its body is made of. That loop, `Reader.loop`, is the only repetition
there is.
-/
namespace Cascade.Json

/-- Takes a value from the front of a text. -/
structure Reader (α : Type) where
  /-- The value and the text after it. -/
  run : List Char → Except JsonError (α × List Char)
  /-- What is left is no longer than what was given. -/
  shrinks : ∀ {text rest : List Char} {value : α},
    run text = .ok (value, rest) → rest.length ≤ text.length

namespace Reader

variable {α β σ : Type}

/-- A value that takes nothing from the text. -/
def give (value : α) : Reader α where
  run text := .ok (value, text)
  shrinks same := by cases same; exact Nat.le_refl _

/-- One reader and then another that depends on what the first one took. -/
def follow (first : Reader α) (second : α → Reader β) : Reader β where
  run text :=
    match first.run text with
    | .error error => .error error
    | .ok (value, rest) => (second value).run rest
  shrinks same := by
    split at same
    · cases same
    · next taken => exact Nat.le_trans ((second _).shrinks same) (first.shrinks taken)

/-- Readers follow one another; the first refusal is the refusal of all. -/
instance : Monad Reader where
  pure := give
  bind := follow

/-- Refuses every text. -/
def fail (error : JsonError) : Reader α where
  run _ := .error error
  shrinks same := by cases same

/-- The text ahead, of which nothing is taken. -/
def ahead : Reader (List Char) where
  run text := .ok (text, text)
  shrinks same := by cases same; exact Nat.le_refl _

/-- Takes some characters off the text, fewer if it has not as many. -/
def skip (count : Nat) : Reader Unit where
  run text := .ok ((), text.drop count)
  shrinks same := by cases same; simp

/-- Takes the longest run of characters that satisfy the test. -/
def takeWhile (test : Char → Bool) : Reader (List Char) where
  run text := .ok (text.takeWhile test, text.dropWhile test)
  shrinks same := by cases same; exact (List.dropWhile_suffix _).length_le

/-- The next character, which is not taken; none at the end. -/
def peek? : Reader (Option Char) := do return (← ahead).head?

/-- Takes the next character. -/
def next (atEnd : JsonError) : Reader Char := do
  match ← peek? with
  | some c =>
    skip 1
    return c
  | none => fail atEnd

/-- How a round of a loop ends. -/
inductive Round (σ β : Type) where
  /-- The loop goes on from a state. -/
  | again (state : σ)
  /-- The loop ends with a value. -/
  | finish (value : β)

/-- Takes a character and does what the body says, until the body ends the loop. -/
def loopRun (atEnd : σ → JsonError) (body : σ → Char → Reader (Round σ β)) (state : σ)
    (text : List Char) : Except JsonError (β × List Char) :=
  match text with
  | [] => .error (atEnd state)
  | c :: rest =>
    match _taken : (body state c).run rest with
    | .error error => .error error
    | .ok (.finish value, left) => .ok (value, left)
    | .ok (.again later, left) => loopRun atEnd body later left
termination_by text.length
decreasing_by
  have := (body state c).shrinks _taken
  simp only [List.length_cons]; omega

/-- A loop leaves no more than it was given. -/
theorem loopRun_length {atEnd : σ → JsonError} {body : σ → Char → Reader (Round σ β)} {state : σ}
    {text rest : List Char} {value : β} (same : loopRun atEnd body state text = .ok (value, rest)) :
    rest.length ≤ text.length := by
  fun_induction loopRun atEnd body state text with
  | case1 => cases same
  | case2 => cases same
  | case3 state c tail value' left taken =>
    cases same
    exact Nat.le_succ_of_le ((body state c).shrinks taken)
  | case4 state c tail later left taken ih =>
    exact Nat.le_trans (ih same) (Nat.le_succ_of_le ((body state c).shrinks taken))

/-- Takes characters one by one and does what the body says at each, from a state on. -/
def loop (atEnd : σ → JsonError) (body : σ → Char → Reader (Round σ β)) (state : σ) :
    Reader β where
  run := loopRun atEnd body state
  shrinks := loopRun_length

/-- The characters that may stand anywhere between the parts of a document. -/
def isBlank (c : Char) : Bool := c = ' ' || c = '\n' || c = '\t' || c = '\r'

/-- Takes blanks. -/
def blanks : Reader Unit := do
  let _ ← takeWhile isBlank

/-- Takes what is left of a word whose first character has been taken. -/
def restOfWord : List Char → Reader Unit
  | [] => give ()
  | expected :: later => do
    if (← next .endInValue) = expected then restOfWord later else fail .expectedWord

end Reader

end Cascade.Json
