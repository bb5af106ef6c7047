import Cascade.Json.Value

/-!
# Settings

The settings of a run and their document: an object with any of three members, or a list of their
values in order. What is missing has its default, and members with other names are skipped over.
The nesting limit is kept as it is written and capped where it is used, so that parsing a source can
never nest too deeply for its caller.
-/
namespace Cascade

/-- The settings of a run. -/
structure Settings where
  /-- How deeply expressions may be nested. -/
  maxNestingDepth : Nat
  /-- How many diagnostics are shown, if not all of them. -/
  maxErrors : Option Nat
  /-- Whether diagnostics are coloured where they can be. -/
  color : Bool
  deriving DecidableEq, Repr

namespace Settings

/-- The settings of a run that has no document. -/
def default : Settings := ⟨200, none, true⟩

/-- The largest nesting limit that takes effect. -/
def deepestLimit : Nat := 500

/-- The nesting limit that takes effect. -/
def limit (settings : Settings) : Nat := min settings.maxNestingDepth deepestLimit

/-- The settings as a document without blanks. -/
def text (settings : Settings) : String :=
  let maxErrors :=
    match settings.maxErrors with
    | none => "null"
    | some count => toString count
  let color := if settings.color then "true" else "false"
  s!"\x7b\"maxNestingDepth\":{settings.maxNestingDepth},\"maxErrors\":{maxErrors},\"color\":{color}\x7d"

/-- The members of a document that have been read. -/
structure Members where
  /-- The nesting limit. -/
  maxNestingDepth : Option Nat
  /-- The number of diagnostics shown. -/
  maxErrors : Option (Option Nat)
  /-- Whether diagnostics are coloured. -/
  color : Option Bool
  deriving DecidableEq, Repr

namespace Members

/-- No members. -/
def none : Members := ⟨.none, .none, .none⟩

/-- The settings with the members given and defaults for the others. -/
def settings (members : Members) : Settings where
  maxNestingDepth := members.maxNestingDepth.getD default.maxNestingDepth
  maxErrors := members.maxErrors.getD default.maxErrors
  color := members.color.getD default.color

end Members

open Json Json.Reader

/-- Takes a nesting limit. -/
def readDepth : Reader Nat := natural UInt32.size "u32"

/-- Takes a number of diagnostics. -/
def readErrors : Reader (Option Nat) := optional (natural UInt64.size "usize")

/-- Takes the colon behind a key. -/
def readColon : Reader Unit := do
  blanks
  if (← next .endInObject) ≠ ':' then fail .expectedColon

/-- Takes a member whose opening quote has been taken. -/
def readMember (members : Members) : Reader Members := do
  match ← Reader.text true with
  | "maxNestingDepth" =>
    if members.maxNestingDepth.isSome then fail (.duplicateKey "maxNestingDepth")
    readColon
    return { members with maxNestingDepth := some (← readDepth) }
  | "maxErrors" =>
    if members.maxErrors.isSome then fail (.duplicateKey "maxErrors")
    readColon
    return { members with maxErrors := some (← readErrors) }
  | "color" =>
    if members.color.isSome then fail (.duplicateKey "color")
    readColon
    return { members with color := some (← flag) }
  | _ =>
    readColon
    skipValue
    return members

/-- Takes the next character that is no blank and reads a member if it is a quote. -/
def readNextMember (members : Members) : Reader Members := do
  blanks
  match ← next .endInValue with
  | '"' => readMember members
  | '\x7d' => fail .trailingComma
  | _ => fail .keyNotText

/-- Goes on with an object after taking one character that is no blank. -/
def memberRound (members : Members) (isFirst : Bool) (c : Char) :
    Reader (Round (Members × Bool) Members) := do
  if c = '\x7d' then return .finish members
  else if isFirst then
    if c = '"' then return .again (← readMember members, false) else fail .keyNotText
  else if c = ',' then return .again (← readNextMember members, false)
  else fail .expectedCommaOrBrace

/-- Takes an object whose opening brace has been taken. -/
def readObject : Reader Members :=
  loop (fun _ => .endInObject)
    (fun (members, isFirst) c =>
      if isBlank c then return .again (members, isFirst) else memberRound members isFirst c)
    (.none, true)

/-- Takes an element of a list unless the list ends here. -/
def readElement {α : Type} (isFirst : Bool) (reader : Reader α) : Reader (Option α) := do
  blanks
  match ← peek? with
  | none => fail .endInList
  | some ']' => return none
  | some c =>
    if isFirst then return some (← reader)
    else if c = ',' then
      skip 1
      blanks
      match ← peek? with
      | none => fail .endInValue
      | some ']' => fail .trailingComma
      | some _ => return some (← reader)
    else fail .expectedCommaOrBracket

/-- Takes the end of a list that has no room for more elements. -/
def readListEnd : Reader Unit := do
  blanks
  match ← next .endInList with
  | ']' => return ()
  | ',' =>
    blanks
    if (← peek?) = some ']' then fail .trailingComma else fail .trailingText
  | _ => fail .trailingText

/-- Takes a list whose opening bracket has been taken. -/
def readList : Reader Members := do
  let maxNestingDepth ← readElement true readDepth
  let maxErrors ← readElement false readErrors
  let color ← readElement false flag
  readListEnd
  return ⟨maxNestingDepth, maxErrors, color⟩

/-- Takes a document. -/
def readDocument : Reader Settings := do
  blanks
  let members ←
    match ← peek? with
    | some '\x7b' =>
      skip 1
      readObject
    | some '[' =>
      skip 1
      readList
    | _ => mismatch "struct FrontendConfig"
  blanks
  if (← peek?).isSome then fail .trailingText
  return members.settings

/-- The settings of a document. -/
def parse (document : String) : Except JsonError Settings :=
  (readDocument.run document.toList).map Prod.fst

end Settings

end Cascade
