import Cascade.Json.Reader

/-!
# Texts in documents

A text stands between double quotes. A backslash begins an escape: one of a few characters, or a `u`
with the four hexadecimal digits of a 16-bit unit. A unit is a character unless it is half of a
surrogate pair; two halves make one character. In a value that is only skipped over, halves need no
partners.
-/
namespace Cascade.Json

/-- The value of a hexadecimal digit. -/
def hexDigit? (c : Char) : Option Nat :=
  if '0' ≤ c ∧ c ≤ '9' then some (c.toNat - '0'.toNat)
  else if 'a' ≤ c ∧ c ≤ 'f' then some (c.toNat - 'a'.toNat + 10)
  else if 'A' ≤ c ∧ c ≤ 'F' then some (c.toNat - 'A'.toNat + 10)
  else none

/-- The value of four hexadecimal digits. -/
def hexUnit? (digits : List Char) : Option Nat :=
  if digits.length = 4 then
    digits.foldlM (fun value digit => (hexDigit? digit).map (16 * value + ·)) 0
  else none

/-- How many bytes characters take. -/
def byteLength (text : List Char) : Nat := (String.ofList text).utf8ByteSize

/-- Whether a unit is the first half of a surrogate pair. -/
def isLeading (unit : Nat) : Bool := 0xD800 ≤ unit && unit ≤ 0xDBFF

/-- Whether a unit is the second half of a surrogate pair. -/
def isTrailing (unit : Nat) : Bool := 0xDC00 ≤ unit && unit ≤ 0xDFFF

/-- The character of a surrogate pair. -/
def paired (leading trailing : Nat) : Char :=
  Char.ofNat (0x10000 + 0x400 * (leading - 0xD800) + (trailing - 0xDC00))

/-- The character that an escape of one character stands for. -/
def escaped? : Char → Option Char
  | '"' => some '"'
  | '\\' => some '\\'
  | '/' => some '/'
  | 'b' => some '\x08'
  | 'f' => some '\x0c'
  | 'n' => some '\n'
  | 'r' => some '\r'
  | 't' => some '\t'
  | _ => none

namespace Reader

/-- Takes the four digits of a unit; the text must go on for four bytes at least. -/
def unit : Reader Nat := do
  let four := (← ahead).take 4
  match hexUnit? four with
  | some value =>
    skip 4
    return value
  | none => if byteLength four < 4 then fail .endInText else fail .invalidEscape

/-- Takes the escape that has to follow the first half of a surrogate pair. -/
def partner (leading : Nat) : Reader Char := do
  if (← next .endInText) ≠ '\\' then fail .unpairedSurrogate
  else if (← next .endInText) ≠ 'u' then fail .unpairedSurrogate
  else
    let trailing ← unit
    if isTrailing trailing then return paired leading trailing else fail .loneSurrogate

/-- Takes what follows a backslash. When halves of surrogate pairs may stand alone, each of them is
taken for the replacement character. -/
def escape (strict : Bool) : Reader Char := do
  match ← next .endInText with
  | 'u' =>
    let value ← unit
    if strict && isTrailing value then fail .loneSurrogate
    else if strict && isLeading value then partner value
    else if isTrailing value || isLeading value then return '\uFFFD'
    else return Char.ofNat value
  | c =>
    match escaped? c with
    | some meant => return meant
    | none => fail .invalidEscape

/-- Takes a text whose opening quote has been taken. -/
def text (strict : Bool) : Reader String :=
  loop (fun _ => .endInText)
    (fun taken c => do
      if c = '"' then return .finish (String.ofList taken.reverse)
      else if c = '\\' then return .again ((← escape strict) :: taken)
      else if c.toNat < 0x20 then fail .controlCharacter
      else return .again (c :: taken))
    []

end Reader

end Cascade.Json
