/-!
# Reading bytes as UTF-8

Bytes are text only when all of them are well-formed UTF-8. When they are not, the reader says how
long the longest well-formed prefix is, which is the offset of the first offending byte.
-/
namespace Cascade.Utf8

/-- The end of the longest run of well-formed characters that starts at offset `i`. -/
def wellFormedEnd (bytes : ByteArray) (i : Nat) : Nat :=
  if i < bytes.size then
    match bytes.utf8DecodeChar? i with
    | some c => wellFormedEnd bytes (i + c.utf8Size)
    | none => i
  else i
termination_by bytes.size - i
decreasing_by
  have := c.utf8Size_pos
  omega

/-- The text the bytes spell, or the offset of the first byte that spells none. -/
def decode (bytes : ByteArray) : Except Nat String :=
  match String.fromUTF8? bytes with
  | some text => .ok text
  | none => .error (wellFormedEnd bytes 0)

end Cascade.Utf8
