import Cascade.Store.Handle
import Cascade.Store.Layout

/-!
# Faults

A fault is a broken contract between a store and its caller: a handle the store did not give out, a
value that does not fit its declared size, bytes that encode nothing. It is no error of a source
text, and no operation recovers from it.
-/
namespace Cascade

/-- A broken contract between a store and its caller. -/
inductive Fault where
  /-- The tag is beyond the declared ones. -/
  | tagOutOfRange (tag : UInt8) (variants : Nat)
  /-- The size class of the handle holds fewer items. -/
  | slotOutOfRange (handle : Handle) (union : String) (held : Nat)
  /-- The stored byte is the code of no such operator or selector. -/
  | corruptCode (what : String) (code : UInt8)
  /-- The stored number is no symbol. -/
  | corruptSymbol (raw : UInt32)
  /-- The union has no layout. -/
  | badLayout (error : LayoutError)
  /-- A range reaches past the end of a buffer or a list. -/
  | rangePastEnd
  /-- The interner has not given out the symbol. -/
  | unknownSymbol
  /-- The children of a node lead back to it. -/
  | cyclic
  deriving DecidableEq, Repr

namespace Fault

/-- The wording of the fault; ranges, symbols and cycles have none. -/
def message? : Fault → Option String
  | .tagOutOfRange tag variants => some s!"tag {tag} is outside the declared range 0..{variants}"
  | .slotOutOfRange handle union held =>
    some s!"{handle.text} is out of range for {union} (size class holds {held} items)"
  | .corruptCode what code => some s!"corrupt {what} {code} in payload"
  | .corruptSymbol raw => some s!"corrupt symbol {raw} in payload"
  | .badLayout error => some error.message
  | .rangePastEnd | .unknownSymbol | .cyclic => none

end Fault

end Cascade
