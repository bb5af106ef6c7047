/-!
# Handles

A handle is the address of one stored value: the tag of its variant and its slot. Handles have an
order only within one tag.
-/
namespace Cascade

/-- The address of a stored value. -/
structure Handle where
  /-- The variant of the value. -/
  tag : UInt8
  /-- The place of the value among those that share its size. -/
  slot : UInt32
  deriving DecidableEq, Hashable, Repr, Inhabited

namespace Handle

/-- The order of two handles; handles of different tags have none. -/
def compare? (a b : Handle) : Option Ordering :=
  if a.tag = b.tag then some (compare a.slot.toNat b.slot.toNat) else none

/-- Whether the first handle comes before the second. -/
def precedes (a b : Handle) : Bool := compare? a b == some .lt

/-- Whether the first handle is the second one or comes after it. -/
def follows (a b : Handle) : Bool := compare? a b == some .gt || compare? a b == some .eq

/-- The tag and the slot of the handle. -/
def text (handle : Handle) : String := s!"#{handle.tag}:{handle.slot}"

end Handle

end Cascade
