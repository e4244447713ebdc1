/-!
How long lists and texts can be.
-/

namespace TagCall

/-- The greatest length there is, a number of 63 bits. -/
def maxLength : Nat := 0x7FFFFFFFFFFFFFFF

/-- The greatest length for which there can be memory. -/
def maxMemory : Nat := 0x7FFFFFFFFF

end TagCall
