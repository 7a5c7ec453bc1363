/-!
# Powers

The powers of two and of ten, which bound words, scale decimals and count units.
-/

namespace StatQuery

/-- A power of two. -/
def twoTo (n : Nat) : Nat := Nat.pow 2 n

/-- A power of ten. -/
def tenTo (n : Nat) : Nat := Nat.pow 10 n

theorem twoTo_31 : twoTo 31 = 2147483648 := rfl

theorem twoTo_63 : twoTo 63 = 9223372036854775808 := rfl

theorem twoTo_64 : twoTo 64 = 18446744073709551616 := rfl

theorem twoTo_pos (n : Nat) : 0 < twoTo n := Nat.pow_pos (by decide)

theorem tenTo_pos (n : Nat) : 0 < tenTo n := Nat.pow_pos (by decide)

end StatQuery
