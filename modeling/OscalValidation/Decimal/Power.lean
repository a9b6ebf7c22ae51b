set_option autoImplicit false

/-! # Powers of two and of ten

The two bases between which numbers are turned: the one they are kept in and the one they are
written in.
-/

namespace OscalValidation

def twoTo (n : Nat) : Nat := Nat.pow 2 n

def tenTo (n : Nat) : Nat := Nat.pow 10 n

end OscalValidation
