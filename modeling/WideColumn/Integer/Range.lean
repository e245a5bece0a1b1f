/-!
The range of signed integers of a fixed width.
-/

namespace WideColumn.Integer

def least (w : Nat) : Int := -(Nat.pow 2 (w - 1) : Int)

def greatest (w : Nat) : Int := (Nat.pow 2 (w - 1) : Int) - 1

def Fits (w : Nat) (n : Int) : Prop := least w ≤ n ∧ n ≤ greatest w

instance (w : Nat) (n : Int) : Decidable (Fits w n) := inferInstanceAs (Decidable (_ ∧ _))

end WideColumn.Integer
