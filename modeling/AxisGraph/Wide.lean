/-!
Signed 128-bit arithmetic. Every operation gives the exact result, or nothing when that result does
not fit.
-/

namespace AxisGraph.Wide

/-- The value is a signed 128-bit number. -/
def Fits : Int → Prop
  | .ofNat n => n ≤ 0x7fffffffffffffffffffffffffffffff
  | .negSucc n => n ≤ 0x7fffffffffffffffffffffffffffffff

instance : DecidablePred Fits
  | .ofNat n => inferInstanceAs (Decidable (n ≤ _))
  | .negSucc n => inferInstanceAs (Decidable (n ≤ _))

theorem fits_iff {value : Int} :
    Fits value ↔ -0x80000000000000000000000000000000 ≤ value ∧
      value ≤ 0x7fffffffffffffffffffffffffffffff := by
  cases value <;> simp only [Fits, Int.ofNat_eq_natCast, Int.negSucc_eq] <;> omega

/-- The value, if it fits. -/
def fit (value : Int) : Option Int :=
  if Fits value then some value else none

theorem fit_eq_some {value : Int} (h : Fits value) : fit value = some value :=
  if_pos h

def add (a b : Int) : Option Int := fit (a + b)

def sub (a b : Int) : Option Int := fit (a - b)

def mul (a b : Int) : Option Int := fit (a * b)

/-- Quotient, rounded down. -/
def floorDiv (a b : Int) : Option Int := fit (a.fdiv b)

theorem add_eq_some {a b : Int} (h : Fits (a + b)) : add a b = some (a + b) :=
  fit_eq_some h

theorem sub_eq_some {a b : Int} (h : Fits (a - b)) : sub a b = some (a - b) :=
  fit_eq_some h

theorem mul_eq_some {a b : Int} (h : Fits (a * b)) : mul a b = some (a * b) :=
  fit_eq_some h

theorem floorDiv_eq_some {a b : Int} (h : Fits (a.fdiv b)) : floorDiv a b = some (a.fdiv b) :=
  fit_eq_some h

end AxisGraph.Wide
