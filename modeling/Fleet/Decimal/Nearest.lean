/-!
# The nearest double of a fraction

A decimal numeral names a rational number; its double is the nearest one, and of two equally
near ones the one with the even significand.  The quotient is rounded once, in exact arithmetic,
at the binary place that leaves 53 digits, or at the last place of the subnormal numbers.
-/

namespace Fleet.Decimal

/-- The integer nearest to `num / den`; a half goes to the even neighbour. -/
def roundHalfEven (num den : Nat) : Nat :=
  let q := num / den
  let twice := 2 * (num % den)
  if den < twice || (twice == den && q % 2 == 1) then q + 1 else q

/-- `num / den * 2 ^ (-place)` as a fraction. -/
def scaleTo (place : Int) (num den : Nat) : Nat × Nat :=
  match place with
  | .ofNat p => (num, den * Nat.pow 2 p)
  | .negSucc p => (num * Nat.pow 2 (p + 1), den)

/-- The binary place of the leading digit of `num / den`. -/
def leadingPlace (num den : Nat) : Int :=
  let guess := (num.log2 : Int) - den.log2
  let (n, d) := scaleTo guess num den
  if d ≤ n then guess else guess - 1

/-- The place of the exponent in the bits of a double, behind 52 bits of the fraction. -/
def exponentUnit : Nat := 0x10000000000000

/-- The bits of infinity: the largest exponent and no fraction. -/
def infinityBits : Nat := 0x7ff0000000000000

/-- The bit of the sign. -/
def signBit : Nat := 0x8000000000000000

/-- The bits of the nonnegative double nearest to `num / den`. -/
def nearestBits (num den : Nat) : Nat :=
  if num == 0 then 0
  else
    -- the subnormal numbers have fewer digits, down to the last place of all
    let place := max (leadingPlace num den - 52) (-1074)
    let (n, d) := scaleTo place num den
    let significand := roundHalfEven n d
    if significand < exponentUnit then significand
    else
      -- a significand that was rounded up to the next power of two carries into the exponent
      let bits := (place + 1075).toNat * exponentUnit + (significand - exponentUnit)
      min bits infinityBits

/-- The double nearest to `digits * 10 ^ exponent`, with the given sign. Magnitudes far outside
the range of doubles are settled by the number of digits alone. -/
def toFloat (negative : Bool) (digits : Nat) (exponent : Int) : Float :=
  let size : Int := (Nat.toDigits 10 digits).length + exponent
  let bits :=
    if digits == 0 || size < -330 then 0
    else if 330 < size then infinityBits
    else match exponent with
      | .ofNat e => nearestBits (digits * Nat.pow 10 e) 1
      | .negSucc e => nearestBits digits (Nat.pow 10 (e + 1))
  Float.ofBits (UInt64.ofNat (if negative then bits + signBit else bits))

/-- Rounding moves a fraction by at most one half. -/
theorem roundHalfEven_near (num den : Nat) (h : 0 < den) :
    2 * num ≤ 2 * (roundHalfEven num den * den) + den ∧
      2 * (roundHalfEven num den * den) ≤ 2 * num + den := by
  have hdiv := Nat.div_add_mod num den
  have hlt := Nat.mod_lt num h
  rw [Nat.mul_comm] at hdiv
  unfold roundHalfEven
  simp only [Bool.or_eq_true, decide_eq_true_eq, Bool.and_eq_true, beq_iff_eq]
  split
  · rw [Nat.add_mul]
    omega
  · omega

end Fleet.Decimal
