/-!
# Whole numbers in double precision

A number of double precision has 53 binary digits. A whole number that needs more is taken to the
nearest one, and of two that are equally near to the one whose last digit is even. A product is
finite while it is nearer to a number of double precision than to the power of two beyond them.
-/
namespace CouponIssuance.Double

def precision : Nat := 53

/-- The quotient rounded to the nearest whole number, a half to the even neighbour. -/
def divideNearest (n unit : Nat) : Nat :=
  let q := n / unit
  let twice := 2 * (n % unit)
  if unit < twice || (unit = twice && q % 2 = 1) then q + 1 else q

/-- The distance between the numbers of double precision around `n`. -/
def spacing (n : Nat) : Nat := Nat.pow 2 (n.log2 + 1 - precision)

/-- The number of double precision nearest to `n`. -/
def round (n : Nat) : Nat := divideNearest n (spacing n) * spacing n

/-- The least number that is rounded beyond the largest of double precision. -/
def limit : Nat := Nat.pow 2 1024 - Nat.pow 2 (1024 - precision - 1)

/-- Whether the product of two numbers, each rounded before, is finite when it is rounded. -/
def isFiniteProduct (a b : Nat) : Bool := round a * round b < limit

end CouponIssuance.Double
