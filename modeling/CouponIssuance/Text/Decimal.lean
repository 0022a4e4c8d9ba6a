/-!
# Decimal numbers of 64 bits

Numbers are written in decimal without leading zeros. Reading is more generous: it takes leading
zeros and one leading plus sign, and goes from left to right, so that of two faults the first met
is the one reported.
-/
namespace CouponIssuance.Decimal

inductive Fault where
  | empty
  | badDigit
  | tooLarge
  deriving DecidableEq

def Fault.message : Fault → String
  | .empty => "cannot parse integer from empty string"
  | .badDigit => "invalid digit found in string"
  | .tooLarge => "number too large to fit in target type"

def isDigit (c : Char) : Bool := '0' ≤ c && c ≤ '9'

def digitValue (c : Char) : Nat := c.toNat - '0'.toNat

/-- The number that digits spell after a leading part of value `acc`. -/
def ofDigits (acc : Nat) (ds : List Char) : Nat :=
  ds.foldl (fun n c => n * 10 + digitValue c) acc

/-- Reads on from a leading part of value `acc`. -/
def readFrom (acc : Nat) : List Char → Except Fault Nat
  | [] => .ok acc
  | c :: cs =>
    if !isDigit c then .error .badDigit
    else if UInt64.size ≤ acc * 10 + digitValue c then .error .tooLarge
    else readFrom (acc * 10 + digitValue c) cs

/-- The digits of a text, after a plus sign that does not stand alone. -/
def unsigned : List Char → List Char
  | '+' :: c :: cs => c :: cs
  | cs => cs

def parse (text : List Char) : Except Fault UInt64 :=
  if text = [] then .error .empty
  else (readFrom 0 (unsigned text)).map UInt64.ofNat

def render (n : Nat) : List Char := Nat.toDigits 10 n

end CouponIssuance.Decimal
