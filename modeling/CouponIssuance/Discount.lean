import CouponIssuance.Refusal
/-!
# Discounts

What a coupon takes off an order: a fixed amount or a percentage, at most a given maximum and never
more than the order itself, and nothing at all below a least order amount.
-/
namespace CouponIssuance

inductive DiscountKind where
  | fixed
  | percentage
  deriving DecidableEq

namespace DiscountKind

def name : DiscountKind → String
  | .fixed => "FIXED"
  | .percentage => "PERCENTAGE"

def ofName? (s : String) : Option DiscountKind :=
  [.fixed, .percentage].find? fun kind => kind.name = s

end DiscountKind

/-- The product of two amounts, or the largest amount if the product is larger. -/
def saturatingMul (a b : UInt64) : UInt64 :=
  if a.toNat * b.toNat < UInt64.size then a * b else UInt64.ofNat (UInt64.size - 1)

structure Discount where
  kind : DiscountKind
  value : UInt64
  maxDiscount : Option UInt64
  minOrderAmount : UInt64
  deriving DecidableEq

namespace Discount

def fixed (value : UInt64) : Discount := ⟨.fixed, value, none, 0⟩

/-- Accepts a discount that takes something off, and no more than all. -/
def validate (d : Discount) : Except Refusal Unit :=
  match d.kind with
  | .fixed =>
    if d.value = 0 then .error (.invalidRequest "fixed discount must be greater than 0") else .ok ()
  | .percentage =>
    if 1 ≤ d.value ∧ d.value ≤ 100 then .ok ()
    else .error (.invalidRequest s!"percentage {d.value} is outside 1..=100")

/-- The discount before any limit. The product of a percentage saturates. -/
def raw (d : Discount) (order : UInt64) : UInt64 :=
  match d.kind with
  | .fixed => d.value
  | .percentage => saturatingMul order d.value / 100

def amountFor (d : Discount) (order : UInt64) : Except Refusal UInt64 :=
  if order < d.minOrderAmount then .error (.orderBelowMinimum order d.minOrderAmount)
  else
    let capped := match d.maxDiscount with
      | some most => min (d.raw order) most
      | none => d.raw order
    .ok (min capped order)

end Discount
end CouponIssuance
