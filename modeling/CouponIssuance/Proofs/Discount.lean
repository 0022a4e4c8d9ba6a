import Mathlib.Algebra.GroupWithZero.Nat
import CouponIssuance.CouponBook
/-!
# How much a discount takes off

Amounts are words, and the product of a percentage stops at the largest word. So a discount is what it
would be in numbers of any size, or less once the product has stopped, and it is never more than the
maximum or the order itself.

Who orders more gets no smaller discount and has no less left to pay. A percentage below a hundred grows by
less than the order does; any other takes off the whole order until its product has stopped, and from
then on does not grow at all.
-/
namespace CouponIssuance

private theorem toNat_saturatingMul (a b : UInt64) :
    (saturatingMul a b).toNat = min (a.toNat * b.toNat) (2 ^ 64 - 1) := by
  unfold saturatingMul
  split
  · next hfits =>
    have hmax : a.toNat * b.toNat ≤ 2 ^ 64 - 1 := Nat.le_sub_one_of_lt hfits
    rw [UInt64.toNat_mul, Nat.mod_eq_of_lt hfits, Nat.min_eq_left hmax]
  · next hlarge =>
    have hmax : 2 ^ 64 - 1 ≤ a.toNat * b.toNat := Nat.le_trans (by decide) (Nat.le_of_not_lt hlarge)
    rw [Nat.min_eq_right hmax]
    rfl

private theorem toNat_min_amount (a b : UInt64) : (min a b).toNat = min a.toNat b.toNat := by
  show (if a ≤ b then a else b).toNat = _
  split
  · next h => rw [Nat.min_eq_left (UInt64.le_iff_toNat_le.1 h)]
  · next h =>
    rw [UInt64.le_iff_toNat_le] at h
    rw [Nat.min_eq_right (by omega)]

namespace Discount

/-- The discount before any limit, in numbers of any size. -/
def exact (d : Discount) (order : UInt64) : Nat :=
  match d.kind with
  | .fixed => d.value.toNat
  | .percentage => order.toNat * d.value.toNat / 100

/-- The most that may be taken off an order. -/
def limit (d : Discount) (order : UInt64) : Nat :=
  match d.maxDiscount with
  | some most => min most.toNat order.toNat
  | none => order.toNat

/-- What a discount takes off an order: what it exactly is, or less where the product of a percentage is
too large, and no more than the limit. -/
structure Takes (d : Discount) (order amount : UInt64) : Prop where
  granted : d.amountFor order = .ok amount
  whole : amount ≤ order
  capped : ∀ most, d.maxDiscount = some most → amount ≤ most
  bounded : amount.toNat ≤ min (d.exact order) (d.limit order)
  precise : d.kind = .fixed ∨ order.toNat * d.value.toNat ≤ 2 ^ 64 - 1 →
    amount.toNat = min (d.exact order) (d.limit order)

variable {d : Discount} {order a b : UInt64}

private theorem toNat_raw_of_percentage (hkind : d.kind = .percentage) (order : UInt64) :
    (d.raw order).toNat = min (order.toNat * d.value.toNat) (2 ^ 64 - 1) / 100 := by
  simp only [raw, hkind]
  rw [UInt64.toNat_div, toNat_saturatingMul]
  rfl

private theorem toNat_raw_of_fixed (hkind : d.kind = .fixed) (order : UInt64) :
    (d.raw order).toNat = d.value.toNat := by
  simp only [raw, hkind]

private theorem toNat_raw_le_exact (d : Discount) (order : UInt64) : (d.raw order).toNat ≤ d.exact order := by
  cases hkind : d.kind with
  | fixed => simp only [toNat_raw_of_fixed hkind, exact, hkind, Nat.le_refl]
  | percentage =>
    rw [toNat_raw_of_percentage hkind, exact, hkind]
    exact Nat.div_le_div_right (Nat.min_le_left ..)

private theorem toNat_raw_eq_exact (h : d.kind = .fixed ∨ order.toNat * d.value.toNat ≤ 2 ^ 64 - 1) :
    (d.raw order).toNat = d.exact order := by
  cases hkind : d.kind with
  | fixed => rw [toNat_raw_of_fixed hkind, exact, hkind]
  | percentage =>
    have hfits := h.resolve_left (by rw [hkind]; exact DiscountKind.noConfusion)
    rw [toNat_raw_of_percentage hkind, exact, hkind, Nat.min_eq_left hfits]

private theorem toNat_raw_mono (d : Discount) (h : a ≤ b) : (d.raw a).toNat ≤ (d.raw b).toNat := by
  cases hkind : d.kind with
  | fixed => simp only [toNat_raw_of_fixed hkind, Nat.le_refl]
  | percentage =>
    have hproduct : a.toNat * d.value.toNat ≤ b.toNat * d.value.toNat :=
      Nat.mul_le_mul_right _ (UInt64.le_iff_toNat_le.1 h)
    rw [toNat_raw_of_percentage hkind, toNat_raw_of_percentage hkind]
    apply Nat.div_le_div_right
    omega

/-- A product stops in good time: what takes less than the whole of an order is a percentage below a hundred,
or one whose product has stopped. -/
private theorem raw_step (d : Discount) (h : a ≤ b) : a.toNat ≤ (d.raw a).toNat ∨
    (d.raw b).toNat ≤ (d.raw a).toNat + (b.toNat - a.toNat) := by
  have hab := UInt64.le_iff_toNat_le.1 h
  cases hkind : d.kind with
  | fixed =>
    rw [toNat_raw_of_fixed hkind, toNat_raw_of_fixed hkind]
    exact .inr (Nat.le_add_right ..)
  | percentage =>
    rw [toNat_raw_of_percentage hkind, toNat_raw_of_percentage hkind]
    have hgrows : a.toNat * d.value.toNat ≤ b.toNat * d.value.toNat := Nat.mul_le_mul_right _ hab
    rcases Nat.le_total d.value.toNat 100 with hsmall | hlarge
    · -- below a hundred the product grows by at most a hundred times what the order grows by
      have hstep : b.toNat * d.value.toNat ≤ a.toNat * d.value.toNat + (b.toNat - a.toNat) * 100 := by
        calc b.toNat * d.value.toNat
            = a.toNat * d.value.toNat + (b.toNat - a.toNat) * d.value.toNat := by
              rw [← Nat.add_mul, Nat.add_sub_cancel' hab]
          _ ≤ a.toNat * d.value.toNat + (b.toNat - a.toNat) * 100 :=
              Nat.add_le_add_left (Nat.mul_le_mul_left _ hsmall) _
      right
      omega
    · have hwhole : a.toNat * 100 ≤ a.toNat * d.value.toNat := Nat.mul_le_mul_left _ hlarge
      rcases Nat.le_total (a.toNat * d.value.toNat) (2 ^ 64 - 1) with hfits | hstopped
      · left
        omega
      · right
        omega

theorem amountFor_of_small (h : order < d.minOrderAmount) :
    d.amountFor order = .error (.orderBelowMinimum order d.minOrderAmount) := if_pos h

private theorem limit_le_order (d : Discount) (order : UInt64) : d.limit order ≤ order.toNat := by
  unfold limit
  split
  · exact Nat.min_le_right ..
  · exact Nat.le_refl _

private theorem limit_le_of_max {most : UInt64} (h : d.maxDiscount = some most) (order : UInt64) :
    d.limit order ≤ most.toNat := by
  rw [limit, h]
  exact Nat.min_le_left ..

theorem amountFor_of_reached (h : d.minOrderAmount ≤ order) : ∃ amount,
    d.amountFor order = .ok amount ∧ amount.toNat = min (d.raw order).toNat (d.limit order) := by
  refine ⟨_, if_neg (UInt64.not_lt.2 h), ?_⟩
  cases hmax : d.maxDiscount with
  | none => simp only [limit, hmax, toNat_min_amount]
  | some most => simp only [limit, hmax, toNat_min_amount, Nat.min_assoc]

private theorem takes_of_reached {amount : UInt64} (hgranted : d.amountFor order = .ok amount)
    (hamount : amount.toNat = min (d.raw order).toNat (d.limit order)) : d.Takes order amount where
  granted := hgranted
  whole := by
    have hlimit := d.limit_le_order order
    rw [UInt64.le_iff_toNat_le]
    omega
  capped most hmax := by
    have hlimit := limit_le_of_max hmax order
    rw [UInt64.le_iff_toNat_le]
    omega
  bounded := by
    have hraw := d.toNat_raw_le_exact order
    omega
  precise hfits := by rw [hamount, toNat_raw_eq_exact hfits]

theorem takes_of_granted {amount : UInt64} (h : d.amountFor order = .ok amount) :
    d.Takes order amount := by
  have hreached : d.minOrderAmount ≤ order := by
    apply UInt64.not_lt.1
    intro hsmall
    rw [amountFor_of_small hsmall] at h
    cases h
  obtain ⟨amount', hgranted, hamount⟩ := amountFor_of_reached hreached
  cases h.symm.trans hgranted
  exact takes_of_reached hgranted hamount

/-- What is taken off and what is left make up the order. -/
theorem pay_whole {amount : UInt64} (h : amount ≤ order) :
    amount.toNat + (order - amount).toNat = order.toNat := by
  rw [UInt64.toNat_sub_of_le order amount h]
  exact Nat.add_sub_cancel' (UInt64.le_iff_toNat_le.1 h)

private theorem limit_mono (d : Discount) (h : a ≤ b) :
    d.limit a ≤ d.limit b ∧ (d.limit b ≤ d.limit a ∨ d.limit a = a.toNat) := by
  have hab := UInt64.le_iff_toNat_le.1 h
  unfold limit
  split <;> omega

end Discount

theorem Coupon.discountFor_eq_ok_iff {k : Coupon} {o : RequesterId} {order : UInt64}
    {campaign : Campaign} {now : Millis} {discount : UInt64} :
    k.discountFor o order campaign now = .ok discount ↔
      k.owner = o ∧ k.redemption = none ∧ campaign.window.hasEnded now = false ∧
        campaign.discount.amountFor order = .ok discount := by
  unfold discountFor
  split
  · next howner => simp [howner]
  · next howner =>
    have howner := Classical.not_not.1 howner
    cases hspent : k.redemption <;> cases hended : campaign.window.hasEnded now <;>
      simp [isRedeemed, howner, hspent]

/-- The discount of a campaign is what its coupons take off, and the rest of the order is left to pay. -/
theorem CouponBook.quote_of_preview {b : CouponBook} {o : RequesterId} {id : CouponId} {order : UInt64}
    {campaign : Campaign} {now : Millis} {quote : Quote}
    (h : b.preview o id order campaign now = .ok quote) : ∃ amount,
      campaign.discount.amountFor order = .ok amount ∧ quote = ⟨id, amount, order - amount⟩ := by
  cases hget : b.get id with
  | error why => simp [preview, hget, bind, Except.bind] at h
  | ok k =>
    cases hdiscount : k.discountFor o order campaign now with
    | error why => simp [preview, hget, hdiscount, bind, Except.bind] at h
    | ok amount =>
      simp only [preview, hget, hdiscount, bind, Except.bind, pure, Except.pure, Except.ok.injEq] at h
      exact ⟨amount, (Coupon.discountFor_eq_ok_iff.1 hdiscount).2.2.2, h.symm⟩

namespace Discount

/-- A discount refuses an order below its minimum. Of two orders that reach it, the larger one gets no
smaller discount and leaves no less to pay. What a coupon leaves to pay and what it takes off make up the
order. -/
theorem takes_more_leaves_more (d : Discount) :
    (∀ order, order < d.minOrderAmount →
      d.amountFor order = .error (.orderBelowMinimum order d.minOrderAmount)) ∧
    ∀ a b, d.minOrderAmount ≤ a → a ≤ b → ∃ x y, d.Takes a x ∧ d.Takes b y ∧
      x ≤ y ∧ a - x ≤ b - y ∧
      ∀ book o id campaign now quote, campaign.discount = d →
        CouponBook.preview book o id a campaign now = .ok quote →
        quote.discount = x ∧ quote.payable = a - x ∧
          quote.discount.toNat + quote.payable.toNat = a.toNat := by
  refine ⟨fun order => amountFor_of_small, fun a b hreached hle => ?_⟩
  obtain ⟨x, hx, hamount⟩ := amountFor_of_reached hreached
  obtain ⟨y, hy, hamount'⟩ := amountFor_of_reached (UInt64.le_trans hreached hle)
  have htakes := takes_of_reached hx hamount
  have htakes' := takes_of_reached hy hamount'
  have hpay := UInt64.toNat_sub_of_le a x htakes.whole
  have hpay' := UInt64.toNat_sub_of_le b y htakes'.whole
  have hab := UInt64.le_iff_toNat_le.1 hle
  have hraw := d.toNat_raw_mono hle
  have hstep := d.raw_step hle
  obtain ⟨hlimit, hgrown⟩ := d.limit_mono hle
  have hlimit' := d.limit_le_order b
  refine ⟨x, y, htakes, htakes', ?_, ?_, ?_⟩
  · rw [UInt64.le_iff_toNat_le]
    omega
  · rw [UInt64.le_iff_toNat_le, hpay, hpay']
    omega
  · intro book o id campaign now quote hcampaign hpreview
    obtain ⟨amount, hgranted, hquote⟩ := CouponBook.quote_of_preview hpreview
    rw [hcampaign, hx, Except.ok.injEq] at hgranted
    subst hgranted hquote
    exact ⟨rfl, rfl, pay_whole htakes.whole⟩

/-- Nearly all of an order, if the order is not too small. -/
def nearlyAll : Discount := ⟨.percentage, 99, none, 5000⟩

theorem takes_more_leaves_more_nearlyAll :
    nearlyAll.amountFor 4999 = .error (.orderBelowMinimum 4999 5000) ∧
    nearlyAll.Takes 10000 9900 ∧ nearlyAll.Takes 18446744073709551615 184467440737095516 ∧
    (10000 : UInt64) - 9900 ≤ 18446744073709551615 - 184467440737095516 := by
  obtain ⟨hsmall, hreached⟩ := nearlyAll.takes_more_leaves_more
  obtain ⟨x, y, hx, hy, -, hpay, -⟩ := hreached 10000 18446744073709551615 (by decide) (by decide)
  have hleast : nearlyAll.amountFor 10000 = .ok 9900 := by rfl
  have hmost : nearlyAll.amountFor 18446744073709551615 = .ok 184467440737095516 := by rfl
  cases hx.granted.symm.trans hleast
  cases hy.granted.symm.trans hmost
  exact ⟨hsmall 4999 (by decide), hx, hy, hpay⟩

end Discount
end CouponIssuance
