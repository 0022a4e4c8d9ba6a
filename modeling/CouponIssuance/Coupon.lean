import CouponIssuance.Campaign
/-!
# Coupons

A coupon belongs to one requester and one campaign. It is redeemed at most once, by its owner,
before the campaign has ended, on an order the discount allows.
-/
namespace CouponIssuance

/-- When a coupon was redeemed, and for which order. -/
structure Redemption where
  redeemedAt : Millis
  order : Option String
  deriving DecidableEq

structure Coupon where
  id : CouponId
  campaign : CampaignId
  owner : RequesterId
  request : RequestId
  issuedAt : Millis
  redemption : Option Redemption
  deriving DecidableEq

/-- What a coupon does to an order: the discount, and what is left to pay. -/
structure Quote where
  coupon : CouponId
  discount : UInt64
  payable : UInt64
  deriving DecidableEq

/-- Whether a coupon can be used on an order, and what would be left to pay. A coupon that cannot be
used leaves the whole order to pay. -/
structure Verdict where
  coupon : CouponId
  requester : RequesterId
  isUsable : Bool
  discount : UInt64
  payable : UInt64
  reason : Option String
  deriving DecidableEq

namespace Verdict

def usable (requester : RequesterId) (q : Quote) : Verdict :=
  ⟨q.coupon, requester, true, q.discount, q.payable, none⟩

def unusable (requester : RequesterId) (coupon : CouponId) (order : UInt64) (reason : String) :
    Verdict :=
  ⟨coupon, requester, false, 0, order, some reason⟩

end Verdict

namespace Coupon

def isRedeemed (c : Coupon) : Bool := c.redemption.isSome

/-- The discount the coupon gives a requester on an order, or the first reason why there is none:
another owner, an earlier redemption, the end of the campaign, too small an order. -/
def discountFor (c : Coupon) (requester : RequesterId) (order : UInt64) (campaign : Campaign)
    (now : Millis) : Except Refusal UInt64 :=
  if c.owner ≠ requester then .error (.couponNotOwned c.id)
  else if c.isRedeemed then .error (.couponAlreadyRedeemed c.id)
  else if campaign.window.hasEnded now then
    .error (.campaignInactive campaign.id "coupon expired")
  else campaign.discount.amountFor order

/-- Oldest first; of coupons of one instant, by name. -/
def precedes (a b : Coupon) : Bool :=
  decide (a.issuedAt < b.issuedAt) ||
    (decide (a.issuedAt = b.issuedAt) && decide (a.id.text ≤ b.id.text))

end Coupon
end CouponIssuance
