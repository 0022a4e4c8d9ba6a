import CouponIssuance.Coupon
import CouponIssuance.Table.Basic
/-!
# The coupon book

All coupons issued, with an index by owner and campaign and a count per campaign. A requester holds
at most one coupon of a campaign. The names of coupons are taken to be new.
-/
namespace CouponIssuance

structure CouponBook where
  coupons : Table CouponId Coupon
  owners : Table (RequesterId × CampaignId) CouponId
  counts : Table CampaignId Nat
  deriving DecidableEq

namespace CouponBook

def empty : CouponBook := ⟨Table.empty, Table.empty, Table.empty⟩

/-- Enters a new coupon, unless its owner already holds one of the campaign. -/
def issue (b : CouponBook) (id : CouponId) (campaign : CampaignId) (owner : RequesterId)
    (request : RequestId) (now : Millis) : Except Refusal (CouponBook × Coupon) :=
  if b.owners.contains (owner, campaign) then .error (.couponAlreadyIssued campaign owner)
  else
    let coupon : Coupon := ⟨id, campaign, owner, request, now, none⟩
    .ok ({ coupons := b.coupons.insert id coupon
           owners := b.owners.insert (owner, campaign) id
           counts := b.counts.insert campaign (b.counts.getD campaign 0 + 1) }, coupon)

def get (b : CouponBook) (id : CouponId) : Except Refusal Coupon :=
  match b.coupons.get? id with
  | some coupon => .ok coupon
  | none => .error (.couponNotFound id)

/-- The coupon a requester holds of a campaign. -/
def owned (b : CouponBook) (owner : RequesterId) (campaign : CampaignId) : Option Coupon :=
  (b.owners.get? (owner, campaign)).bind b.coupons.get?

def listFor (b : CouponBook) (owner : RequesterId) : List Coupon :=
  (b.coupons.values.filter (·.owner = owner)).mergeSort Coupon.precedes

def countFor (b : CouponBook) (campaign : CampaignId) : Nat := b.counts.getD campaign 0

def size (b : CouponBook) : Nat := b.coupons.size

/-- What redeeming a coupon would do to an order. -/
def preview (b : CouponBook) (requester : RequesterId) (id : CouponId) (order : UInt64)
    (campaign : Campaign) (now : Millis) : Except Refusal Quote := do
  let coupon ← b.get id
  let discount ← coupon.discountFor requester order campaign now
  return ⟨id, discount, order - discount⟩

def redeem (b : CouponBook) (requester : RequesterId) (id : CouponId) (order : UInt64)
    (orderId : Option String) (campaign : Campaign) (now : Millis) :
    Except Refusal (CouponBook × Quote) := do
  let coupon ← b.get id
  let discount ← coupon.discountFor requester order campaign now
  let spent := { coupon with redemption := some ⟨now, orderId⟩ }
  return ({ b with coupons := b.coupons.insert id spent }, ⟨id, discount, order - discount⟩)

end CouponBook
end CouponIssuance
