import CouponIssuance.Json.Value
import CouponIssuance.Service
/-!
# Answers

What callers get, as JSON. A member without a value is left out.
-/
namespace CouponIssuance

open Json

namespace Discount

def toJson (d : Discount) : Json := .object <|
  [("kind", .text d.kind.name), ("value", ofAmount d.value)] ++
  Json.optional "maxDiscount" (d.maxDiscount.map ofAmount) ++
  [("minOrderAmount", ofAmount d.minOrderAmount)]

end Discount

namespace Window

def members (w : Window) : List (String × Json) :=
  Json.optional "startsAt" (w.startsAt.map ofAmount) ++ Json.optional "endsAt" (w.endsAt.map ofAmount)

def toJson (w : Window) : Json := .object w.members

end Window

namespace Campaign

def members (c : Campaign) : List (String × Json) :=
  [("id", ofAmount c.id.value), ("name", .text c.name), ("totalStock", ofAmount c.totalStock)] ++
  c.window.members ++ [("discount", c.discount.toJson), ("createdAt", .number c.createdAt)]

def toJson (c : Campaign) : Json := .object c.members

/-- A campaign together with what remains of its stock. -/
def toJsonWithStock (c : Campaign) (remaining : UInt64) : Json :=
  .object (c.members ++ [("remaining", ofAmount remaining)])

end Campaign

namespace Coupon

def redemptionName (c : Coupon) : String := if c.isRedeemed then "REDEEMED" else "UNREDEEMED"

def toJson (c : Coupon) : Json := .object <|
  [("couponId", .text c.id.text), ("campaignId", ofAmount c.campaign.value),
    ("owner", ofAmount c.owner.value), ("requestId", .text c.request.text),
    ("issuedAt", .number c.issuedAt), ("redemption", .text c.redemptionName)] ++
  Json.optional "redeemedAt" (c.redemption.map fun r => .number r.redeemedAt) ++
  Json.optional "orderId" ((c.redemption.bind Redemption.order).map .text)

end Coupon

namespace StatusRecord

def toJson (r : StatusRecord) : Json := .object <|
  [("requestId", .text r.request.text), ("campaignId", ofAmount r.campaign.value),
    ("requesterId", ofAmount r.requester.value), ("state", .text r.state.name)] ++
  Json.optional "couponId" (r.coupon.map fun c => .text c.text) ++
  Json.optional "reason" (r.reason.map .text) ++
  [("requestedAt", .number r.requestedAt)] ++
  Json.optional "resolvedAt" (r.resolvedAt.map .number)

end StatusRecord

namespace Ticket

def toJson (t : Ticket) : Json := .object <|
  [("requestId", .text t.request.text), ("state", .text t.state.name)] ++
  Json.optional "couponId" (t.coupon.map fun c => .text c.text)

end Ticket

namespace Stock

/-- The stock of a campaign, with the units that are gone. -/
def toJson (s : Stock) (c : CampaignId) : Json := .object
  [("campaignId", ofAmount c.value), ("total", ofAmount s.total), ("remaining", ofAmount s.remaining),
    ("issued", ofAmount s.reserved)]

def toJsonOfReset (s : Stock) (c : CampaignId) : Json := .object
  [("campaignId", ofAmount c.value), ("total", ofAmount s.total), ("remaining", ofAmount s.remaining)]

end Stock

namespace Quote

def toJson (q : Quote) : Json := .object
  [("couponId", .text q.coupon.text), ("discount", ofAmount q.discount),
    ("payable", ofAmount q.payable)]

end Quote

namespace Verdict

def toJson (v : Verdict) : Json := .object <|
  [("couponId", .text v.coupon.text), ("requesterId", ofAmount v.requester.value),
    ("usable", .bool v.isUsable), ("discountAmount", ofAmount v.discount),
    ("finalAmount", ofAmount v.payable)] ++
  Json.optional "reason" (v.reason.map .text)

end Verdict

namespace SystemStatus

def healthName (s : SystemStatus) : String := if s.serving then "SERVING" else "SHUTTING_DOWN"

def toJson (s : SystemStatus) : Json := .object
  [("queueDepth", .number s.queueDepth), ("inFlight", .number s.inFlight),
    ("workers", .number s.workers), ("campaigns", .number s.campaigns),
    ("trackedRequests", .number s.trackedRequests), ("issuedCoupons", .number s.issuedCoupons),
    ("health", .text s.healthName)]

end SystemStatus

namespace Refusal

def toJson (r : Refusal) : Json := .object [("error", .text r.code), ("message", .text r.message)]

end Refusal
end CouponIssuance
