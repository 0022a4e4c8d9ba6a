import CouponIssuance.Identity
import CouponIssuance.Lifecycle
/-!
# Refusals

Why an operation was refused: a code for programs, a message for people, and the status of the HTTP
answer. Running out of stock is not a refusal; it is a way for a request to end.
-/
namespace CouponIssuance

inductive Refusal where
  | overloaded (details : String) (retryAfterSecs : UInt64)
  | campaignNotFound (campaign : CampaignId)
  | campaignInactive (campaign : CampaignId) (reason : String)
  | campaignExists (campaign : CampaignId)
  | issuanceInFlight (campaign : CampaignId) (inFlight : Nat)
  | requestNotFound (request : RequestId)
  | couponNotFound (coupon : CouponId)
  | couponAlreadyIssued (campaign : CampaignId) (requester : RequesterId)
  | couponNotOwned (coupon : CouponId)
  | couponAlreadyRedeemed (coupon : CouponId)
  | orderBelowMinimum (amount minimum : UInt64)
  | invalidTransition (request : RequestId) (current next : RequestState)
  | invalidRequest (reason : String)
  | shuttingDown
  | internal (context : String)
  deriving DecidableEq

namespace Refusal

def code : Refusal → String
  | .overloaded .. => "OVERLOADED"
  | .campaignNotFound .. => "CAMPAIGN_NOT_FOUND"
  | .campaignInactive .. => "CAMPAIGN_INACTIVE"
  | .campaignExists .. => "CAMPAIGN_EXISTS"
  | .issuanceInFlight .. => "ISSUANCE_IN_FLIGHT"
  | .requestNotFound .. => "REQUEST_NOT_FOUND"
  | .couponNotFound .. => "COUPON_NOT_FOUND"
  | .couponAlreadyIssued .. => "COUPON_ALREADY_ISSUED"
  | .couponNotOwned .. => "COUPON_NOT_OWNED"
  | .couponAlreadyRedeemed .. => "COUPON_ALREADY_REDEEMED"
  | .orderBelowMinimum .. => "ORDER_BELOW_MINIMUM"
  | .invalidTransition .. => "INVALID_TRANSITION"
  | .invalidRequest .. => "INVALID_REQUEST"
  | .shuttingDown => "SERVICE_SHUTDOWN"
  | .internal .. => "INTERNAL"

def message : Refusal → String
  | .overloaded details _ => s!"Service is overloaded: {details}"
  | .campaignNotFound campaign => s!"Campaign {campaign} not found"
  | .campaignInactive campaign reason => s!"Campaign {campaign} is not active: {reason}"
  | .campaignExists campaign => s!"Campaign {campaign} already exists"
  | .issuanceInFlight campaign n => s!"Campaign {campaign} has {n} requests in flight"
  | .requestNotFound request => s!"Request {request} not found"
  | .couponNotFound coupon => s!"Coupon {coupon} not found"
  | .couponAlreadyIssued campaign requester =>
    s!"Requester {requester} already holds a coupon of campaign {campaign}"
  | .couponNotOwned coupon => s!"Coupon {coupon} is not owned by the requester"
  | .couponAlreadyRedeemed coupon => s!"Coupon {coupon} was already redeemed"
  | .orderBelowMinimum amount minimum =>
    s!"Order amount {amount} is below the minimum of {minimum}"
  | .invalidTransition request current next =>
    s!"Request {request} cannot move from {current} to {next}"
  | .invalidRequest reason => s!"Invalid request: {reason}"
  | .shuttingDown => "Service is shutting down"
  | .internal context => s!"Internal error: {context}"

def status : Refusal → Nat
  | .overloaded .. => 429
  | .campaignNotFound .. | .requestNotFound .. | .couponNotFound .. => 404
  | .campaignInactive .. | .campaignExists .. | .issuanceInFlight .. | .couponAlreadyIssued ..
  | .couponAlreadyRedeemed .. | .invalidTransition .. => 409
  | .couponNotOwned .. => 403
  | .orderBelowMinimum .. | .invalidRequest .. => 400
  | .shuttingDown => 503
  | .internal .. => 500

/-- After how many seconds a refused caller may try again, where the refusal says so. -/
def retryAfter? : Refusal → Option UInt64
  | .overloaded _ secs => some secs
  | _ => none

end Refusal
end CouponIssuance
