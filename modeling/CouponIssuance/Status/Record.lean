import CouponIssuance.Refusal
import CouponIssuance.Window
/-!
# Status records

What is known of a request: who asked for what and when, how far it has come, and how it ended.
-/
namespace CouponIssuance

structure StatusRecord where
  request : RequestId
  campaign : CampaignId
  requester : RequesterId
  state : RequestState
  coupon : Option CouponId
  reason : Option String
  requestedAt : Millis
  resolvedAt : Option Millis
  deriving DecidableEq

inductive Resolution where
  | issued (coupon : CouponId)
  | soldOut
  | failed (reason : String)
  deriving DecidableEq

/-- The reason given when there is no stock left. -/
def Resolution.exhausted : String := "stock exhausted"

def Resolution.state : Resolution → RequestState
  | .issued _ => .issued
  | .soldOut => .soldOut
  | .failed _ => .failed

namespace StatusRecord

def pending (request : RequestId) (campaign : CampaignId) (requester : RequesterId)
    (requestedAt : Millis) : StatusRecord :=
  ⟨request, campaign, requester, .pending, none, none, requestedAt, none⟩

/-- The record as it stands after its request has ended. -/
def resolved (r : StatusRecord) (resolution : Resolution) (now : Millis) : StatusRecord :=
  let r := { r with state := resolution.state, resolvedAt := some now }
  match resolution with
  | .issued coupon => { r with coupon := some coupon }
  | .soldOut => { r with reason := some Resolution.exhausted }
  | .failed reason => { r with reason := some reason }

end StatusRecord
end CouponIssuance
