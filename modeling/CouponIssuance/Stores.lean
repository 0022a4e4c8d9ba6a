import CouponIssuance.Catalog
import CouponIssuance.CouponBook
import CouponIssuance.Ledger
import CouponIssuance.Queue
import CouponIssuance.Status.Store
import CouponIssuance.TicketIndex
/-!
# The stores, and dispatch

What the service keeps, and what a worker does to it for one request: it marks the request as being
processed, attempts to issue a coupon, and records how that ended. A request that is not pending any
more is left alone, so each is attempted at most once.

The name of the coupon is minted elsewhere and comes in as an outcome, since minting can fail.
-/
namespace CouponIssuance

structure Stores where
  catalog : Catalog
  ledger : Ledger
  coupons : CouponBook
  status : StatusStore
  tickets : TicketIndex

/-- How the keys of the sharded stores are spread. -/
structure Hashing where
  request : RequestId → Nat
  ticket : TicketKey → Nat

namespace Hashing

/-- Spreads by the hash values of the keys. -/
def standard : Hashing where
  request id := (hash id.text).toNat
  ticket k := (mixHash (hash k.1.value) (hash k.2.value)).toNat

end Hashing

namespace Stores

def create (h : Hashing) (shards : Nat) (ttl : Millis) : Stores where
  catalog := .empty
  ledger := .empty
  coupons := .empty
  status := .create h.request shards ttl
  tickets := .create h.ticket shards

/-- The campaign of a request, if it may still issue coupons. -/
def activeCampaign (s : Stores) (c : CampaignId) (now : Millis) : Except Refusal Campaign := do
  let campaign ← s.catalog.get c
  campaign.ensureActive now
  return campaign

/-- Sets a unit of stock aside for a request, or tells how the request ends without one. -/
def reserve (s : Stores) (now : Millis) (r : IssuanceRequest) : Except Resolution Ledger :=
  match s.activeCampaign r.campaign now with
  | .error why => .error (.failed why.message)
  | .ok _ =>
    match s.ledger.tryReserve r.campaign with
    | (_, false) => .error .soldOut
    | (reserved, true) => .ok reserved

/-- Enters the coupon of a request under the name minted for it. -/
def recordCoupon (s : Stores) (now : Millis) (r : IssuanceRequest)
    (minted : Except Refusal CouponId) : Except Refusal (CouponBook × Coupon) := do
  let id ← minted
  s.coupons.issue id r.campaign r.requester r.id now

/-- Attempts to issue a coupon: reserves a unit and enters the coupon, or gives the unit back. -/
def attempt (s : Stores) (now : Millis) (r : IssuanceRequest) (minted : Except Refusal CouponId) :
    Stores × Resolution :=
  match s.reserve now r with
  | .error resolution => (s, resolution)
  | .ok reserved =>
    match s.recordCoupon now r minted with
    | .ok (coupons, coupon) =>
      ({ s with ledger := reserved, coupons := coupons }, .issued coupon.id)
    | .error why =>
      ({ s with ledger := (reserved.restore r.campaign).1 }, .failed why.message)

/-- Records how a request ended, if it can still end. -/
def conclude (s : Stores) (now : Millis) (id : RequestId) (resolution : Resolution) : Stores :=
  match s.status.resolve now id resolution with
  | .ok (status, _) => { s with status := status }
  | .error _ => s

/-- Marks a request as being processed and does something about it; one that is not pending any more
is passed over. -/
def process (s : Stores) (now : Millis) (r : IssuanceRequest)
    (work : Stores → Stores × Resolution) : Stores :=
  match s.status.advance now r.id .processing with
  | .error _ => s
  | .ok (status, _) =>
    let (s, resolution) := work { s with status := status }
    s.conclude now r.id resolution

def dispatch (s : Stores) (now : Millis) (r : IssuanceRequest)
    (minted : Except Refusal CouponId) : Stores :=
  s.process now r fun s => s.attempt now r minted

/-- Whether taking a request to its end uses up a name. -/
def usesName (s : Stores) (now : Millis) (r : IssuanceRequest) : Bool :=
  (s.status.advance now r.id .processing).isOk && (s.reserve now r).isOk

/-- The reason given to requests that are still queued when the service stops. -/
def abandonment : String := "service shutting down"

/-- Ends a request without an attempt. -/
def abandon (s : Stores) (now : Millis) (r : IssuanceRequest) : Stores :=
  s.process now r fun s => (s, .failed abandonment)

/-- Purges the status store, and drops the tickets of requests it does not show any more. -/
def sweep (s : Stores) (now : Millis) : Stores :=
  let status := (s.status.purge now).1
  { s with status := status, tickets := (s.tickets.prune fun id => status.contains now id).1 }

end Stores
end CouponIssuance
