import CouponIssuance.Settings
import CouponIssuance.Status.Wait
import CouponIssuance.Worker
/-!
# The service

What callers can ask for: a coupon, the state of a request, campaigns and their stock, the coupons
of a requester, redemption, and how the service itself is doing. Asking for a coupon never touches
the stock; it is the workers who do, in the order of admission.

Names for requests and coupons are minted elsewhere and come in as outcomes, since minting can fail.
-/
namespace CouponIssuance

structure Service extends Office where
  settings : Settings
  /-- Whether what is still queued is to be abandoned. -/
  cancelled : Bool
  now : Millis

/-- What a caller learns about the request for a coupon. -/
structure Ticket where
  request : RequestId
  state : RequestState
  coupon : Option CouponId
  deriving DecidableEq

/-- How a request for a coupon is answered: it waits for its turn, or its end is known. -/
inductive Admission where
  | queued (ticket : Ticket)
  | resolved (ticket : Ticket)
  deriving DecidableEq

namespace Admission

def ticket : Admission → Ticket
  | .queued t | .resolved t => t

/-- The answer to a caller whose earlier request has this record. -/
def ofRecord (r : StatusRecord) : Admission :=
  let ticket : Ticket := ⟨r.request, r.state, r.coupon⟩
  if r.state.isTerminal then .resolved ticket else .queued ticket

/-- The answer to a caller who holds a coupon already. -/
def ofCoupon (c : Coupon) : Admission := .resolved ⟨c.request, .issued, some c.id⟩

end Admission

structure SystemStatus where
  queueDepth : Nat
  inFlight : Nat
  workers : Nat
  campaigns : Nat
  trackedRequests : Nat
  issuedCoupons : Nat
  serving : Bool
  deriving DecidableEq

namespace Service

/-! ## Asking for a coupon -/

/-- The record of the requester's latest request for a campaign, if that keeps the requester from
asking again. -/
def liveRecord (s : Service) (k : TicketKey) : Option StatusRecord :=
  ((s.stores.tickets.current k).bind (s.stores.status.get s.now)).filter
    (·.state.blocksReadmission)

/-- Keeps the record of a new request, and makes it the requester's latest. -/
def keep (s : Service) (r : StatusRecord) : Service :=
  { s with stores := { s.stores with
      status := s.stores.status.put s.now r
      tickets := s.stores.tickets.set (r.requester, r.campaign) r.request } }

/-- Drops a new request that could not be queued. -/
def withdraw (s : Service) (r : StatusRecord) : Service :=
  { s with stores := { s.stores with
      status := (s.stores.status.remove r.request).1
      tickets := s.stores.tickets.clear (r.requester, r.campaign) r.request } }

/-- Queues a request, unless the work has been cancelled. -/
def submit (s : Service) (r : IssuanceRequest) : Except Refusal Service :=
  if s.cancelled then .error .shuttingDown
  else do
    let queue ← s.queue.enqueue r
    return { s with queue := queue }

/-- Takes in a new request under the name `id`. If no stock remains it ends at once, as it would
end in the queue. -/
def takeIn (s : Service) (requester : RequesterId) (campaign : CampaignId) (id : RequestId) :
    Service × Except Refusal Admission :=
  let record := StatusRecord.pending id campaign requester s.now
  if s.stores.ledger.peek campaign = some 0 then
    (s.keep (record.resolved .soldOut s.now), .ok (.resolved ⟨id, .soldOut, none⟩))
  else
    let opened := s.keep record
    match opened.submit ⟨id, campaign, requester, s.now⟩ with
    | .ok queued => (queued, .ok (.queued ⟨id, .pending, none⟩))
    | .error why => (opened.withdraw record, .error why)

/-- The answer to who asks for a coupon, if it takes no new request. A requester who holds a coupon, or
has a live request, is told so. -/
def answer? (s : Service) (requester : RequesterId) (campaign : CampaignId) :
    Option (Except Refusal Admission) :=
  if s.queue.closed then some (.error .shuttingDown)
  else match s.stores.activeCampaign campaign s.now with
    | .error why => some (.error why)
    | .ok _ =>
      match s.stores.coupons.owned requester campaign with
      | some coupon => some (.ok (.ofCoupon coupon))
      | none => (s.liveRecord (requester, campaign)).map fun record => .ok (.ofRecord record)

def issue (s : Service) (requester : RequesterId) (campaign : CampaignId)
    (minted : Except Refusal RequestId) : Service × Except Refusal Admission :=
  match s.answer? requester campaign with
  | some answer => (s, answer)
  | none =>
    match minted with
    | .error why => (s, .error why)
    | .ok id => s.takeIn requester campaign id

def status (s : Service) (id : RequestId) : Except Refusal StatusRecord :=
  match s.stores.status.get s.now id with
  | some record => .ok record
  | none => .error (.requestNotFound id)

/-- What a caller is told, and when, who asks for the status of a request and may ask to wait for its
end, if others do this to the records meanwhile. The settings limit how long that is. -/
def statusBy (s : Service) (size : Nat) (id : RequestId) (asked : Option Millis)
    (others : StatusStore.Schedule) : Except Refusal StatusRecord × Millis :=
  match asked.filter (0 < ·) with
  | none => (s.status id, s.now)
  | some wait =>
    let most := min wait s.settings.maxStatusWaitMs.toNat
    let waited := s.stores.status.await size id s.now most others
    (waited.record.elim (.error (.requestNotFound id)) .ok, waited.endedAt)

/-! ## Campaigns and stock -/

def stock (s : Service) (campaign : CampaignId) : Except Refusal Stock :=
  match s.stores.ledger.snapshot campaign with
  | some stock => .ok stock
  | none => .error (.campaignNotFound campaign)

/-- Fills up the stock of a campaign, while no request of it is in flight or if that is allowed at
any time. -/
def initializeStock (s : Service) (campaign : CampaignId) : Service × Except Refusal Stock :=
  match s.stores.catalog.get campaign with
  | .error why => (s, .error why)
  | .ok c =>
    let (ledger, stock) := s.stores.ledger.reset campaign c.totalStock
    let done : Service × Except Refusal Stock :=
      ({ s with stores := { s.stores with ledger := ledger } }, .ok stock)
    if s.settings.allowLiveReset then done
    else match s.queue.whenIdle campaign done with
      | .ok done => done
      | .error inFlight => (s, .error (.issuanceInFlight campaign inFlight))

/-- Enters a campaign, and its stock. -/
def register (s : Service) (draft : CampaignDraft) : Service × Except Refusal Campaign :=
  let entered := do
    let campaign ← draft.build s.now s.settings.defaultDiscount
    return (campaign, ← s.stores.catalog.register campaign)
  match entered with
  | .error why => (s, .error why)
  | .ok (campaign, catalog) =>
    match s.stores.ledger.register campaign.id campaign.totalStock with
    | (ledger, true) =>
      ({ s with stores := { s.stores with catalog := catalog, ledger := ledger } }, .ok campaign)
    | (_, false) =>
      ({ s with stores := { s.stores with catalog := catalog } },
        .error (.internal s!"stock ledger already tracks campaign {campaign.id}"))

def campaign (s : Service) (id : CampaignId) : Except Refusal Campaign := s.stores.catalog.get id

/-- The campaigns that are open and have stock, with what remains. -/
def available (s : Service) : List (Campaign × UInt64) :=
  s.stores.catalog.list.filterMap fun c =>
    if c.window.isOpen s.now then
      ((s.stores.ledger.peek c.id).filter (0 < ·)).map fun remaining => (c, remaining)
    else none

/-! ## Coupons -/

def couponsOf (s : Service) (requester : RequesterId) : List Coupon :=
  s.stores.coupons.listFor requester

def campaignOf (s : Service) (coupon : CouponId) : Except Refusal Campaign := do
  let coupon ← s.stores.coupons.get coupon
  s.stores.catalog.get coupon.campaign

/-- What redeeming a coupon now would do to an order. -/
def preview (s : Service) (requester : RequesterId) (coupon : CouponId) (order : UInt64) :
    Except Refusal Quote := do
  let campaign ← s.campaignOf coupon
  s.stores.coupons.preview requester coupon order campaign s.now

/-- Whether a coupon could be redeemed on an order now, and if not, why. -/
def validate (s : Service) (requester : RequesterId) (coupon : CouponId) (order : UInt64) :
    Verdict :=
  match s.preview requester coupon order with
  | .ok quote => .usable requester quote
  | .error why => .unusable requester coupon order why.message

def redeem (s : Service) (requester : RequesterId) (coupon : CouponId) (order : UInt64)
    (orderId : Option String) : Service × Except Refusal Quote :=
  let redeemed := do
    let campaign ← s.campaignOf coupon
    s.stores.coupons.redeem requester coupon order orderId campaign s.now
  match redeemed with
  | .error why => (s, .error why)
  | .ok (coupons, quote) =>
    ({ s with stores := { s.stores with coupons := coupons } }, .ok quote)

/-! ## The service itself -/

def isServing (s : Service) : Bool := !s.queue.closed

def systemStatus (s : Service) : SystemStatus where
  queueDepth := s.queue.totalDepth
  inFlight := s.queue.totalInFlight
  workers := s.queue.partitions
  campaigns := s.stores.catalog.size
  trackedRequests := s.stores.status.size
  issuedCoupons := s.stores.coupons.size
  serving := s.isServing

def turn (s : Service) (p : Nat) (minted : Except Refusal CouponId) : Service :=
  { s with toOffice := s.toOffice.turn p s.cancelled s.now minted }

def sweep (s : Service) : Service := { s with stores := s.stores.sweep s.now }

def wait (s : Service) (duration : Millis) : Service := { s with now := s.now + duration }

def close (s : Service) : Service := { s with queue := s.queue.close }

/-- From now on workers abandon what is queued. -/
def cancel (s : Service) : Service := { s with cancelled := true }

inductive StartFault where
  | queue (fault : QueueFault)
  | seed (why : Refusal)
  deriving DecidableEq

def StartFault.message : StartFault → String
  | .queue fault => fault.message
  | .seed why => why.message

/-- Registers the campaigns to start with, in their order. -/
def registerSeeds (s : Service) : List Seeds.Seed → Except Refusal Service
  | [] => .ok s
  | (campaign, total) :: rest => do
    let (s, registered) := s.register (.seeded campaign total s.settings.defaultDiscount)
    let _ ← registered
    s.registerSeeds rest

/-- The limits that settings put on the queue. -/
def queueLimits (settings : Settings) : QueueLimits where
  buffer := settings.partitionBuffer.toNat
  maxDepth := settings.maxQueueDepth.toNat
  retryAfterSecs := settings.retryAfterSecs
  timeout := settings.dequeueTimeoutMs.toNat

/-- Sets up a service: empty stores, an empty queue, and the campaigns to start with. -/
def create (h : Hashing) (settings : Settings) (now : Millis) : Except StartFault Service :=
  match Queue.create settings.numWorkers.toNat (queueLimits settings) with
  | .error fault => .error (.queue fault)
  | .ok queue =>
    let stores := Stores.create h settings.storeShards.toNat (settings.statusTtlSecs.toNat * 1000)
    let empty : Service := {
      stores := stores, queue := queue, settings := settings, cancelled := false, now := now }
    match empty.registerSeeds settings.seeds with
    | .error why => .error (.seed why)
    | .ok s => .ok s

end Service
end CouponIssuance
