import CouponIssuance.Campaign
import CouponIssuance.Json.Reader
/-!
# Forms

What callers send, read from JSON. Every form is an object of named members, in any order and among
others that are ignored; all but the draft of a campaign may also be an array of the values in order.
An optional member may be missing or `null`.
-/
namespace CouponIssuance

structure IssueForm where
  requester : RequesterId
  campaign : CampaignId
  deriving DecidableEq

/-- Says how long to wait for the end of a request, in milliseconds. -/
structure StatusForm where
  wait : Option UInt64
  deriving DecidableEq

structure RedeemForm where
  requester : RequesterId
  coupon : CouponId
  order : UInt64
  orderId : Option String
  deriving DecidableEq

/-- Asks whether a coupon could be redeemed on an order. -/
structure ValidateForm where
  requester : RequesterId
  coupon : CouponId
  order : UInt64
  deriving DecidableEq

namespace Json.Read.Slot

/-- A slot with a value. -/
def required {σ α : Type} (name : String) (value : Reader α) (get : σ → Option α)
    (put : σ → α → σ) : Slot σ where
  name := name
  isHeld acc := (get acc).isSome
  read acc s := (value s).map fun p => (put acc p.1, p.2)
  mayMiss := false

/-- A slot that may be missing, but not `null`. -/
def spare {σ α : Type} (name : String) (value : Reader α) (get : σ → Option α)
    (put : σ → α → σ) : Slot σ :=
  { required name value get put with mayMiss := true }

/-- A slot that may be missing or `null`. -/
def optional {σ α : Type} (name : String) (value : Reader α) (get : σ → Option (Option α))
    (put : σ → Option α → σ) : Slot σ :=
  spare name (nullable value) get put

end Json.Read.Slot

open Json.Read

/-- What has been read of a form: the requester, the campaign, the coupon and the order. -/
structure FormParts where
  requester : Option UInt64 := none
  campaign : Option UInt64 := none
  coupon : Option String := none
  order : Option UInt64 := none
  orderId : Option (Option String) := none
  wait : Option (Option UInt64) := none

namespace FormParts

def requesterSlot : Slot FormParts :=
  .required "requesterId" amount requester fun p v => { p with requester := v }

def campaignSlot : Slot FormParts :=
  .required "campaignId" amount campaign fun p v => { p with campaign := v }

def couponSlot : Slot FormParts :=
  .required "couponId" text coupon fun p v => { p with coupon := v }

def orderSlot : Slot FormParts :=
  .required "orderAmount" amount order fun p v => { p with order := v }

def orderIdSlot : Slot FormParts :=
  .optional "orderId" text orderId fun p v => { p with orderId := some v }

def waitSlot : Slot FormParts :=
  .optional "waitMs" amount wait fun p v => { p with wait := some v }

end FormParts

open FormParts

namespace IssueForm

def read : Reader IssueForm :=
  record [requesterSlot, campaignSlot] {} fun p => do
    return ⟨⟨← p.requester⟩, ⟨← p.campaign⟩⟩

end IssueForm

namespace StatusForm

def read : Reader StatusForm :=
  record [waitSlot] {} fun p => some ⟨p.wait.join⟩

end StatusForm

namespace RedeemForm

def read : Reader RedeemForm :=
  record [requesterSlot, couponSlot, orderSlot, orderIdSlot] {} fun p => do
    return ⟨⟨← p.requester⟩, ⟨← p.coupon⟩, ← p.order, p.orderId.join⟩

end RedeemForm

namespace ValidateForm

def read : Reader ValidateForm :=
  record [requesterSlot, couponSlot, orderSlot] {} fun p => do
    return ⟨⟨← p.requester⟩, ⟨← p.coupon⟩, ← p.order⟩

end ValidateForm

/-! ## Discounts and windows -/

namespace DiscountKind

def read : Reader DiscountKind := choice ofName?

end DiscountKind

namespace RequestState

def read : Reader RequestState := choice ofName?

end RequestState

namespace Discount

structure Parts where
  kind : Option DiscountKind := none
  value : Option UInt64 := none
  maxDiscount : Option (Option UInt64) := none
  minOrderAmount : Option UInt64 := none

def slots : List (Slot Parts) :=
  [.required "kind" DiscountKind.read Parts.kind fun p v => { p with kind := v },
    .required "value" amount Parts.value fun p v => { p with value := v },
    .optional "maxDiscount" amount Parts.maxDiscount fun p v => { p with maxDiscount := some v },
    .spare "minOrderAmount" amount Parts.minOrderAmount fun p v => { p with minOrderAmount := v }]

def ofParts (p : Parts) : Option Discount := do
  return ⟨← p.kind, ← p.value, p.maxDiscount.join, p.minOrderAmount.getD 0⟩

def read : Reader Discount := record slots {} ofParts

end Discount

namespace Window

structure Parts where
  startsAt : Option (Option UInt64) := none
  endsAt : Option (Option UInt64) := none

def slots : List (Slot Parts) :=
  [.optional "startsAt" amount Parts.startsAt fun p v => { p with startsAt := some v },
    .optional "endsAt" amount Parts.endsAt fun p v => { p with endsAt := some v }]

def ofParts (p : Parts) : Window := ⟨p.startsAt.join, p.endsAt.join⟩

def read : Reader Window := record slots {} fun p => some (ofParts p)

end Window

/-! ## Campaign drafts -/

namespace CampaignDraft

/-- What has been read of a draft. The ends of its window stand among the other members, and whether
they are what they should be is looked at only when all has been read. -/
structure Parts where
  campaign : Option UInt64 := none
  name : Option (Option String) := none
  totalStock : Option UInt64 := none
  discount : Option (Option Discount) := none
  startsAt : List Gist := []
  endsAt : List Gist := []

def slots : List (Slot Parts) :=
  [.required "campaignId" amount Parts.campaign fun p v => { p with campaign := v },
    .optional "name" text Parts.name fun p v => { p with name := some v },
    .required "totalStock" amount Parts.totalStock fun p v => { p with totalStock := v },
    .optional "discount" Discount.read Parts.discount fun p v => { p with discount := some v }]

/-- How the member under a key is read. -/
def member (p : Parts) (key : List Char) : Except Fault (Reader Parts) :=
  let aside (put : Gist → Parts) : Except Fault (Reader Parts) :=
    .ok fun s => (gist s).map fun q => (put q.1, q.2)
  match slots.find? fun f => f.name = String.ofList key with
  | some f => if f.isHeld p then .error .mismatch else .ok (f.read p)
  | none =>
    if key = "startsAt".toList then aside fun g => { p with startsAt := g :: p.startsAt }
    else if key = "endsAt".toList then aside fun g => { p with endsAt := g :: p.endsAt }
    else aside fun _ => p

/-- The end of a window, given at most once and as an amount or `null`. -/
def instant? : List Gist → Option (Option UInt64)
  | [] | [.null] => some none
  | [.amount n] => some (some n)
  | _ => none

def ofParts (p : Parts) : Option CampaignDraft := do
  return ⟨⟨← p.campaign⟩, p.name.join, ← p.totalStock,
    ⟨← instant? p.startsAt, ← instant? p.endsAt⟩, p.discount.join⟩

def read : Reader CampaignDraft := object member {} ofParts

end CampaignDraft
end CouponIssuance
