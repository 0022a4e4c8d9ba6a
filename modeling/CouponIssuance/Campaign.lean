import CouponIssuance.Discount
import CouponIssuance.Window
/-!
# Campaigns

A campaign offers a stock of coupons of one discount within a window. It is drawn up from a draft,
which is checked once; after that nothing of it changes. What remains of the stock is kept
elsewhere.
-/
namespace CouponIssuance

structure Campaign where
  id : CampaignId
  name : String
  totalStock : UInt64
  window : Window
  discount : Discount
  createdAt : Millis
  deriving DecidableEq

structure CampaignDraft where
  campaign : CampaignId
  name : Option String
  totalStock : UInt64
  window : Window
  discount : Option Discount
  deriving DecidableEq

namespace Campaign

def ensureActive (c : Campaign) (now : Millis) : Except Refusal Unit :=
  match c.window.closure? now with
  | some closure => .error (.campaignInactive c.id closure.message)
  | none => .ok ()

end Campaign

namespace CampaignDraft

/-- An unlimited campaign with a fixed discount, as set up when the service starts. -/
def seeded (campaign : CampaignId) (totalStock discount : UInt64) : CampaignDraft :=
  ⟨campaign, none, totalStock, .unlimited, some (.fixed discount)⟩

/-- Accepts a window that is not over before it starts. -/
def checkWindow (w : Window) : Except Refusal Unit :=
  match w.startsAt, w.endsAt with
  | some start, some ending =>
    if ending ≤ start then
      .error (.invalidRequest s!"startsAt ({start}) must precede endsAt ({ending})")
    else .ok ()
  | _, _ => .ok ()

/-- Draws up the campaign, or says what is wrong with the draft: first the stock, then the window,
then the discount. -/
def build (d : CampaignDraft) (now : Millis) (defaultDiscount : UInt64) :
    Except Refusal Campaign :=
  if d.totalStock = 0 then .error (.invalidRequest "totalStock must be greater than 0")
  else do
    checkWindow d.window
    let discount := d.discount.getD (.fixed defaultDiscount)
    discount.validate
    return {
      id := d.campaign
      name := d.name.getD s!"campaign-{d.campaign}"
      totalStock := d.totalStock
      window := d.window
      discount := discount
      createdAt := now }

end CampaignDraft
end CouponIssuance
