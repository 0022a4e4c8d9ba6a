import CouponIssuance.Campaign
import CouponIssuance.Table.Basic
/-!
# The catalog of campaigns

Campaigns are entered once and stay. The listing is in the order of their numbers.
-/
namespace CouponIssuance

structure Catalog where
  campaigns : Table CampaignId Campaign
  deriving DecidableEq

namespace Catalog

def empty : Catalog := ⟨Table.empty⟩

/-- Enters a campaign under a number not yet taken. -/
def register (c : Catalog) (campaign : Campaign) : Except Refusal Catalog :=
  if c.campaigns.contains campaign.id then .error (.campaignExists campaign.id)
  else .ok ⟨c.campaigns.insert campaign.id campaign⟩

def get (c : Catalog) (id : CampaignId) : Except Refusal Campaign :=
  match c.campaigns.get? id with
  | some campaign => .ok campaign
  | none => .error (.campaignNotFound id)

def list (c : Catalog) : List Campaign :=
  c.campaigns.values.mergeSort fun a b => a.id.value ≤ b.id.value

def size (c : Catalog) : Nat := c.campaigns.size

end Catalog
end CouponIssuance
