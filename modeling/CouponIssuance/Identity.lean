/-!
# Identities

Campaigns and requesters are numbered by the callers. Requests and coupons get their names from the
service.
-/
namespace CouponIssuance

structure CampaignId where
  value : UInt64
  deriving DecidableEq

structure RequesterId where
  value : UInt64
  deriving DecidableEq

structure RequestId where
  text : String
  deriving DecidableEq

structure CouponId where
  text : String
  deriving DecidableEq

instance : ToString CampaignId := ⟨fun c => toString c.value⟩

instance : ToString RequesterId := ⟨fun r => toString r.value⟩

instance : ToString RequestId := ⟨RequestId.text⟩

instance : ToString CouponId := ⟨CouponId.text⟩

end CouponIssuance
