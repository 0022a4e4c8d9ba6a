import CouponIssuance.Proofs.Service.Effect
/-!
# What decides how a request ends

While work goes on and the campaign is open, a request ends by the stock that is left when it is
taken. While the campaign is closed it fails.
-/
namespace CouponIssuance.Service.Outcome

variable {s : Service} {x : IssuanceRequest} {minted : Except Refusal CouponId} {stores : Stores}
  {resolution : Resolution} {campaign : Campaign} {stock : Stock}

theorem of_remaining {id : CouponId} (h : s.Outcome x (.ok id) stores resolution)
    (hcancelled : s.cancelled = false)
    (hopen : s.stores.activeCampaign x.campaign s.now = .ok campaign)
    (hstock : s.stores.ledger.snapshot x.campaign = some stock) (h0 : stock.remaining ≠ 0)
    (hunowned : s.stores.coupons.owned x.requester x.campaign = none) :
    resolution = .issued id ∧ stores = s.award x id := by
  cases h with
  | abandoned hc => rw [hcancelled] at hc; cases hc
  | attempted _ ha =>
    cases ha with
    | closed hclosed => rw [hopen] at hclosed; cases hclosed
    | exhausted _ hnone => exact absurd (hnone stock hstock) h0
    | unrecorded _ _ _ hwhy => cases hwhy hunowned
    | issued _ _ _ hid => cases hid; exact ⟨rfl, rfl⟩

theorem of_exhausted (h : s.Outcome x minted stores resolution) (hcancelled : s.cancelled = false)
    (hopen : s.stores.activeCampaign x.campaign s.now = .ok campaign)
    (hstock : s.stores.ledger.snapshot x.campaign = some stock) (h0 : stock.remaining = 0) :
    resolution = .soldOut ∧ stores = s.stores := by
  cases h with
  | abandoned hc => rw [hcancelled] at hc; cases hc
  | attempted _ ha =>
    cases ha with
    | closed hclosed => rw [hopen] at hclosed; cases hclosed
    | exhausted => exact ⟨rfl, rfl⟩
    | unrecorded _ hs hn =>
      rw [hstock] at hs
      cases hs
      exact absurd h0 hn
    | issued _ hs hn =>
      rw [hstock] at hs
      cases hs
      exact absurd h0 hn

theorem of_shut (h : s.Outcome x minted stores resolution)
    (hshut : ∀ campaign, s.stores.activeCampaign x.campaign s.now ≠ .ok campaign) :
    (∃ reason, resolution = .failed reason) ∧ stores = s.stores := by
  cases h with
  | abandoned => exact ⟨⟨_, rfl⟩, rfl⟩
  | attempted _ ha =>
    cases ha with
    | closed => exact ⟨⟨_, rfl⟩, rfl⟩
    | exhausted hopen => exact absurd hopen (hshut _)
    | unrecorded hopen => exact absurd hopen (hshut _)
    | issued hopen => exact absurd hopen (hshut _)

end CouponIssuance.Service.Outcome
