import CouponIssuance.Proofs.Service.Invariance
/-!
# What becomes of campaigns, stock and coupons

Of all moves only four touch the ledger or the coupon book: a reset and a registration fill up the
stock of one campaign, a redemption marks a coupon as spent, and a request that wins takes a unit of
stock and enters a coupon. So campaigns stay as they are, coupons stay but for their redemption,
and every new coupon stands for a unit that is gone.
-/
namespace CouponIssuance

namespace Service

/-- The stores after `r` has won the coupon `id`. -/
def award (s : Service) (r : IssuanceRequest) (id : CouponId) : Stores :=
  { s.stores with
    ledger := (s.stores.ledger.tryReserve r.campaign).1
    coupons := s.stores.coupons.enter ⟨id, r.campaign, r.requester, r.id, s.now, none⟩ }

/-- What an event does to the catalog, the ledger and the coupon book. -/
inductive Effect (s : Service) (e : Event) (s' : Service) : Prop
  | nothing (hcatalog : s'.stores.catalog = s.stores.catalog)
      (hledger : s'.stores.ledger = s.stores.ledger) (hbook : s'.stores.coupons = s.stores.coupons)
      (hreset : s.reset? e = none) (hregistered : s.registered? e = none)
  | reset {c campaign} (hcatalog : s'.stores.catalog = s.stores.catalog)
      (hledger : s'.stores.ledger = (s.stores.ledger.reset c campaign.totalStock).1)
      (hbook : s'.stores.coupons = s.stores.coupons) (hreset : s.reset? e = some c)
      (hregistered : s.registered? e = none)
      (hlisted : s.stores.catalog.campaigns.get? c = some campaign)
  | registered {campaign}
      (hcatalog : s'.stores.catalog.campaigns =
        s.stores.catalog.campaigns.insert campaign.id campaign)
      (hledger : s'.stores.ledger = (s.stores.ledger.reset campaign.id campaign.totalStock).1)
      (hbook : s'.stores.coupons = s.stores.coupons) (hreset : s.reset? e = none)
      (hregistered : s.registered? e = some campaign.id)
      (hnew : s.stores.catalog.campaigns.get? campaign.id = none)
  | redeemed {k redemption} (hcatalog : s'.stores.catalog = s.stores.catalog)
      (hledger : s'.stores.ledger = s.stores.ledger)
      (hbook : s'.stores.coupons = s.stores.coupons.spend k redemption)
      (hreset : s.reset? e = none) (hregistered : s.registered? e = none)
      (hheld : s.stores.coupons.coupons.get? k.id = some k)
  | awarded {r stock id} (hcatalog : s'.stores.catalog = s.stores.catalog)
      (hledger : s'.stores.ledger = (s.award r id).ledger)
      (hbook : s'.stores.coupons = (s.award r id).coupons)
      (hreset : s.reset? e = none) (hregistered : s.registered? e = none)
      (htakes : s.takes e = some r) (hcoupon : e.coupon? = some id)
      (hstock : s.stores.ledger.snapshot r.campaign = some stock) (hremaining : stock.remaining ≠ 0)
      (hnew : s.stores.coupons.coupons.get? id = none)
      (hunowned : s.stores.coupons.owned r.requester r.campaign = none)

section Effect

variable {s s' : Service} {e : Event} {requests : List RequestId} {coupons : List CouponId}

theorem Sound.effect (h : s.Sound requests coupons) (hmove : Move s e s')
    (hcoupon : ∀ id, e.coupon? = some id → id ∉ coupons) : Effect s e s' := by
  cases hmove with
  | idle _ hreset hregistered => exact .nothing rfl rfl rfl hreset hregistered
  | turnedAway => exact .nothing rfl rfl rfl rfl rfl
  | queued => exact .nothing rfl rfl rfl rfl rfl
  | rejected => exact .nothing rfl rfl rfl rfl rfl
  | filled hlisted _ hreset => exact .reset rfl rfl rfl hreset rfl hlisted
  | registered _ hnew hregistered => exact .registered rfl rfl rfl rfl hregistered hnew
  | redeemed hheld =>
    have hname := h.book.named hheld
    exact .redeemed rfl rfl rfl rfl rfl (hname ▸ hheld)
  | served hattended hhead houtcome =>
    rcases houtcome.cases with ⟨rfl, -⟩ | ⟨stock, id, hstock, h0, rfl, hown, rfl, rfl⟩
    · exact .nothing rfl rfl rfl rfl rfl
    · have hnew := h.coupon_new (hcoupon id rfl)
      have htakes := takes_of_head hattended hhead (.ok id)
      exact .awarded rfl rfl rfl rfl rfl htakes rfl hstock h0 hnew hown
  | dismissed => exact .nothing rfl rfl rfl rfl rfl
  | swept => exact .nothing rfl rfl rfl rfl rfl
  | waited => exact .nothing rfl rfl rfl rfl rfl
  | closed => exact .nothing rfl rfl rfl rfl rfl
  | cancelled => exact .nothing rfl rfl rfl rfl rfl
  | stopSent => exact .nothing rfl rfl rfl rfl rfl

theorem Effect.listed (h : Effect s e s') {c : CampaignId} {campaign : Campaign}
    (hc : s.stores.catalog.campaigns.get? c = some campaign) :
    s'.stores.catalog.campaigns.get? c = some campaign := by
  cases h with
  | nothing hcatalog => rw [hcatalog]; exact hc
  | reset hcatalog => rw [hcatalog]; exact hc
  | @registered other hcatalog _ _ _ _ hnew =>
    have hne : other.id ≠ c := by
      rintro rfl
      rw [hnew] at hc
      cases hc
    rw [hcatalog, Table.get?_insert, if_neg hne]
    exact hc
  | redeemed hcatalog => rw [hcatalog]; exact hc
  | awarded hcatalog => rw [hcatalog]; exact hc

/-- A coupon that is held stays, but for its redemption. -/
theorem Effect.held (h : Effect s e s') (hb : s.stores.coupons.Sound) {id : CouponId} {k : Coupon}
    (hk : s.stores.coupons.coupons.get? id = some k) :
    ∃ k', s'.stores.coupons.coupons.get? id = some k' ∧ k'.Alike k := by
  cases h with
  | nothing _ _ hbook => rw [hbook]; exact ⟨k, hk, .refl k⟩
  | reset _ _ hbook => rw [hbook]; exact ⟨k, hk, .refl k⟩
  | registered _ _ hbook => rw [hbook]; exact ⟨k, hk, .refl k⟩
  | redeemed _ _ hbook _ _ hheld => rw [hbook]; exact hb.get?_spend_of hheld hk _
  | @awarded r stock new _ _ hbook _ _ _ _ _ _ hnew =>
    have hne : new ≠ id := by
      rintro rfl
      rw [hnew] at hk
      cases hk
    rw [hbook]
    refine ⟨k, ?_, .refl k⟩
    rw [award, CouponBook.get?_enter, if_neg hne]
    exact hk

/-- A coupon was held before, but for its redemption, or is that of the request just taken. -/
theorem Effect.held_of (h : Effect s e s') (hb : s.stores.coupons.Sound) {id : CouponId} {k : Coupon}
    (hk : s'.stores.coupons.coupons.get? id = some k) :
    (∃ k', s.stores.coupons.coupons.get? id = some k' ∧ k.Alike k') ∨
    ∃ r, s.takes e = some r ∧ k.request = r.id := by
  cases h with
  | nothing _ _ hbook => rw [hbook] at hk; exact .inl ⟨k, hk, .refl k⟩
  | reset _ _ hbook => rw [hbook] at hk; exact .inl ⟨k, hk, .refl k⟩
  | registered _ _ hbook => rw [hbook] at hk; exact .inl ⟨k, hk, .refl k⟩
  | redeemed _ _ hbook _ _ hheld =>
    rw [hbook] at hk
    exact .inl (hb.get?_of_spend hheld hk)
  | @awarded r stock new _ _ hbook _ _ htakes =>
    rw [hbook, award, CouponBook.get?_enter] at hk
    split at hk
    · cases hk
      exact .inr ⟨r, htakes, rfl⟩
    · exact .inl ⟨k, hk, .refl k⟩

/-- The stock of a campaign that is not reset stays as it is unless a request of the campaign wins,
and that needs a unit. -/
theorem Effect.stock_cases (h : Effect s e s') (hs : s.stores.Stocked) {c : CampaignId} {stock : Stock}
    (hreset : s.reset? e ≠ some c) (hstock : s.stores.ledger.snapshot c = some stock) :
    s'.stores.ledger.snapshot c = some stock ∨
      stock.remaining ≠ 0 ∧ ∃ r, s.takes e = some r ∧ r.campaign = c := by
  cases h with
  | nothing _ hledger => rw [hledger]; exact .inl hstock
  | @reset c' _ _ hledger _ hfilled =>
    have hne : c' ≠ c := by
      rintro rfl
      exact hreset hfilled
    rw [hledger, Ledger.snapshot_reset, if_neg hne]
    exact .inl hstock
  | @registered campaign _ hledger _ _ _ hnew =>
    have hne : campaign.id ≠ c := by
      rintro rfl
      obtain ⟨other, hlisted⟩ := hs.known hstock
      rw [hnew] at hlisted
      cases hlisted
    rw [hledger, Ledger.snapshot_reset, if_neg hne]
    exact .inl hstock
  | redeemed _ hledger => rw [hledger]; exact .inl hstock
  | @awarded r stock' _ _ hledger _ _ _ htakes _ htaken h0 =>
    rw [hledger, award, Ledger.snapshot_tryReserve htaken h0]
    by_cases hc : r.campaign = c
    · have hsame : stock' = stock := by
        rw [hc, hstock] at htaken
        exact (Option.some.inj htaken).symm
      exact .inr ⟨hsame ▸ h0, r, htakes, hc⟩
    · rw [if_neg hc]
      exact .inl hstock

theorem Effect.stock_kept (h : Effect s e s') (hs : s.stores.Stocked) {c : CampaignId} {stock : Stock}
    (hreset : s.reset? e ≠ some c) (huntaken : ∀ r, s.takes e = some r → r.campaign ≠ c)
    (hstock : s.stores.ledger.snapshot c = some stock) :
    s'.stores.ledger.snapshot c = some stock := by
  rcases h.stock_cases hs hreset hstock with hkept | ⟨-, r, htakes, hc⟩
  · exact hkept
  · exact absurd hc (huntaken r htakes)

end Effect
end Service

namespace Run

variable {run : Run} {m n : Nat} {e : Event}

theorem effect (he : run.events[n]? = some e) :
    (run.after n).Effect e (run.after (n + 1)) :=
  (run.sound n).effect (run.move he) fun _ => coupon_fresh he

theorem reset?_of_some (he : run.events[n]? = some e) : run.reset? n = (run.after n).reset? e := by
  simp [reset?, he]

theorem registered?_of_some (he : run.events[n]? = some e) :
    run.registered? n = (run.after n).registered? e := by
  simp [registered?, he]

theorem reset?_of_none (he : run.events[n]? = none) : run.reset? n = none := by
  simp [reset?, he]

theorem registered?_of_none (he : run.events[n]? = none) : run.registered? n = none := by
  simp [registered?, he]

theorem listed_of_le (hmn : m ≤ n) {c : CampaignId} {campaign : Campaign}
    (h : (run.after m).stores.catalog.campaigns.get? c = some campaign) :
    (run.after n).stores.catalog.campaigns.get? c = some campaign := by
  exact along (P := fun s => s.stores.catalog.campaigns.get? c = some campaign) hmn h
    fun _ _ he hlisted => (effect he).listed hlisted

theorem held_of_le (hmn : m ≤ n) {id : CouponId} {k : Coupon}
    (h : (run.after m).stores.coupons.coupons.get? id = some k) :
    ∃ k', (run.after n).stores.coupons.coupons.get? id = some k' ∧ k'.Alike k := by
  apply along (P := fun s => ∃ k', s.stores.coupons.coupons.get? id = some k' ∧ k'.Alike k) hmn
  · exact ⟨k, h, .refl k⟩
  · rintro i e - - he ⟨k', hk', halike⟩
    obtain ⟨k'', hk'', h'⟩ := (effect he).held (run.sound i).book hk'
    exact ⟨k'', hk'', h'.trans halike⟩

end Run
end CouponIssuance
