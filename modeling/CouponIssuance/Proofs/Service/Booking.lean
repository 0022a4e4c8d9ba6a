import CouponIssuance.Proofs.Discount
import CouponIssuance.Proofs.Service.Effect
/-!
# What is written in the coupon book

An event writes one line at most in the coupon book: the coupon of a request that is taken while its
campaign is open and wins, or the redemption of a coupon that its owner may use. A call to redeem a
coupon that is refused changes nothing.
-/
namespace CouponIssuance

namespace Service

/-- The coupon `id` is held by `o`, was not redeemed yet, and takes `discount` off an order. -/
structure Grants (s : Service) (o : RequesterId) (id : CouponId) (order : UInt64) (k : Coupon)
    (discount : UInt64) : Prop where
  held : s.stores.coupons.coupons.get? id = some k
  owner : k.owner = o
  unspent : k.redemption = none
  running : ∃ campaign, s.stores.catalog.campaigns.get? k.campaign = some campaign ∧
    campaign.window.hasEnded s.now = false ∧ campaign.discount.amountFor order = .ok discount

/-- The service after a coupon has been spent. -/
def spend (s : Service) (k : Coupon) (orderId : Option String) : Service :=
  s.withStores { s.stores with coupons := s.stores.coupons.spend k ⟨s.now, orderId⟩ }

/-- How a call to redeem a coupon goes: it is refused, or the coupon is spent. -/
inductive Redeemed (s : Service) (o : RequesterId) (id : CouponId) (order : UInt64)
    (orderId : Option String) : Service × Except Refusal Quote → Prop
  | refused {why} : Redeemed s o id order orderId (s, .error why)
  | granted {k discount} (hgrants : s.Grants o id order k discount) :
      Redeemed s o id order orderId (s.spend k orderId, .ok ⟨id, discount, order - discount⟩)

/-- What an event does to the coupon book. -/
inductive Booking (s : Service) (e : Event) (s' : Service) : Prop
  | kept (hbook : s'.stores.coupons = s.stores.coupons)
  | entered {r id campaign} (htakes : s.takes e = some r)
      (hactive : s.stores.activeCampaign r.campaign s.now = .ok campaign)
      (hnew : s.stores.coupons.coupons.get? id = none)
      (hbook : s'.stores.coupons =
        s.stores.coupons.enter ⟨id, r.campaign, r.requester, r.id, s.now, none⟩)
  | spent {o id order orderId k discount} (hevent : e = .redeem o id order orderId)
      (hgrants : s.Grants o id order k discount)
      (hbook : s'.stores.coupons = s.stores.coupons.spend k ⟨s.now, orderId⟩)

variable {s s' : Service} {e : Event} {requests : List RequestId} {coupons : List CouponId}
  {o : RequesterId} {id : CouponId} {order : UInt64} {orderId : Option String} {k : Coupon}

theorem redeem_of_grants (h : s.stores.coupons.Sound) {discount : UInt64}
    (hgrants : s.Grants o id order k discount) (orderId : Option String) :
    s.redeem o id order orderId = (s.spend k orderId, .ok ⟨id, discount, order - discount⟩) := by
  obtain ⟨hk, howner, hunspent, campaign, hlisted, hrunning, hamount⟩ := hgrants
  have hdiscount := Coupon.discountFor_eq_ok_iff.2 ⟨howner, hunspent, hrunning, hamount⟩
  simp only [redeem, campaignOf, CouponBook.get, CouponBook.redeem, Catalog.get, hk, hlisted,
    hdiscount, bind, Except.bind, pure, Except.pure, spend, withStores, CouponBook.spend, h.named hk]

private theorem redeem_spec (h : s.stores.coupons.Sound) (o : RequesterId) (id : CouponId) (order : UInt64)
    (orderId : Option String) : Redeemed s o id order orderId (s.redeem o id order orderId) := by
  cases hk : s.stores.coupons.coupons.get? id with
  | none =>
    simp only [redeem, campaignOf, CouponBook.get, hk, bind, Except.bind]
    exact .refused
  | some k =>
    cases hlisted : s.stores.catalog.campaigns.get? k.campaign with
    | none =>
      simp only [redeem, campaignOf, CouponBook.get, Catalog.get, hk, hlisted, bind, Except.bind]
      exact .refused
    | some campaign =>
      cases hdiscount : k.discountFor o order campaign s.now with
      | error why =>
        simp only [redeem, campaignOf, CouponBook.get, CouponBook.redeem, Catalog.get, hk, hlisted,
          hdiscount, bind, Except.bind]
        exact .refused
      | ok discount =>
        obtain ⟨howner, hunspent, hrunning⟩ := Coupon.discountFor_eq_ok_iff.1 hdiscount
        have hgrants : s.Grants o id order k discount :=
          ⟨hk, howner, hunspent, campaign, hlisted, hrunning⟩
        rw [redeem_of_grants h hgrants]
        exact .granted hgrants

theorem redeem_of_error (h : s.stores.coupons.Sound) {why : Refusal}
    (hrefused : (s.redeem o id order orderId).2 = .error why) :
    (s.redeem o id order orderId).1 = s := by
  have hspec := redeem_spec h o id order orderId
  generalize s.redeem o id order orderId = answer at hspec hrefused
  cases hspec with
  | refused => rfl
  | granted => cases hrefused

theorem grants_of_ok (h : s.stores.coupons.Sound) {quote : Quote}
    (hok : (s.redeem o id order orderId).2 = .ok quote) :
    ∃ k discount, s.Grants o id order k discount ∧
      s.redeem o id order orderId = (s.spend k orderId, .ok ⟨id, discount, order - discount⟩) := by
  have hspec := redeem_spec h o id order orderId
  generalize s.redeem o id order orderId = answer at hspec hok
  cases hspec with
  | refused => cases hok
  | granted hgrants => exact ⟨_, _, hgrants, rfl⟩

theorem redeem_of_not_grants (h : s.stores.coupons.Sound)
    (hgrants : ∀ k discount, ¬ s.Grants o id order k discount) (orderId : Option String) :
    ∃ why, s.redeem o id order orderId = (s, .error why) := by
  have hspec := redeem_spec h o id order orderId
  generalize s.redeem o id order orderId = answer at hspec
  cases hspec with
  | refused => exact ⟨_, rfl⟩
  | granted hgranted => exact absurd hgranted (hgrants _ _)

private theorem booking_redeem (h : s.stores.coupons.Sound) (o : RequesterId) (id : CouponId)
    (order : UInt64) (orderId : Option String) :
    Booking s (.redeem o id order orderId) (s.redeem o id order orderId).1 := by
  have hspec := redeem_spec h o id order orderId
  generalize s.redeem o id order orderId = answer at hspec
  cases hspec with
  | refused => exact .kept rfl
  | granted hgrants => exact .spent rfl hgrants rfl

/-- Every event of a sound service writes one line in the book at most. -/
theorem Sound.booking (h : s.Sound requests coupons) (e : Event)
    (hrequest : ∀ id, e.request? = some id → id ∉ requests)
    (hcoupon : ∀ id, e.coupon? = some id → id ∉ coupons) : Booking s e (s.step e) := by
  have hmove := h.move_step e hrequest
  generalize hnext : s.step e = s' at hmove
  cases hmove with
  | @redeemed o id order orderId =>
    -- the move alone does not say that the owner was let redeem the coupon
    rw [← hnext]
    exact booking_redeem h.book o id order orderId
  | served hattended hhead houtcome =>
    have htakes := takes_of_head hattended hhead
    cases houtcome with
    | abandoned => exact .kept rfl
    | attempted _ hattempt =>
      cases hattempt with
      | closed => exact .kept rfl
      | exhausted => exact .kept rfl
      | unrecorded => exact .kept rfl
      | issued hactive _ _ hminted =>
        subst hminted
        exact .entered (htakes _) hactive (h.coupon_new (hcoupon _ rfl)) rfl
  | _ => exact .kept rfl

theorem Booking.held (hbooking : Booking s e s') (hb : s.stores.coupons.Sound)
    (hk : s.stores.coupons.coupons.get? id = some k) :
    s'.stores.coupons.coupons.get? id = some k ∨
      ∃ o order orderId discount, e = .redeem o id order orderId ∧ s.Grants o id order k discount := by
  cases hbooking with
  | kept hbook => rw [hbook]; exact .inl hk
  | @entered r new _ _ _ hnew hbook =>
    have hne : new ≠ id := by
      rintro rfl
      rw [hnew] at hk
      cases hk
    rw [hbook, CouponBook.get?_enter, if_neg hne]
    exact .inl hk
  | @spent o id' order orderId k' discount hevent hgrants hbook =>
    by_cases hid : id' = id
    · subst hid
      have hsame : k' = k := Option.some.inj (hgrants.held.symm.trans hk)
      subst hsame
      exact .inr ⟨o, order, orderId, discount, hevent, hgrants⟩
    · have hname := hb.named hgrants.held
      rw [hbook, CouponBook.get?_spend, if_neg (hname ▸ hid)]
      exact .inl hk

/-- A coupon was held before, has just come in, or has just been redeemed. -/
theorem Booking.held_of (hbooking : Booking s e s') (hb : s.stores.coupons.Sound)
    (hk : s'.stores.coupons.coupons.get? id = some k) :
    s.stores.coupons.coupons.get? id = some k ∨
    (∃ r campaign, s.takes e = some r ∧
      s.stores.activeCampaign r.campaign s.now = .ok campaign ∧
      s.stores.coupons.coupons.get? id = none ∧
      k = ⟨id, r.campaign, r.requester, r.id, s.now, none⟩) ∨
    ∃ o order orderId k' discount, e = .redeem o id order orderId ∧
      s.Grants o id order k' discount ∧ k = { k' with redemption := some ⟨s.now, orderId⟩ } := by
  cases hbooking with
  | kept hbook => rw [hbook] at hk; exact .inl hk
  | @entered r new campaign htakes hactive hnew hbook =>
    rw [hbook, CouponBook.get?_enter] at hk
    split at hk
    · next hid =>
      cases hk
      subst hid
      exact .inr (.inl ⟨r, campaign, htakes, hactive, hnew, rfl⟩)
    · exact .inl hk
  | @spent o id' order orderId k' discount hevent hgrants hbook =>
    have hname := hb.named hgrants.held
    rw [hbook, CouponBook.get?_spend] at hk
    split at hk
    · next hid =>
      cases hk
      have hid : id' = id := hname.symm.trans hid
      subst hid
      exact .inr (.inr ⟨o, order, orderId, k', discount, hevent, hgrants, rfl⟩)
    · exact .inl hk

end Service

namespace Run

variable {run : Run} {n : Nat} {e : Event}

theorem booking (he : run.events[n]? = some e) : (run.after n).Booking e (run.after (n + 1)) := by
  rw [after_succ he]
  exact (run.sound n).booking e (fun _ => request_fresh he) fun _ => coupon_fresh he

end Run
end CouponIssuance
