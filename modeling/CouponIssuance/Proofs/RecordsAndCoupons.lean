import CouponIssuance.Proofs.Service.Serving
/-!
# Records and coupons agree

A coupon is entered and its record ends in one turn, and the request that wins has no coupon before.
So a record that is issued names the coupon of its request, and no two coupons are of one request.
Coupons are of listed campaigns, so whoever uses a coupon is never told that its campaign is
unknown.
-/
namespace CouponIssuance

/-- Why a coupon cannot be used. -/
inductive Refusal.Unusable : Refusal → Prop
  | unknown (id : CouponId) : Unusable (.couponNotFound id)
  | notOwned (id : CouponId) : Unusable (.couponNotOwned id)
  | redeemed (id : CouponId) : Unusable (.couponAlreadyRedeemed id)
  | ended (c : CampaignId) : Unusable (.campaignInactive c "coupon expired")
  | tooSmall (amount minimum : UInt64) : Unusable (.orderBelowMinimum amount minimum)

private theorem Refusal.Unusable.code_ne {why : Refusal} (h : why.Unusable) :
    why.code ≠ "CAMPAIGN_NOT_FOUND" := by
  cases h <;> simp [code]

/-- The messages differ in how they begin, but for one: that of a campaign that has ended differs in
how it ends. -/
private theorem Refusal.Unusable.message_ne {why : Refusal} (h : why.Unusable) (c : CampaignId) :
    why.message ≠ (Refusal.campaignNotFound c).message := by
  intro heq
  have htext := congrArg String.toList heq
  change _ = ("Campaign " ++ toString c ++ " not found").toList at htext
  cases h with
  | unknown id =>
    change ("Coupon " ++ id.text ++ " not found").toList = _ at htext
    simp [String.toList_append] at htext
  | notOwned id =>
    change ("Coupon " ++ id.text ++ " is not owned by the requester").toList = _ at htext
    simp [String.toList_append] at htext
  | redeemed id =>
    change ("Coupon " ++ id.text ++ " was already redeemed").toList = _ at htext
    simp [String.toList_append] at htext
  | tooSmall amount minimum =>
    change ("Order amount " ++ toString amount ++ " is below the minimum of " ++
      toString minimum).toList = _ at htext
    simp [String.toList_append] at htext
  | ended c' =>
    have hback := congrArg List.reverse htext
    change ("Campaign " ++ toString c' ++ " is not active: " ++ "coupon expired").toList.reverse = _
      at hback
    simp [String.toList_append] at hback

private theorem Discount.unusable_of_amountFor {d : Discount} {order : UInt64} {why : Refusal}
    (h : d.amountFor order = .error why) : why.Unusable := by
  unfold amountFor at h
  split at h
  · cases h
    exact .tooSmall ..
  · cases h

private theorem Coupon.unusable_of_discountFor {k : Coupon} {o : RequesterId} {order : UInt64}
    {campaign : Campaign} {now : Millis} {why : Refusal}
    (h : k.discountFor o order campaign now = .error why) : why.Unusable := by
  unfold discountFor at h
  split at h
  · cases h
    exact .notOwned ..
  · split at h
    · cases h
      exact .redeemed ..
    · split at h
      · cases h
        exact .ended ..
      · exact Discount.unusable_of_amountFor h

namespace CouponBook

variable {b : CouponBook} {o : RequesterId} {i : CouponId} {order : UInt64} {campaign : Campaign}
  {now : Millis} {why : Refusal}

private theorem unusable_of_preview (h : b.preview o i order campaign now = .error why) : why.Unusable := by
  cases hk : b.coupons.get? i with
  | none =>
    simp only [preview, get, hk, bind, Except.bind, Except.error.injEq] at h
    exact h ▸ .unknown i
  | some k =>
    cases hd : k.discountFor o order campaign now with
    | error why' =>
      simp only [preview, get, hk, hd, bind, Except.bind, Except.error.injEq] at h
      exact h ▸ Coupon.unusable_of_discountFor hd
    | ok discount => simp [preview, get, hk, hd, bind, Except.bind, pure, Except.pure] at h

end CouponBook

namespace Service

variable {s s' : Service} {e : Event} {requests : List RequestId} {coupons : List CouponId}
  {o : RequesterId} {i : CouponId} {order : UInt64} {why : Refusal}

private theorem campaignOf_cases (h : s.stores.Stocked) (i : CouponId) :
    s.campaignOf i = .error (.couponNotFound i) ∨ ∃ campaign, s.campaignOf i = .ok campaign := by
  cases hk : s.stores.coupons.coupons.get? i with
  | none =>
    left
    simp only [campaignOf, CouponBook.get, hk, bind, Except.bind]
  | some k =>
    obtain ⟨campaign, hlisted⟩ := h.offered hk
    right
    refine ⟨campaign, ?_⟩
    simp only [campaignOf, CouponBook.get, Catalog.get, hk, hlisted, bind, Except.bind]

private theorem unusable_of_preview (h : s.stores.Stocked) (hpreview : s.preview o i order = .error why) :
    why.Unusable := by
  rcases campaignOf_cases h i with hunknown | ⟨campaign, hcampaign⟩
  · simp only [preview, hunknown, bind, Except.bind, Except.error.injEq] at hpreview
    exact hpreview ▸ .unknown i
  · simp only [preview, hcampaign, bind, Except.bind] at hpreview
    exact CouponBook.unusable_of_preview hpreview

theorem redeem_answer (s : Service) (o : RequesterId) (i : CouponId) (order : UInt64)
    (orderId : Option String) : (s.redeem o i order orderId).2 = s.preview o i order := by
  cases hcampaign : s.campaignOf i with
  | error why => simp only [redeem, preview, hcampaign, bind, Except.bind]
  | ok campaign =>
    cases hget : s.stores.coupons.get i with
    | error why =>
      simp only [redeem, preview, CouponBook.redeem, CouponBook.preview, hcampaign, hget, bind,
        Except.bind]
    | ok k =>
      cases hdiscount : k.discountFor o order campaign s.now <;>
        simp only [redeem, preview, CouponBook.redeem, CouponBook.preview, hcampaign, hget, hdiscount,
          bind, Except.bind, pure, Except.pure]

private theorem unusable_of_redeem (h : s.stores.Stocked) {orderId : Option String}
    (hredeem : (s.redeem o i order orderId).2 = .error why) : why.Unusable := by
  rw [redeem_answer] at hredeem
  exact unusable_of_preview h hredeem

/-- No two coupons of the book are of one request. -/
def Unshared (s : Service) : Prop :=
  ∀ {i j k l}, s.stores.coupons.coupons.get? i = some k → s.stores.coupons.coupons.get? j = some l →
    k.request = l.request → i = j

private theorem Sound.unshared (h : s.Sound requests coupons) (hmove : Move s e s')
    (heffect : Effect s e s') (hu : s.Unshared) : s'.Unshared := by
  intro i j k l hk hl hrequest
  cases heffect with
  | nothing _ _ hbook => rw [hbook] at hk hl; exact hu hk hl hrequest
  | reset _ _ hbook => rw [hbook] at hk hl; exact hu hk hl hrequest
  | registered _ _ hbook => rw [hbook] at hk hl; exact hu hk hl hrequest
  | redeemed _ _ hbook _ _ hheld =>
    rw [hbook] at hk hl
    obtain ⟨k', hk', hsame⟩ := h.book.get?_of_spend hheld hk
    obtain ⟨l', hl', hsame'⟩ := h.book.get?_of_spend hheld hl
    exact hu hk' hl' (hsame.request.symm.trans (hrequest.trans hsame'.request))
  | awarded _ _ hbook _ _ htakes =>
    -- the request that wins waited, so no coupon was of it
    obtain ⟨p, hwaits⟩ := hmove.waits_of_takes htakes
    rw [hbook, award, CouponBook.get?_enter] at hk hl
    split at hk
    · next hi =>
      split at hl
      · next hj => exact hi.symm.trans hj
      · cases hk
        exact absurd hrequest.symm (h.tracked.not_settled hwaits hl)
    · split at hl
      · cases hl
        exact absurd hrequest (h.tracked.not_settled hwaits hk)
      · exact hu hk hl hrequest

end Service

namespace Run

variable (run : Run)

private theorem unshared (n : Nat) : (run.after n).Unshared := by
  apply always (P := Service.Unshared)
  · intro i j k l hk
    cases run.new.sound.named.coupon hk
  · exact fun he hunshared => (run.sound _).unshared (run.move he) (effect he) hunshared

/-- In every state of a run, a record that is issued names the coupon of its request, with the same
holder and campaign, and a record of a request that has a coupon is issued and names it. Every
coupon is of a listed campaign, no two are of one request, and there is none of a request that is
sold out or failed. So who redeems a coupon, or asks whether it could be redeemed, is never told
that its campaign is unknown. -/
theorem records_match_coupons (n : Nat) :
    (∀ id held, (run.after n).stores.status.held? id = some held → held.record.state = .issued →
      ∃ i k, (run.after n).stores.coupons.coupons.get? i = some k ∧ held.record.coupon = some i ∧
        k.owner = held.record.requester ∧ k.campaign = held.record.campaign ∧ k.request = id) ∧
    (∀ i k held, (run.after n).stores.coupons.coupons.get? i = some k →
      (run.after n).stores.status.held? k.request = some held →
      held.record.state = .issued ∧ held.record.coupon = some i) ∧
    (∀ i k, (run.after n).stores.coupons.coupons.get? i = some k →
      ∃ campaign, (run.after n).campaign k.campaign = .ok campaign) ∧
    (∀ i j k l, (run.after n).stores.coupons.coupons.get? i = some k →
      (run.after n).stores.coupons.coupons.get? j = some l → k.request = l.request → i = j) ∧
    (∀ id held, (run.after n).stores.status.held? id = some held →
      held.record.state = .soldOut ∨ held.record.state = .failed →
      ∀ i k, (run.after n).stores.coupons.coupons.get? i = some k → k.request ≠ id) ∧
    (∀ o i order orderId why, ((run.after n).redeem o i order orderId).2 = .error why →
      why.code ≠ "CAMPAIGN_NOT_FOUND") ∧
    (∀ o i order why, (run.after n).preview o i order = .error why →
      why.code ≠ "CAMPAIGN_NOT_FOUND") ∧
    ∀ o i order c, ((run.after n).validate o i order).reason ≠
      some (Refusal.campaignNotFound c).message := by
  have h := run.sound n
  have hnamed : ∀ i k held, (run.after n).stores.coupons.coupons.get? i = some k →
      (run.after n).stores.status.held? k.request = some held →
      held.record.state = .issued ∧ held.record.coupon = some i := by
    intro i k held hk hheld
    have hsettled := h.tracked.settled hk hheld
    rwa [h.book.named hk] at hsettled
  refine ⟨?_, hnamed, ?_, fun i j k l => run.unshared n, ?_, ?_, ?_, ?_⟩
  · intro id held hheld hissued
    obtain ⟨hid, k, hk⟩ := h.won_of_issued hheld hissued
    exact ⟨k.id, k, hk.held, hk.told, hk.owner, hk.campaign, hk.request.trans hid⟩
  · intro i k hk
    obtain ⟨campaign, hlisted⟩ := h.stocked.offered hk
    exact ⟨campaign, Service.campaign_eq_ok_iff.2 hlisted⟩
  · rintro id held hheld hlost i k hk rfl
    obtain ⟨hissued, -⟩ := hnamed i k held hk hheld
    rw [hissued] at hlost
    rcases hlost with hstate | hstate <;> cases hstate
  · intro o i order orderId why hredeem
    exact (Service.unusable_of_redeem h.stocked hredeem).code_ne
  · intro o i order why hpreview
    exact (Service.unusable_of_preview h.stocked hpreview).code_ne
  · intro o i order c hreason
    cases hpreview : (run.after n).preview o i order with
    | ok quote =>
      simp only [Service.validate, hpreview, Verdict.usable] at hreason
      cases hreason
    | error why =>
      simp only [Service.validate, hpreview, Verdict.unusable, Option.some.injEq] at hreason
      exact (Service.unusable_of_preview h.stocked hpreview).message_ne c hreason

/-- One requester wins and another finds the campaign sold out. -/
def oneWinner : Run :=
  small [.issue ⟨1⟩ ⟨1⟩ (.ok ⟨"a"⟩), .issue ⟨2⟩ ⟨1⟩ (.ok ⟨"b"⟩), .turn 0 (.ok ⟨"x"⟩),
    .turn 0 (.ok ⟨"y"⟩)] (by decide) (by decide)

theorem records_match_coupons_oneWinner :
    (∃ i k, (oneWinner.after 4).stores.coupons.coupons.get? i = some k ∧ k.request = ⟨"a"⟩) ∧
    (∀ i k, (oneWinner.after 4).stores.coupons.coupons.get? i = some k → k.request ≠ ⟨"b"⟩) ∧
    (oneWinner.after 4).status ⟨"a"⟩ = .ok ⟨⟨"a"⟩, ⟨1⟩, ⟨1⟩, .issued, some ⟨"x"⟩, none, 0, some 0⟩ ∧
    ∃ why, ((oneWinner.after 4).redeem ⟨2⟩ ⟨"x"⟩ 5000 none).2 = .error why ∧
      why.code ≠ "CAMPAIGN_NOT_FOUND" := by
  have hwon : (oneWinner.after 4).stores.status.held? ⟨"a"⟩ =
      some ⟨⟨⟨"a"⟩, ⟨1⟩, ⟨1⟩, .issued, some ⟨"x"⟩, none, 0, some 0⟩, some 0⟩ := by rfl
  have hlost : (oneWinner.after 4).stores.status.held? ⟨"b"⟩ =
      some ⟨⟨⟨"b"⟩, ⟨1⟩, ⟨2⟩, .soldOut, none, some "stock exhausted", 0, some 0⟩, some 0⟩ := by rfl
  have hrefused : ((oneWinner.after 4).redeem ⟨2⟩ ⟨"x"⟩ 5000 none).2 =
      .error (.couponNotOwned ⟨"x"⟩) := by rfl
  obtain ⟨hissued, -, -, -, hunwon, hredeem, -⟩ := oneWinner.records_match_coupons 4
  obtain ⟨i, k, hk, -, -, -, hrequest⟩ := hissued ⟨"a"⟩ _ hwon rfl
  exact ⟨⟨i, k, hk, hrequest⟩, hunwon ⟨"b"⟩ _ hlost (.inl rfl), by rfl,
    _, hrefused, hredeem ⟨2⟩ ⟨"x"⟩ 5000 none _ hrefused⟩

end Run
end CouponIssuance
