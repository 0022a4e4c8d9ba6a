import CouponIssuance.Proofs.Service.Booking
import CouponIssuance.Proofs.Service.Serving
/-!
# A coupon is spent once

A coupon comes in unredeemed. Only its owner can redeem it, and what is then written on it stays for
as long as the service runs: it is never removed, and no later call to redeem it succeeds.
-/
namespace CouponIssuance.Run

/-- In event `n` a call by `o` to redeem the coupon `id` succeeds. -/
def Redeems (run : Run) (n : Nat) (o : RequesterId) (id : CouponId) (orderId : Option String) : Prop :=
  ∃ order quote, run.events[n]? = some (.redeem o id order orderId) ∧
    ((run.after n).redeem o id order orderId).2 = .ok quote

variable {run : Run} {m n : Nat} {o o' : RequesterId} {id : CouponId} {order : UInt64}
  {orderId orderId' : Option String} {k : Coupon}

theorem Redeems.grants (h : run.Redeems n o id orderId) : ∃ k order discount,
    (run.after n).Grants o id order k discount ∧ run.after (n + 1) = (run.after n).spend k orderId := by
  obtain ⟨order, quote, hevent, hok⟩ := h
  obtain ⟨k, discount, hgrants, hredeem⟩ := Service.grants_of_ok (run.sound n).book hok
  refine ⟨k, order, discount, hgrants, ?_⟩
  rw [after_succ hevent]
  show ((run.after n).redeem o id order orderId).1 = _
  rw [hredeem]

private theorem redeems_of_grants {discount : UInt64}
    (hevent : run.events[n]? = some (.redeem o id order orderId))
    (hgrants : (run.after n).Grants o id order k discount) : run.Redeems n o id orderId := by
  refine ⟨order, ⟨id, discount, order - discount⟩, hevent, ?_⟩
  rw [Service.redeem_of_grants (run.sound n).book hgrants]

private theorem kept_or_redeemed (hk : (run.after n).stores.coupons.coupons.get? id = some k) :
    (run.after (n + 1)).stores.coupons.coupons.get? id = some k ∨
      ∃ o orderId, run.Redeems n o id orderId := by
  cases he : run.events[n]? with
  | none =>
    rw [after_succ_of_none he]
    exact .inl hk
  | some e =>
    rcases (booking he).held (run.sound n).book hk with
      hkept | ⟨o, order, orderId, discount, rfl, hgrants⟩
    · exact .inl hkept
    · exact .inr ⟨o, orderId, redeems_of_grants he hgrants⟩

private theorem spent_of_le (hmn : m ≤ n) (hk : (run.after m).stores.coupons.coupons.get? id = some k)
    (hspent : k.redemption ≠ none) : (run.after n).stores.coupons.coupons.get? id = some k := by
  induction hmn with
  | refl => exact hk
  | @step n hmn ih =>
    rcases kept_or_redeemed ih with hkept | ⟨o, orderId, hredeems⟩
    · exact hkept
    · -- the call would have found the coupon unspent
      obtain ⟨k', order, discount, hgrants, -⟩ := hredeems.grants
      have hsame : k' = k := Option.some.inj (hgrants.held.symm.trans ih)
      exact absurd (hsame ▸ hgrants.unspent) hspent

private theorem Redeems.written (h : run.Redeems m o id orderId) :
    ∃ k, (run.after m).stores.coupons.coupons.get? id = some k ∧ k.owner = o ∧
      k.redemption = none ∧ ∀ n, m < n → (run.after n).stores.coupons.coupons.get? id =
        some { k with redemption := some ⟨(run.after m).now, orderId⟩ } := by
  obtain ⟨k, order, discount, hgrants, hnext⟩ := h.grants
  have hname := (run.sound m).book.named hgrants.held
  refine ⟨k, hgrants.held, hgrants.owner, hgrants.unspent, fun n hmn => ?_⟩
  apply spent_of_le hmn
  · rw [hnext]
    show ((run.after m).stores.coupons.spend k _).coupons.get? id = _
    rw [CouponBook.get?_spend, if_pos hname]
  · intro hnone
    cases hnone

theorem Redeems.refused (h : run.Redeems m o id orderId) (hmn : m < n) (o' : RequesterId)
    (order : UInt64) (orderId' : Option String) :
    ∃ why, (run.after n).redeem o' id order orderId' = (run.after n, .error why) := by
  obtain ⟨k, -, -, -, hwritten⟩ := h.written
  apply Service.redeem_of_not_grants (run.sound n).book
  intro k' discount hgrants
  have hheld := hwritten n hmn
  rw [hgrants.held] at hheld
  have hunspent := hgrants.unspent
  rw [Option.some.inj hheld] at hunspent
  cases hunspent

private theorem Redeems.not_after (h : run.Redeems m o id orderId) (hmn : m < n) :
    ¬ run.Redeems n o' id orderId' := by
  rintro ⟨order, quote, -, hok⟩
  obtain ⟨why, hrefused⟩ := h.refused hmn o' order orderId'
  rw [hrefused] at hok
  cases hok

private theorem entered_of_held (hk : (run.after n).stores.coupons.coupons.get? id = some k) :
    ∃ m r, m < n ∧ run.taken m = some r ∧
      (run.after m).stores.coupons.coupons.get? id = none ∧
      (run.after (m + 1)).stores.coupons.coupons.get? id =
        some ⟨id, r.campaign, r.requester, r.id, (run.after m).now, none⟩ := by
  induction n generalizing k with
  | zero =>
    rw [after_zero, run.new.unissued] at hk
    cases hk
  | succ n ih =>
    have earlier {k' : Coupon} (hk' : (run.after n).stores.coupons.coupons.get? id = some k') :
        ∃ m r, m < n + 1 ∧ run.taken m = some r ∧
          (run.after m).stores.coupons.coupons.get? id = none ∧
          (run.after (m + 1)).stores.coupons.coupons.get? id =
            some ⟨id, r.campaign, r.requester, r.id, (run.after m).now, none⟩ := by
      obtain ⟨m, r, hmn, hrest⟩ := ih hk'
      exact ⟨m, r, Nat.lt_succ_of_lt hmn, hrest⟩
    cases he : run.events[n]? with
    | none =>
      rw [after_succ_of_none he] at hk
      exact earlier hk
    | some e =>
      rcases (booking he).held_of (run.sound n).book hk with
        hbefore | ⟨r, -, htakes, -, hnew, rfl⟩ | ⟨_, _, _, k', _, -, hgrants, -⟩
      · exact earlier hbefore
      · exact ⟨n, r, Nat.lt_succ_self n, (taken_of_some he).trans htakes, hnew, hk⟩
      · exact earlier hgrants.held

variable (run) in
/-- A coupon comes in unredeemed and stays in the book for good, with the same name, campaign,
owner, request and time of issue. One call at most redeems it, and that is its owner's; what it says
then never changes. A call that is refused changes nothing, and one that succeeds nothing else. -/
theorem spent_once (id : CouponId) :
    (∀ n k, (run.after n).stores.coupons.coupons.get? id = some k →
      ∃ m r, m < n ∧ run.taken m = some r ∧
        (run.after m).stores.coupons.coupons.get? id = none ∧
        (run.after (m + 1)).stores.coupons.coupons.get? id =
          some ⟨id, r.campaign, r.requester, r.id, (run.after m).now, none⟩) ∧
    (∀ m n k, m ≤ n → (run.after m).stores.coupons.coupons.get? id = some k →
      ∃ k', (run.after n).stores.coupons.coupons.get? id = some k' ∧ k'.Alike k) ∧
    (∀ m n o o' orderId orderId', run.Redeems m o id orderId → run.Redeems n o' id orderId' →
      m = n) ∧
    (∀ m o orderId, run.Redeems m o id orderId →
      ∃ k, (run.after m).stores.coupons.coupons.get? id = some k ∧ k.owner = o ∧
        k.redemption = none ∧ ∀ n, m < n →
          (run.after n).stores.coupons.coupons.get? id =
            some { k with redemption := some ⟨(run.after m).now, orderId⟩ } ∧
          ∀ o' order orderId', ∃ why,
            (run.after n).redeem o' id order orderId' = (run.after n, .error why)) ∧
    (∀ n k, (run.after n).stores.coupons.coupons.get? id = some k →
      (∀ o orderId, ¬ run.Redeems n o id orderId) →
      (run.after (n + 1)).stores.coupons.coupons.get? id = some k) ∧
    (∀ n o order orderId why, ((run.after n).redeem o id order orderId).2 = .error why →
      ((run.after n).redeem o id order orderId).1 = run.after n) ∧
    ∀ n o order orderId quote, ((run.after n).redeem o id order orderId).2 = .ok quote →
      ∃ k, (run.after n).stores.coupons.coupons.get? id = some k ∧
        ((run.after n).redeem o id order orderId).1 =
          (run.after n).withStores { (run.after n).stores with
            coupons := { (run.after n).stores.coupons with
              coupons := (run.after n).stores.coupons.coupons.insert id
                { k with redemption := some ⟨(run.after n).now, orderId⟩ } } } := by
  refine ⟨fun n k => entered_of_held, fun m n k hmn => held_of_le hmn, ?_, ?_, ?_, ?_, ?_⟩
  · intro m n o o' orderId orderId' h h'
    rcases Nat.lt_trichotomy m n with hmn | heq | hnm
    · exact absurd h' (h.not_after hmn)
    · exact heq
    · exact absurd h (h'.not_after hnm)
  · intro m o orderId h
    obtain ⟨k, hk, howner, hunspent, hwritten⟩ := h.written
    exact ⟨k, hk, howner, hunspent, fun n hmn => ⟨hwritten n hmn, h.refused hmn⟩⟩
  · intro n k hk hnone
    rcases kept_or_redeemed hk with hkept | ⟨o, orderId, hredeems⟩
    · exact hkept
    · exact absurd hredeems (hnone o orderId)
  · intro n o order orderId why hrefused
    exact Service.redeem_of_error (run.sound n).book hrefused
  · intro n o order orderId quote hok
    obtain ⟨k, discount, hgrants, hredeem⟩ := Service.grants_of_ok (run.sound n).book hok
    refine ⟨k, hgrants.held, ?_⟩
    rw [hredeem]
    show (run.after n).spend k orderId = _
    rw [Service.spend, CouponBook.spend, (run.sound n).book.named hgrants.held]

/-- A coupon is asked for by someone else, then by its owner, then by its owner again after the stock
has been filled up and the records have been swept. -/
def spentThenAskedAgain : Run :=
  small [.issue ⟨1⟩ ⟨1⟩ (.ok ⟨"a"⟩), .turn 0 (.ok ⟨"x"⟩), .redeem ⟨2⟩ ⟨"x"⟩ 5000 none, .wait 10,
    .redeem ⟨1⟩ ⟨"x"⟩ 5000 (some "first"), .initializeStock ⟨1⟩, .wait 3600001, .sweep,
    .redeem ⟨1⟩ ⟨"x"⟩ 7000 (some "second")] (by decide) (by decide)

theorem spent_once_spentThenAskedAgain :
    spentThenAskedAgain.Redeems 4 ⟨1⟩ ⟨"x"⟩ (some "first") ∧
    (spentThenAskedAgain.after 9).stores.coupons.coupons.get? ⟨"x"⟩ =
      some ⟨⟨"x"⟩, ⟨1⟩, ⟨1⟩, ⟨"a"⟩, 0, some ⟨10, some "first"⟩⟩ ∧
    (∃ why, (spentThenAskedAgain.after 8).redeem ⟨1⟩ ⟨"x"⟩ 7000 (some "second") =
      (spentThenAskedAgain.after 8, .error why)) ∧
    ((spentThenAskedAgain.after 2).redeem ⟨2⟩ ⟨"x"⟩ 5000 none).1 = spentThenAskedAgain.after 2 := by
  obtain ⟨-, -, -, hspent, -, hrefused, -⟩ := spentThenAskedAgain.spent_once ⟨"x"⟩
  have hredeems : spentThenAskedAgain.Redeems 4 ⟨1⟩ ⟨"x"⟩ (some "first") := ⟨5000, _, by rfl, by rfl⟩
  obtain ⟨k, hk, -, -, hlater⟩ := hspent 4 ⟨1⟩ _ hredeems
  have hfour : (spentThenAskedAgain.after 4).stores.coupons.coupons.get? ⟨"x"⟩ =
      some ⟨⟨"x"⟩, ⟨1⟩, ⟨1⟩, ⟨"a"⟩, 0, none⟩ := by rfl
  rw [hfour] at hk
  cases hk
  refine ⟨hredeems, (hlater 9 (by decide)).1, (hlater 8 (by decide)).2 _ _ _, ?_⟩
  exact hrefused 2 ⟨2⟩ 5000 none (.couponNotOwned ⟨"x"⟩) (by rfl)

end CouponIssuance.Run
