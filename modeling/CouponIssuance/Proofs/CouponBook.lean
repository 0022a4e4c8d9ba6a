import CouponIssuance.CouponBook
import CouponIssuance.Proofs.Table.Writing
/-!
# What the coupon book holds

A sound book holds each coupon under its own name, and its index finds the one coupon a requester
holds of a campaign. Entering a coupon under a new name for a requester who holds none, and
spending a coupon, keep the book sound.
-/
namespace CouponIssuance

/-- The same coupon, perhaps spent since. -/
structure Coupon.Alike (k l : Coupon) : Prop where
  id : k.id = l.id
  campaign : k.campaign = l.campaign
  owner : k.owner = l.owner
  request : k.request = l.request
  issuedAt : k.issuedAt = l.issuedAt

theorem Coupon.Alike.refl (k : Coupon) : k.Alike k := ⟨rfl, rfl, rfl, rfl, rfl⟩

theorem Coupon.Alike.symm {k l : Coupon} (h : k.Alike l) : l.Alike k :=
  ⟨h.id.symm, h.campaign.symm, h.owner.symm, h.request.symm, h.issuedAt.symm⟩

theorem Coupon.Alike.trans {k l m : Coupon} (h : k.Alike l) (h' : l.Alike m) : k.Alike m :=
  ⟨h.id.trans h'.id, h.campaign.trans h'.campaign, h.owner.trans h'.owner,
    h.request.trans h'.request, h.issuedAt.trans h'.issuedAt⟩

namespace CouponBook

/-- Each coupon stands under its name, and the index is the one of owners and campaigns. -/
structure Sound (b : CouponBook) : Prop where
  named : ∀ {id k}, b.coupons.get? id = some k → k.id = id
  indexed : ∀ {o c id}, b.owners.get? (o, c) = some id ↔
    ∃ k, b.coupons.get? id = some k ∧ k.owner = o ∧ k.campaign = c

def enter (b : CouponBook) (k : Coupon) : CouponBook where
  coupons := b.coupons.insert k.id k
  owners := b.owners.insert (k.owner, k.campaign) k.id
  counts := b.counts.insert k.campaign (b.counts.getD k.campaign 0 + 1)

def spend (b : CouponBook) (k : Coupon) (r : Redemption) : CouponBook :=
  { b with coupons := b.coupons.insert k.id { k with redemption := some r } }

theorem sound_empty : empty.Sound where
  named h := by cases h
  indexed := by
    intro o c id
    constructor
    · intro h; cases h
    · rintro ⟨k, hk, -⟩; cases hk

variable {b : CouponBook}

theorem Sound.owned_eq_some_iff (h : b.Sound) {o : RequesterId} {c : CampaignId} {k : Coupon} :
    b.owned o c = some k ↔ b.coupons.get? k.id = some k ∧ k.owner = o ∧ k.campaign = c := by
  constructor
  · intro hk
    obtain ⟨id, hid, hget⟩ := Option.bind_eq_some_iff.1 hk
    obtain ⟨k', hk', ho, hc⟩ := h.indexed.1 hid
    have heq : k' = k := Option.some.inj (hk'.symm.trans hget)
    subst heq
    exact ⟨(h.named hk').symm ▸ hk', ho, hc⟩
  · rintro ⟨hk, ho, hc⟩
    exact Option.bind_eq_some_iff.2 ⟨k.id, h.indexed.2 ⟨k, hk, ho, hc⟩, hk⟩

theorem Sound.owned_eq_none_iff (h : b.Sound) {o : RequesterId} {c : CampaignId} :
    b.owned o c = none ↔ ∀ id k, b.coupons.get? id = some k → k.owner = o → k.campaign ≠ c := by
  constructor
  · intro hn id k hk ho hc
    have := h.owned_eq_some_iff.2 ⟨(h.named hk).symm ▸ hk, ho, hc⟩
    rw [hn] at this
    cases this
  · intro hnone
    cases ho : b.owned o c with
    | none => rfl
    | some k =>
      obtain ⟨hk, hko, hkc⟩ := h.owned_eq_some_iff.1 ho
      exact absurd hkc (hnone k.id k hk hko)

theorem Sound.unique (h : b.Sound) {i j : CouponId} {k l : Coupon}
    (hk : b.coupons.get? i = some k) (hl : b.coupons.get? j = some l)
    (ho : k.owner = l.owner) (hc : k.campaign = l.campaign) : k = l := by
  have hk' := h.owned_eq_some_iff.2 ⟨(h.named hk).symm ▸ hk, ho, hc⟩
  have hl' := h.owned_eq_some_iff.2 ⟨(h.named hl).symm ▸ hl, rfl, rfl⟩
  exact Option.some.inj (hk'.symm.trans hl')

theorem Sound.contains_owners_iff (h : b.Sound) {o : RequesterId} {c : CampaignId} :
    b.owners.contains (o, c) = (b.owned o c).isSome := by
  cases hid : b.owners.get? (o, c) with
  | none => simp [Table.contains, owned, hid]
  | some id =>
    obtain ⟨k, hk, -, -⟩ := h.indexed.1 hid
    simp [Table.contains, owned, hid, hk]

theorem issue_eq_ok {id : CouponId} {c : CampaignId} {o : RequesterId} {request : RequestId}
    {now : Millis} {entered : CouponBook × Coupon} (h : b.issue id c o request now = .ok entered) :
    entered = (b.enter ⟨id, c, o, request, now, none⟩, ⟨id, c, o, request, now, none⟩) := by
  unfold issue at h
  split at h
  · cases h
  · cases h
    rfl

theorem Sound.issue_of_unowned (h : b.Sound) {o : RequesterId} {c : CampaignId}
    (hn : b.owned o c = none) (id : CouponId) (request : RequestId) (now : Millis) :
    b.issue id c o request now =
      .ok (b.enter ⟨id, c, o, request, now, none⟩, ⟨id, c, o, request, now, none⟩) := by
  simp [issue, h.contains_owners_iff, hn, enter]

@[simp] theorem get?_enter (b : CouponBook) (k : Coupon) (id : CouponId) :
    (b.enter k).coupons.get? id = if k.id = id then some k else b.coupons.get? id :=
  Table.get?_insert ..

theorem countFor_enter (b : CouponBook) (k : Coupon) (c : CampaignId) :
    (b.enter k).countFor c = b.countFor c + if k.campaign = c then 1 else 0 := by
  simp only [countFor, enter, Table.getD, Table.get?_insert]
  split
  · next hc =>
    rw [hc]
    rfl
  · rfl

theorem get?_owners_enter (b : CouponBook) (k : Coupon) (key : RequesterId × CampaignId) :
    (b.enter k).owners.get? key =
      if (k.owner, k.campaign) = key then some k.id else b.owners.get? key :=
  Table.get?_insert ..

theorem Sound.enter (h : b.Sound) {k : Coupon} (hnew : b.coupons.get? k.id = none)
    (hfree : b.owned k.owner k.campaign = none) : (b.enter k).Sound where
  named := by
    intro id l hl
    rw [get?_enter] at hl
    split at hl
    · next hid => cases hl; exact hid
    · exact h.named hl
  indexed := by
    intro o c id
    have hother := h.owned_eq_none_iff.1 hfree
    have hown : (b.enter k).owners.get? (o, c) =
        if (k.owner, k.campaign) = (o, c) then some k.id else b.owners.get? (o, c) :=
      Table.get?_insert ..
    rw [hown]
    by_cases hkey : (k.owner, k.campaign) = (o, c)
    · obtain ⟨rfl, rfl⟩ := Prod.mk.inj hkey
      simp only [if_true, Option.some.injEq]
      constructor
      · rintro rfl; exact ⟨k, by simp, rfl, rfl⟩
      · rintro ⟨l, hl, ho, hc⟩
        rw [get?_enter] at hl
        split at hl
        · assumption
        · exact absurd hc (hother id l hl ho)
    · simp only [hkey, if_false, h.indexed, get?_enter]
      constructor
      · rintro ⟨l, hl, ho, hc⟩
        have hid : k.id ≠ id := by rintro rfl; rw [hnew] at hl; cases hl
        exact ⟨l, by simp [hid, hl], ho, hc⟩
      · rintro ⟨l, hl, ho, hc⟩
        split at hl
        · cases hl; exact absurd (Prod.ext ho hc) hkey
        · exact ⟨l, hl, ho, hc⟩

@[simp] theorem get?_spend (b : CouponBook) (k : Coupon) (r : Redemption) (id : CouponId) :
    (b.spend k r).coupons.get? id =
      if k.id = id then some { k with redemption := some r } else b.coupons.get? id :=
  Table.get?_insert ..

theorem Sound.get?_of_spend (h : b.Sound) {k l : Coupon} {r : Redemption} {i id : CouponId}
    (hk : b.coupons.get? i = some k) (hl : (b.spend k r).coupons.get? id = some l) :
    ∃ l', b.coupons.get? id = some l' ∧ l.Alike l' := by
  have hi := h.named hk
  rw [get?_spend] at hl
  split at hl
  · next hid => cases hl; exact ⟨k, by rw [← hid, hi, hk], ⟨rfl, rfl, rfl, rfl, rfl⟩⟩
  · exact ⟨l, hl, .refl l⟩

theorem Sound.get?_spend_of (h : b.Sound) {k l : Coupon} {i id : CouponId}
    (hk : b.coupons.get? i = some k) (hl : b.coupons.get? id = some l) (r : Redemption) :
    ∃ l', (b.spend k r).coupons.get? id = some l' ∧ l'.Alike l := by
  have hi := h.named hk
  by_cases hid : k.id = id
  · have hkl : k = l := Option.some.inj (hk.symm.trans (by rw [← hi, hid, hl]))
    subst hkl
    exact ⟨{ k with redemption := some r }, by simp [hid], ⟨rfl, rfl, rfl, rfl, rfl⟩⟩
  · exact ⟨l, by simp [hid, hl], .refl l⟩

theorem Sound.spend (h : b.Sound) {k : Coupon} {i : CouponId} (hk : b.coupons.get? i = some k)
    (r : Redemption) : (b.spend k r).Sound where
  named := by
    intro id l hl
    obtain ⟨l', hl', he⟩ := h.get?_of_spend hk hl
    exact he.id.trans (h.named hl')
  indexed := by
    intro o c id
    have hown : (b.spend k r).owners = b.owners := rfl
    rw [hown, h.indexed]
    constructor
    · rintro ⟨l, hl, ho, hc⟩
      obtain ⟨l', hl', he⟩ := h.get?_spend_of hk hl r
      exact ⟨l', hl', he.owner.trans ho, he.campaign.trans hc⟩
    · rintro ⟨l, hl, ho, hc⟩
      obtain ⟨l', hl', he⟩ := h.get?_of_spend hk hl
      exact ⟨l', hl', he.owner.symm.trans ho, he.campaign.symm.trans hc⟩

theorem Sound.owned_spend (h : b.Sound) {k : Coupon} {i : CouponId}
    (hk : b.coupons.get? i = some k) (r : Redemption) {o : RequesterId} {c : CampaignId}
    (hn : b.owned o c = none) : (b.spend k r).owned o c = none := by
  rw [(h.spend hk r).owned_eq_none_iff]
  intro id l hl ho hc
  obtain ⟨l', hl', he⟩ := h.get?_of_spend hk hl
  exact h.owned_eq_none_iff.1 hn id l' hl' (he.owner.symm.trans ho) (he.campaign.symm.trans hc)

theorem redeem_eq_ok {requester : RequesterId} {id : CouponId} {order : UInt64}
    {orderId : Option String} {campaign : Campaign} {now : Millis} {b' : CouponBook} {q : Quote}
    (hb : b.Sound) (h : b.redeem requester id order orderId campaign now = .ok (b', q)) :
    ∃ k, b.coupons.get? id = some k ∧ b' = b.spend k ⟨now, orderId⟩ := by
  cases hk : b.coupons.get? id with
  | none => simp [redeem, get, hk, bind, Except.bind] at h
  | some k =>
    cases hd : k.discountFor requester order campaign now with
    | error why => simp [redeem, get, hk, hd, bind, Except.bind] at h
    | ok discount =>
      simp only [redeem, get, hk, hd, bind, Except.bind, pure, Except.pure, Except.ok.injEq,
        Prod.mk.injEq] at h
      exact ⟨k, rfl, by rw [← h.1, spend, hb.named hk]⟩

end CouponBook
end CouponIssuance
