import CouponIssuance.Proofs.Service.Admission
import CouponIssuance.Proofs.Service.Effect
/-!
# A requester wins a campaign at most once

A pair of a requester and a campaign has one coupon at most, in all states of a run together, and
one request that was issued. Who asks again later is answered from the coupon book, so the answer
is the same for as long as the service runs.
-/
namespace CouponIssuance.Run

variable {run : Run} {i j : Nat} {id id' : CouponId} {k k' : Coupon}

private theorem alike_of_held (hk : (run.after i).stores.coupons.coupons.get? id = some k)
    (hk' : (run.after j).stores.coupons.coupons.get? id' = some k')
    (howner : k.owner = k'.owner) (hcampaign : k.campaign = k'.campaign) : k.Alike k' := by
  rcases Nat.le_total i j with hij | hji
  · obtain ⟨l, hl, halike⟩ := held_of_le hij hk
    have heq := (run.sound j).book.unique hl hk' (halike.owner.trans howner)
      (halike.campaign.trans hcampaign)
    subst heq
    exact halike.symm
  · obtain ⟨l, hl, halike⟩ := held_of_le hji hk'
    have heq := (run.sound i).book.unique hl hk (halike.owner.trans howner.symm)
      (halike.campaign.trans hcampaign.symm)
    subst heq
    exact halike

variable (run) in
/-- For every requester and campaign, and over all states of a run: all records that are issued are
of one request, and there is one coupon. Every coupon is of the request whose record tells of it.
From the moment a coupon is recorded, who asks again while the campaign is open is told of it, and
nothing changes. -/
theorem one_win (o : RequesterId) (c : CampaignId) :
    (∀ i j request request' e e',
      (run.after i).stores.status.held? request = some e →
      (run.after j).stores.status.held? request' = some e' →
      e.record.state = .issued → e'.record.state = .issued →
      e.record.key = (o, c) → e'.record.key = (o, c) → request = request') ∧
    (∀ i j id id' k k',
      (run.after i).stores.coupons.coupons.get? id = some k →
      (run.after j).stores.coupons.coupons.get? id' = some k' →
      (k.owner, k.campaign) = (o, c) → (k'.owner, k'.campaign) = (o, c) → id = id') ∧
    (∀ i request e, (run.after i).stores.status.held? request = some e →
      e.record.state = .issued → e.record.key = (o, c) →
      ∃ id k, (run.after i).stores.coupons.coupons.get? id = some k ∧
        (k.owner, k.campaign) = (o, c) ∧ k.request = request ∧ e.record.coupon = some id) ∧
    ∀ m n id k, m ≤ n → (run.after m).stores.coupons.coupons.get? id = some k →
      (k.owner, k.campaign) = (o, c) → (run.after n).Admits c → ∀ minted,
      (run.after n).issue o c minted =
        (run.after n, .ok (.resolved ⟨k.request, .issued, some id⟩)) := by
  refine ⟨?_, ?_, ?_, ?_⟩
  · intro i j request request' e e' he he' hissued hissued' hkey hkey'
    obtain ⟨hid, k, hk⟩ := (run.sound i).won_of_issued he hissued
    obtain ⟨hid', k', hk'⟩ := (run.sound j).won_of_issued he' hissued'
    obtain ⟨ho, hc⟩ := Prod.mk.inj (hkey.trans hkey'.symm)
    have halike := alike_of_held hk.held hk'.held
      (hk.owner.trans (ho.trans hk'.owner.symm)) (hk.campaign.trans (hc.trans hk'.campaign.symm))
    rw [← hid, ← hid', ← hk.request, ← hk'.request]
    exact halike.request
  · intro i j id id' k k' hk hk' hkey hkey'
    obtain ⟨ho, hc⟩ := Prod.mk.inj (hkey.trans hkey'.symm)
    have halike := alike_of_held hk hk' ho hc
    rw [← (run.sound i).book.named hk, ← (run.sound j).book.named hk']
    exact halike.id
  · intro i request e he hissued hkey
    obtain ⟨hid, k, hk⟩ := (run.sound i).won_of_issued he hissued
    refine ⟨k.id, k, hk.held, ?_, hk.request.trans hid, hk.told⟩
    rw [hk.owner, hk.campaign]
    exact hkey
  · intro m n id k hmn hk hkey hadmits minted
    obtain ⟨rfl, rfl⟩ := Prod.mk.inj hkey
    obtain ⟨l, hl, halike⟩ := held_of_le hmn hk
    have hname := (run.sound n).book.named hl
    have howned := (run.sound n).book.owned_eq_some_iff.2
      ⟨hname.symm ▸ hl, halike.owner, halike.campaign⟩
    rw [Service.issue_of_owned hadmits howned, halike.request, hname]

/-- A coupon is won and redeemed, its record expires and is swept, and the stock is reset. -/
def wonAndForgotten : Run :=
  small [.issue ⟨1⟩ ⟨1⟩ (.ok ⟨"a"⟩), .turn 0 (.ok ⟨"x"⟩), .redeem ⟨1⟩ ⟨"x"⟩ 5000 none,
    .wait 3600001, .sweep, .initializeStock ⟨1⟩] (by decide) (by decide)

theorem one_win_wonAndForgotten :
    (wonAndForgotten.after 6).status ⟨"a"⟩ = .error (.requestNotFound ⟨"a"⟩) ∧
    (wonAndForgotten.after 6).issue ⟨1⟩ ⟨1⟩ (.ok ⟨"b"⟩) =
      (wonAndForgotten.after 6, .ok (.resolved ⟨⟨"a"⟩, .issued, some ⟨"x"⟩⟩)) := by
  have hk : (wonAndForgotten.after 2).stores.coupons.coupons.get? ⟨"x"⟩ =
      some ⟨⟨"x"⟩, ⟨1⟩, ⟨1⟩, ⟨"a"⟩, 0, none⟩ := by rfl
  have hadmits : (wonAndForgotten.after 6).Admits ⟨1⟩ := ⟨by rfl, _, by rfl, by rfl⟩
  obtain ⟨-, -, -, hstable⟩ := wonAndForgotten.one_win ⟨1⟩ ⟨1⟩
  exact ⟨by rfl, hstable 2 6 ⟨"x"⟩ _ (by decide) hk rfl hadmits _⟩

end CouponIssuance.Run
