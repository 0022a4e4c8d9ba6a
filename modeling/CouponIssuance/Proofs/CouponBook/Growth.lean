import CouponIssuance.Proofs.CouponBook
/-!
# New coupons

A coupon book enters a coupon under a new name, or spends one that it holds. So what is new since an
earlier book is what stands under names that were not held then.
-/
namespace CouponIssuance.CouponBook

variable {b b' before : CouponBook} {k : Coupon} {c : CampaignId}

/-- How many coupons of a campaign there are. -/
def countOf (b : CouponBook) (c : CampaignId) : Nat := b.coupons.count fun k => k.campaign = c

/-- How many coupons of a campaign there are under names that an earlier book did not hold. -/
def countNew (b before : CouponBook) (c : CampaignId) : Nat :=
  b.coupons.count fun k => decide (k.campaign = c) && !before.coupons.contains k.id

theorem countOf_enter (hnew : b.coupons.get? k.id = none) (c : CampaignId) :
    (b.enter k).countOf c = b.countOf c + if k.campaign = c then 1 else 0 := by
  have hgrowth := Table.count_insert_new hnew k fun k => k.campaign = c
  simp only [decide_eq_true_eq] at hgrowth
  exact hgrowth

theorem countOf_spend (hheld : b.coupons.get? k.id = some k) (r : Redemption) (c : CampaignId) :
    (b.spend k r).countOf c = b.countOf c := Table.count_insert_held hheld rfl

/-- What a step does to a coupon book. -/
inductive Grows (b : CouponBook) : CouponBook → Prop
  | kept : Grows b b
  | entered {k : Coupon} (hnew : b.coupons.get? k.id = none) : Grows b (b.enter k)
  | spent {k : Coupon} (hheld : b.coupons.get? k.id = some k) (r : Redemption) : Grows b (b.spend k r)

theorem Grows.contains (h : b.Grows b') {id : CouponId} (hid : b.coupons.contains id = true) :
    b'.coupons.contains id = true := by
  have hinsert (k new : Coupon) : (b.coupons.insert k.id new).contains id = true := by
    rw [Table.contains, Table.get?_insert]
    split
    · rfl
    · exact hid
  cases h with
  | kept => exact hid
  | entered => exact hinsert _ _
  | spent => exact hinsert _ _

private theorem Grows.countNew_add (h : b.Grows b')
    (hheld : ∀ id, before.coupons.contains id = true → b.coupons.contains id = true) :
    b'.countNew before c + b.countOf c = b'.countOf c + b.countNew before c := by
  cases h with
  | kept => exact Nat.add_comm ..
  | @entered k hnew =>
    have hunheld : before.coupons.contains k.id = false := by
      cases hbefore : before.coupons.contains k.id with
      | false => rfl
      | true =>
        have hcontains := hheld _ hbefore
        rw [Table.contains, hnew] at hcontains
        cases hcontains
    have hgrowth : (b.enter k).countNew before c =
        b.countNew before c + if k.campaign = c then 1 else 0 := by
      have hcount := Table.count_insert_new hnew k fun k =>
        decide (k.campaign = c) && !before.coupons.contains k.id
      simp only [hunheld, Bool.not_false, Bool.and_true, decide_eq_true_eq] at hcount
      exact hcount
    rw [hgrowth, countOf_enter hnew]
    omega
  | @spent k hk r =>
    have hsame : (b.spend k r).countNew before c = b.countNew before c :=
      Table.count_insert_held hk rfl
    rw [hsame, countOf_spend hk, Nat.add_comm]

/-- What there is by the end was there before or is new. -/
theorem countNew_add_countOf (books : Nat → CouponBook) {m n : Nat} (hmn : m ≤ n)
    (hnamed : ∀ {id k}, (books m).coupons.get? id = some k → k.id = id)
    (hgrows : ∀ i, m ≤ i → (books i).Grows (books (i + 1))) (c : CampaignId) :
    (books n).countNew (books m) c + (books m).countOf c = (books n).countOf c := by
  have hheld {i : Nat} (hi : m ≤ i) (id : CouponId) :
      (books m).coupons.contains id = true → (books i).coupons.contains id = true := by
    induction hi with
    | refl => exact fun hid => hid
    | step hi ih => exact fun hid => (hgrows _ hi).contains (ih hid)
  induction hmn with
  | refl =>
    have hnone : (books m).countNew (books m) c = 0 := by
      apply Table.count_eq_zero
      intro id k hk
      simp [Table.contains, hnamed hk, hk]
    rw [hnone, Nat.zero_add]
  | @step n hmn ih =>
    have hstep : (books (n + 1)).countNew (books m) c + _ = _ :=
      (hgrows n hmn).countNew_add (hheld hmn)
    change (books (n + 1)).countNew _ c + _ = (books (n + 1)).countOf c
    omega

end CouponIssuance.CouponBook
