import CouponIssuance.Proofs.CouponBook.Growth
import CouponIssuance.Proofs.Service.Effect
/-!
# Stock is conserved

Every coupon of a campaign that was recorded since its stock was last filled up stands for one unit
that is gone, and the other way round. The ledger and the coupon book are kept apart; what ties
them together is that a unit is taken exactly when a coupon is entered.
-/
namespace CouponIssuance

namespace Service

/-- How many coupons of a campaign are recorded. -/
def couponCount (s : Service) (c : CampaignId) : Nat := s.stores.coupons.countOf c

/-- What an event does to the stock of a campaign and to the number of its coupons, when the
campaign has the account `stock'` afterwards. -/
inductive Flow (s : Service) (e : Event) (s' : Service) (c : CampaignId) (stock' : Stock) : Prop
  | kept {stock} (hreset : s.reset? e ≠ some c) (hregistered : s.registered? e ≠ some c)
      (hstock : s.stores.ledger.snapshot c = some stock) (htotal : stock'.total = stock.total)
      (hsum : s'.couponCount c + stock'.remaining.toNat =
        s.couponCount c + stock.remaining.toNat)
  | reset {stock} (hreset : s.reset? e = some c)
      (hstock : s.stores.ledger.snapshot c = some stock) (htotal : stock'.total = stock.total)
      (hfull : stock'.remaining = stock'.total) (hcount : s'.couponCount c = s.couponCount c)
  | registered (hregistered : s.registered? e = some c) (hreset : s.reset? e ≠ some c)
      (hfull : stock'.remaining = stock'.total) (hcount : s'.couponCount c = 0)

section Flow

variable {s s' : Service} {e : Event} {c : CampaignId} {stock' : Stock}

private theorem couponCount_of_book (h : s'.stores.coupons = s.stores.coupons) (c : CampaignId) :
    s'.couponCount c = s.couponCount c := by
  rw [couponCount, h, couponCount]

theorem Effect.grows (h : Effect s e s') : s.stores.coupons.Grows s'.stores.coupons := by
  cases h with
  | nothing _ _ hbook | reset _ _ hbook | registered _ _ hbook => exact hbook ▸ .kept
  | redeemed _ _ hbook _ _ hheld => exact hbook ▸ .spent hheld _
  | awarded _ _ hbook _ _ _ _ _ _ hnew => exact hbook ▸ .entered hnew

private theorem couponCount_of_unlisted (h : s.stores.Stocked)
    (hc : s.stores.catalog.campaigns.get? c = none) : s.couponCount c = 0 := by
  apply Table.count_eq_zero
  intro id k hk
  apply decide_eq_false
  intro heq
  obtain ⟨campaign, hlisted⟩ := h.offered hk
  rw [heq, hc] at hlisted
  cases hlisted

private theorem Effect.flow (h : Effect s e s') (hs : s.stores.Stocked)
    (hstock' : s'.stores.ledger.snapshot c = some stock') : Flow s e s' c stock' := by
  cases h with
  | nothing _ hledger hbook hreset hregistered =>
    have hcount := couponCount_of_book hbook c
    rw [hledger] at hstock'
    exact .kept (by simp [hreset]) (by simp [hregistered]) hstock' rfl (by rw [hcount])
  | @reset c' campaign _ hledger hbook hreset hregistered hlisted =>
    have hcount := couponCount_of_book hbook c
    rw [hledger, Ledger.snapshot_reset] at hstock'
    split at hstock'
    · next hc =>
      subst hc
      cases hstock'
      obtain ⟨stock, hstock, htotal, -⟩ := hs.stocked hlisted
      exact .reset hreset hstock htotal.symm rfl hcount
    · next hc =>
      exact .kept (by simp [hreset, hc]) (by simp [hregistered]) hstock' rfl (by rw [hcount])
  | @registered campaign _ hledger hbook hreset hregistered hnew =>
    have hcount := couponCount_of_book hbook c
    rw [hledger, Ledger.snapshot_reset] at hstock'
    split at hstock'
    · next hc =>
      subst hc
      cases hstock'
      exact .registered hregistered (by simp [hreset]) rfl
        (hcount.trans (couponCount_of_unlisted hs hnew))
    · next hc =>
      exact .kept (by simp [hreset]) (by simp [hregistered, hc]) hstock' rfl (by rw [hcount])
  | redeemed _ hledger hbook hreset hregistered hheld =>
    have hcount : s'.couponCount c = s.couponCount c := by
      rw [couponCount, hbook, CouponBook.countOf_spend hheld, couponCount]
    rw [hledger] at hstock'
    exact .kept (by simp [hreset]) (by simp [hregistered]) hstock' rfl (by rw [hcount])
  | @awarded r stock id _ hledger hbook hreset hregistered _ _ hstock h0 hnew =>
    have hcount : s'.couponCount c = s.couponCount c + if r.campaign = c then 1 else 0 := by
      rw [couponCount, hbook]
      exact CouponBook.countOf_enter hnew c
    rw [hledger, award, Ledger.snapshot_tryReserve hstock h0] at hstock'
    split at hstock'
    · next hc =>
      subst hc
      cases hstock'
      have hpos : stock.remaining.toNat ≠ 0 := fun h => h0 (UInt64.toNat_inj.1 h)
      refine .kept (by simp [hreset]) (by simp [hregistered]) hstock rfl ?_
      rw [hcount, if_pos rfl]
      show _ + (stock.remaining - 1).toNat = _
      rw [Ledger.toNat_remaining_sub_one h0]
      omega
    · next hc =>
      exact .kept (by simp [hreset]) (by simp [hregistered]) hstock' rfl
        (by rw [hcount, if_neg hc, Nat.add_zero])

end Flow
end Service

namespace Run

variable (run : Run)

/-- How many coupons of a campaign were recorded from one moment to a later one: those held then
whose names were not held before. -/
def recorded (c : CampaignId) (m n : Nat) : Nat :=
  (run.after n).stores.coupons.countNew (run.after m).stores.coupons c

/-- When the stock of a campaign was last filled up, by its registration or by a reset. -/
def filledAt (c : CampaignId) (n : Nat) : Nat :=
  lastAt (fun i => run.reset? i = some c ∨ run.registered? i = some c) n

/-- How often the stock of a campaign was reset by the first `n` events. -/
def resetCount (c : CampaignId) (n : Nat) : Nat :=
  (List.range n).countP fun i => run.reset? i = some c

variable {run} {m n : Nat} {c : CampaignId} {stock : Stock}

theorem filledAt_succ (n : Nat) : run.filledAt c (n + 1) =
    if run.reset? n = some c ∨ run.registered? n = some c then n + 1 else run.filledAt c n := rfl

private theorem resetCount_succ (n : Nat) : run.resetCount c (n + 1) =
    run.resetCount c n + if run.reset? n = some c then 1 else 0 := by
  simp [resetCount, List.range_succ, List.countP_append, List.countP_cons]

private theorem flow (n : Nat) (hstock : (run.after (n + 1)).stores.ledger.snapshot c = some stock) :
    (∃ e, run.events[n]? = some e ∧
      (run.after n).Flow e (run.after (n + 1)) c stock) ∨
    (run.reset? n = none ∧ run.registered? n = none ∧ run.after (n + 1) = run.after n) := by
  cases he : run.events[n]? with
  | none => exact .inr ⟨reset?_of_none he, registered?_of_none he, after_succ_of_none he⟩
  | some e => exact .inl ⟨e, rfl, (effect he).flow (run.sound n).stocked hstock⟩

theorem grows (n : Nat) :
    (run.after n).stores.coupons.Grows (run.after (n + 1)).stores.coupons := by
  cases he : run.events[n]? with
  | none => rw [after_succ_of_none he]; exact .kept
  | some e => exact (effect he).grows

variable (run c) in
theorem recorded_add_couponCount (hmn : m ≤ n) :
    run.recorded c m n + (run.after m).couponCount c = (run.after n).couponCount c :=
  CouponBook.countNew_add_countOf (fun i => (run.after i).stores.coupons) hmn
    (run.sound m).book.named (fun i _ => grows i) c

private theorem couponCount_add_remaining (n : Nat)
    (hstock : (run.after n).stores.ledger.snapshot c = some stock) :
    (run.after n).couponCount c + stock.remaining.toNat =
      (run.after (run.filledAt c n)).couponCount c + stock.total.toNat := by
  induction n generalizing stock with
  | zero => rw [filledAt, lastAt, run.new.full hstock]
  | succ n ih =>
    rcases flow n hstock with ⟨e, he, hflow⟩ | ⟨hreset, hregistered, hsame⟩
    · rw [filledAt_succ, reset?_of_some he, registered?_of_some he]
      cases hflow with
      | kept hreset hregistered hstock htotal hsum =>
        rw [if_neg (by simp [hreset, hregistered]), hsum, ih hstock, htotal]
      | reset hreset _ _ hfull => rw [if_pos (.inl hreset), hfull]
      | registered hregistered _ hfull => rw [if_pos (.inr hregistered), hfull]
    · rw [hsame] at hstock ⊢
      rw [filledAt_succ, if_neg (by simp [hreset, hregistered])]
      exact ih hstock

private theorem couponCount_le_of_no_reset (hmn : m ≤ n)
    (hstock : (run.after n).stores.ledger.snapshot c = some stock)
    (hreset : ∀ i, m ≤ i → i < n → run.reset? i ≠ some c) :
    (run.after n).couponCount c + stock.remaining.toNat ≤
      (run.after m).couponCount c + stock.total.toNat := by
  induction hmn generalizing stock with
  | refl =>
    have hle := UInt64.le_iff_toNat_le.1 ((run.sound m).stocked.remaining_le hstock)
    omega
  | @step n hmn ih =>
    have hbefore : ∀ i, m ≤ i → i < n → run.reset? i ≠ some c := fun i hi hn =>
      hreset i hi (Nat.lt_succ_of_lt hn)
    have hlast : run.reset? n ≠ some c := hreset n hmn (Nat.lt_succ_self n)
    rcases flow n hstock with ⟨e, he, hflow⟩ | ⟨-, -, hsame⟩
    · rw [reset?_of_some he] at hlast
      cases hflow with
      | kept _ _ hstock htotal hsum =>
        have := ih hstock hbefore
        rw [hsum, htotal]
        exact this
      | reset hreset => exact absurd hreset hlast
      | registered _ _ hfull hcount =>
        rw [hcount, hfull]
        omega
    · rw [hsame] at hstock ⊢
      exact ih hstock hbefore

private theorem couponCount_le_of_resets (n : Nat)
    (hstock : (run.after n).stores.ledger.snapshot c = some stock) :
    (run.after n).couponCount c + stock.remaining.toNat ≤
      stock.total.toNat * (1 + run.resetCount c n) := by
  induction n generalizing stock with
  | zero =>
    have hnone : (run.after 0).couponCount c = 0 := by
      rw [after_zero, Service.couponCount, CouponBook.countOf, run.new.unissued]
      rfl
    have hfull := run.new.full hstock
    rw [hnone, hfull, resetCount, List.range_zero, List.countP_nil]
    omega
  | succ n ih =>
    rcases flow n hstock with ⟨e, he, hflow⟩ | ⟨hreset, -, hsame⟩
    · rw [resetCount_succ, reset?_of_some he]
      cases hflow with
      | kept hreset _ hstock htotal hsum =>
        rw [if_neg hreset, hsum, htotal]
        exact ih hstock
      | @reset old hreset hstock htotal hfull hcount =>
        have hbefore := ih hstock
        have hmore : old.total.toNat * (1 + (run.resetCount c n + 1)) =
            old.total.toNat * (1 + run.resetCount c n) + old.total.toNat := by
          rw [← Nat.add_assoc, Nat.mul_succ]
        rw [if_pos hreset, hcount, hfull, htotal, hmore]
        omega
      | registered _ hreset hfull hcount =>
        rw [if_neg hreset, hcount, hfull, Nat.zero_add]
        exact Nat.le_mul_of_pos_right _ (by omega)
    · rw [hsame] at hstock ⊢
      rw [resetCount_succ, if_neg (by simp [hreset])]
      exact ih hstock

variable (run) in
/-- In every state of a run, for every registered campaign: no more units remain than its total
stock, and as many are gone as coupons were recorded since the stock was last filled up. So between
resets there are at most as many coupons as units, each reset allows for as many again, and the
number of units that are gone is a true difference. -/
theorem stock_conserved (n : Nat) {c : CampaignId} {campaign : Campaign}
    (hc : (run.after n).campaign c = .ok campaign) :
    ∃ stock, (run.after n).stock c = .ok stock ∧ stock.total = campaign.totalStock ∧
      stock.remaining ≤ stock.total ∧
      run.recorded c (run.filledAt c n) n = stock.total.toNat - stock.remaining.toNat ∧
      stock.reserved.toNat = stock.total.toNat - stock.remaining.toNat ∧
      (∀ m ≤ n, (∀ i, m ≤ i → i < n → run.reset? i ≠ some c) →
        run.recorded c m n ≤ stock.total.toNat) ∧
      (run.after n).couponCount c ≤ stock.total.toNat * (1 + run.resetCount c n) := by
  have hlisted := Service.campaign_eq_ok_iff.1 hc
  obtain ⟨stock, hstock, htotal, hle⟩ := (run.sound n).stocked.stocked hlisted
  have hsum := couponCount_add_remaining n hstock
  have hfilled : run.filledAt c n ≤ n := lastAt_le ..
  have hsince := recorded_add_couponCount run c hfilled
  refine ⟨stock, Service.stock_eq_ok_iff.2 hstock, htotal, hle, by omega,
    UInt64.toNat_sub_of_le _ _ hle, ?_, ?_⟩
  · intro m hmn hreset
    have hbound := couponCount_le_of_no_reset hmn hstock hreset
    have hsplit := recorded_add_couponCount run c hmn
    omega
  · have := couponCount_le_of_resets n hstock
    omega

/-- The only unit is won and a second requester is sold out; after a reset, a third request fails
for want of a name, and the unit is given back. -/
def resetAndFailure : Run :=
  small [.issue ⟨1⟩ ⟨1⟩ (.ok ⟨"a"⟩), .issue ⟨2⟩ ⟨1⟩ (.ok ⟨"b"⟩), .turn 0 (.ok ⟨"x"⟩),
    .turn 0 (.ok ⟨"y"⟩), .initializeStock ⟨1⟩, .issue ⟨3⟩ ⟨1⟩ (.ok ⟨"c"⟩),
    .turn 0 (.error (.internal "clock"))] (by decide) (by decide)

theorem stock_conserved_resetAndFailure :
    (resetAndFailure.after 3).campaign ⟨1⟩ = .ok ⟨⟨1⟩, "campaign-1", 1, .unlimited, .fixed 1000, 0⟩ ∧
    (resetAndFailure.after 7).campaign ⟨1⟩ = .ok ⟨⟨1⟩, "campaign-1", 1, .unlimited, .fixed 1000, 0⟩ ∧
    resetAndFailure.recorded ⟨1⟩ (resetAndFailure.filledAt ⟨1⟩ 3) 3 = 1 ∧
    resetAndFailure.recorded ⟨1⟩ (resetAndFailure.filledAt ⟨1⟩ 7) 7 = 0 ∧
    (resetAndFailure.after 7).couponCount ⟨1⟩ ≤ 1 * (1 + resetAndFailure.resetCount ⟨1⟩ 7) := by
  have hearly : (resetAndFailure.after 3).campaign ⟨1⟩ =
      .ok ⟨⟨1⟩, "campaign-1", 1, .unlimited, .fixed 1000, 0⟩ := by rfl
  have hlate : (resetAndFailure.after 7).campaign ⟨1⟩ =
      .ok ⟨⟨1⟩, "campaign-1", 1, .unlimited, .fixed 1000, 0⟩ := by rfl
  have hgone : (resetAndFailure.after 3).stock ⟨1⟩ = .ok ⟨1, 0⟩ := by rfl
  have hback : (resetAndFailure.after 7).stock ⟨1⟩ = .ok ⟨1, 1⟩ := by rfl
  obtain ⟨early, hstock, -, -, hwon, -⟩ := resetAndFailure.stock_conserved 3 hearly
  rw [hgone] at hstock
  cases hstock
  obtain ⟨late, hstock, -, -, hreset, -, -, hcount⟩ := resetAndFailure.stock_conserved 7 hlate
  rw [hback] at hstock
  cases hstock
  exact ⟨hearly, hlate, hwon, hreset, hcount⟩

end Run
end CouponIssuance
