import CouponIssuance.Stores
import CouponIssuance.Proofs.CouponBook
import CouponIssuance.Proofs.Ledger
import CouponIssuance.Proofs.Status
/-!
# One dispatch

The four ways in which an attempt to issue a coupon goes. Only one of them changes the stores; when
the coupon cannot be entered, the unit that was set aside goes back and nothing is left of it. A
request that is pending is taken to its end in one stroke: its record is put as resolved.
-/
namespace CouponIssuance.Stores

/-- How an attempt goes: with what stores and resolution it leaves off. -/
inductive Attempt (s : Stores) (now : Millis) (r : IssuanceRequest)
    (minted : Except Refusal CouponId) : Stores → Resolution → Prop
  | closed {why} : s.activeCampaign r.campaign now = .error why →
      Attempt s now r minted s (.failed why.message)
  | exhausted {campaign} : s.activeCampaign r.campaign now = .ok campaign →
      (∀ stock, s.ledger.snapshot r.campaign = some stock → stock.remaining = 0) →
      Attempt s now r minted s .soldOut
  | unrecorded {campaign stock why} : s.activeCampaign r.campaign now = .ok campaign →
      s.ledger.snapshot r.campaign = some stock → stock.remaining ≠ 0 →
      (s.coupons.owned r.requester r.campaign = none → minted = .error why) →
      Attempt s now r minted s (.failed why.message)
  | issued {campaign stock id} : s.activeCampaign r.campaign now = .ok campaign →
      s.ledger.snapshot r.campaign = some stock → stock.remaining ≠ 0 → minted = .ok id →
      s.coupons.owned r.requester r.campaign = none →
      Attempt s now r minted
        { s with
          ledger := (s.ledger.tryReserve r.campaign).1
          coupons := s.coupons.enter ⟨id, r.campaign, r.requester, r.id, now, none⟩ }
        (.issued id)

section Attempt

variable {s : Stores} {now : Millis} {r : IssuanceRequest} {minted : Except Refusal CouponId}

private theorem attempt_of_closed {why : Refusal} (h : s.activeCampaign r.campaign now = .error why) :
    s.attempt now r minted = (s, .failed why.message) := by
  simp [attempt, reserve, h]

private theorem attempt_of_exhausted {campaign : Campaign}
    (h : s.activeCampaign r.campaign now = .ok campaign)
    (h0 : ∀ stock, s.ledger.snapshot r.campaign = some stock → stock.remaining = 0) :
    s.attempt now r minted = (s, .soldOut) := by
  simp [attempt, reserve, h, Ledger.tryReserve_of_exhausted h0]

private theorem attempt_of_remaining {campaign : Campaign} {stock : Stock}
    (h : s.activeCampaign r.campaign now = .ok campaign)
    (hs : s.ledger.snapshot r.campaign = some stock) (h0 : stock.remaining ≠ 0)
    (hle : stock.remaining ≤ stock.total) :
    s.attempt now r minted =
      match s.recordCoupon now r minted with
      | .ok (coupons, coupon) => ({ s with
          ledger := (s.ledger.tryReserve r.campaign).1, coupons := coupons }, .issued coupon.id)
      | .error why => (s, .failed why.message) := by
  have hreserve : s.reserve now r = .ok (s.ledger.tryReserve r.campaign).1 := by
    simp [reserve, h, Ledger.tryReserve_of_remaining hs h0]
  have hrestore := Ledger.restore_tryReserve hs h0 hle
  cases hrecord : s.recordCoupon now r minted with
  | ok entered => simp only [attempt, hreserve, hrecord]
  | error why => simp only [attempt, hreserve, hrecord, hrestore]

variable (minted) in
private theorem recordCoupon_cases :
    (∃ why, s.recordCoupon now r minted = .error why ∧
      (s.coupons.owners.contains (r.requester, r.campaign) = false → minted = .error why)) ∨
    ∃ id, minted = .ok id ∧ s.coupons.owners.contains (r.requester, r.campaign) = false ∧
      s.recordCoupon now r minted =
        .ok (s.coupons.enter ⟨id, r.campaign, r.requester, r.id, now, none⟩,
          ⟨id, r.campaign, r.requester, r.id, now, none⟩) := by
  cases minted with
  | error why => exact .inl ⟨why, rfl, fun _ => rfl⟩
  | ok id =>
    cases hc : s.coupons.owners.contains (r.requester, r.campaign) with
    | false =>
      refine .inr ⟨id, rfl, rfl, ?_⟩
      simp [recordCoupon, CouponBook.issue, hc, bind, Except.bind, CouponBook.enter]
    | true =>
      refine .inl ⟨.couponAlreadyIssued r.campaign r.requester, ?_, fun h => by cases h⟩
      simp [recordCoupon, CouponBook.issue, hc, bind, Except.bind]

variable (now minted) in
/-- An attempt goes in one of the four ways, in stores of which nothing is known but that no more remains
of the campaign than there was. -/
theorem attempt_cases
    (hle : ∀ stock, s.ledger.snapshot r.campaign = some stock → stock.remaining ≤ stock.total) :
    (∃ why, s.activeCampaign r.campaign now = .error why ∧
      s.attempt now r minted = (s, .failed why.message)) ∨
    ∃ campaign, s.activeCampaign r.campaign now = .ok campaign ∧
      ((∀ stock, s.ledger.snapshot r.campaign = some stock → stock.remaining = 0) ∧
        s.attempt now r minted = (s, .soldOut) ∨
      ∃ stock, s.ledger.snapshot r.campaign = some stock ∧ stock.remaining ≠ 0 ∧
        ((∃ why, (s.coupons.owners.contains (r.requester, r.campaign) = false →
            minted = .error why) ∧ s.attempt now r minted = (s, .failed why.message)) ∨
        ∃ id, minted = .ok id ∧
          s.coupons.owners.contains (r.requester, r.campaign) = false ∧
          s.attempt now r minted =
            ({ s with
              ledger := (s.ledger.tryReserve r.campaign).1
              coupons := s.coupons.enter ⟨id, r.campaign, r.requester, r.id, now, none⟩ },
              .issued id))) := by
  cases ha : s.activeCampaign r.campaign now with
  | error why => exact .inl ⟨why, rfl, attempt_of_closed ha⟩
  | ok campaign =>
    refine .inr ⟨campaign, rfl, ?_⟩
    by_cases h0 : ∀ stock, s.ledger.snapshot r.campaign = some stock → stock.remaining = 0
    · exact .inl ⟨h0, attempt_of_exhausted ha h0⟩
    · obtain ⟨stock, hs, hr⟩ : ∃ stock, s.ledger.snapshot r.campaign = some stock ∧
          stock.remaining ≠ 0 := by
        apply Classical.byContradiction
        intro hn
        exact h0 fun stock hs => Classical.byContradiction fun hr => hn ⟨stock, hs, hr⟩
      refine .inr ⟨stock, hs, hr, ?_⟩
      rw [attempt_of_remaining ha hs hr (hle stock hs)]
      rcases recordCoupon_cases minted with ⟨why, he, hw⟩ | ⟨id, hm, ho, he⟩ <;> rw [he]
      · exact .inl ⟨why, hw, rfl⟩
      · exact .inr ⟨id, hm, ho, rfl⟩

/-- Where the index of the book can be trusted, what an attempt goes by is whether the requester holds a
coupon. -/
theorem attempt_spec (hb : s.coupons.Sound)
    (hle : ∀ stock, s.ledger.snapshot r.campaign = some stock → stock.remaining ≤ stock.total) :
    Attempt s now r minted (s.attempt now r minted).1 (s.attempt now r minted).2 := by
  have hindex : s.coupons.owners.contains (r.requester, r.campaign) = false ↔
      s.coupons.owned r.requester r.campaign = none := by
    rw [hb.contains_owners_iff, Option.isSome_eq_false_iff, Option.isNone_iff_eq_none]
  rcases attempt_cases now minted hle with ⟨why, ha, he⟩ | ⟨campaign, ha, hrest⟩
  · rw [he]
    exact .closed ha
  · rcases hrest with ⟨h0, he⟩ | ⟨stock, hs, hr, ⟨why, hw, he⟩ | ⟨id, hm, ho, he⟩⟩ <;> rw [he]
    · exact .exhausted ha h0
    · exact .unrecorded ha hs hr fun howned => hw (hindex.2 howned)
    · exact .issued ha hs hr hm (hindex.1 ho)

theorem attempt_with_status (status : StatusStore) :
    ({ s with status := status } : Stores).attempt now r minted =
      ({ (s.attempt now r minted).1 with status := status }, (s.attempt now r minted).2) := by
  have hreserve : ({ s with status := status } : Stores).reserve now r = s.reserve now r := rfl
  have hrecord : ({ s with status := status } : Stores).recordCoupon now r minted =
      s.recordCoupon now r minted := rfl
  simp only [attempt, hreserve, hrecord]
  split
  · rfl
  · split <;> rfl

end Attempt

section Process

variable {s : Stores} {r : IssuanceRequest} {record : StatusRecord} {e : StatusEntry}
  (now : Millis)

theorem process_of_not_pending
    (h : ∀ e, s.status.held? r.id = some e → e.record.state ≠ .pending)
    (work : Stores → Stores × Resolution) : s.process now r work = s := by
  have hrefused : ∃ why, s.status.advance now r.id .processing = .error why := by
    cases hheld : s.status.held? r.id with
    | none => exact ⟨_, StatusStore.transition_of_unheld hheld⟩
    | some e =>
      have hstay : e.record.state.canAdvanceTo .processing = false := by
        cases hstate : e.record.state with
        | pending => exact absurd hstate (h e hheld)
        | _ => rfl
      exact ⟨_, StatusStore.transition_of_stay hheld hstay⟩
  obtain ⟨why, hrefused⟩ := hrefused
  simp only [process, hrefused]

theorem process_of_held (h : s.status.held? r.id = some e) (hp : e.record.state = .pending)
    {work : Stores → Stores × Resolution}
    (hw : ∀ status, work { s with status := status } =
      ({ (work s).1 with status := status }, (work s).2)) :
    s.process now r work =
      { (work s).1 with status := { s.status with
          entries := s.status.entries.insert r.id
            ⟨e.record.resolved (work s).2 now, some now⟩ } } := by
  let marked : StatusStore := { s.status with
    entries := s.status.entries.insert r.id
      ⟨{ e.record with state := .processing }, e.resolved⟩ }
  have hadvance : s.status.advance now r.id .processing =
      .ok (marked, { e.record with state := .processing }) :=
    StatusStore.advance_of_held? h (by rw [hp]; rfl) rfl
  have hmarked : marked.held? r.id =
      some ⟨{ e.record with state := .processing }, e.resolved⟩ := by
    simp [StatusStore.held?, marked]
  simp only [process, hadvance]
  rw [hw marked]
  simp only [conclude, StatusStore.resolve_of_held? hmarked rfl, StatusRecord.resolved_of_state,
    marked, Sharded.insert_insert]

private theorem process_of_pending (h : s.status.held? r.id = some ⟨record, none⟩)
    (hp : record.state = .pending) (hid : record.request = r.id)
    {work : Stores → Stores × Resolution}
    (hw : ∀ status, work { s with status := status } =
      ({ (work s).1 with status := status }, (work s).2)) :
    s.process now r work =
      { (work s).1 with status := s.status.put now (record.resolved (work s).2 now) } := by
  rw [process_of_held now h hp hw]
  simp only [StatusStore.put, StatusRecord.resolved_request, StatusRecord.resolved_state,
    Resolution.isTerminal_state, hid, if_true]

theorem dispatch_of_pending (h : s.status.held? r.id = some ⟨record, none⟩)
    (hp : record.state = .pending) (hid : record.request = r.id)
    (minted : Except Refusal CouponId) :
    s.dispatch now r minted = { (s.attempt now r minted).1 with
      status := s.status.put now (record.resolved (s.attempt now r minted).2 now) } :=
  process_of_pending now h hp hid attempt_with_status

theorem abandon_of_pending (h : s.status.held? r.id = some ⟨record, none⟩)
    (hp : record.state = .pending) (hid : record.request = r.id) :
    s.abandon now r = { s with
      status := s.status.put now (record.resolved (.failed abandonment) now) } :=
  process_of_pending now h hp hid fun _ => rfl

end Process
end CouponIssuance.Stores
