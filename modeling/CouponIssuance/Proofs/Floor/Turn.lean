import CouponIssuance.Worker
import CouponIssuance.Proofs.Floor
import CouponIssuance.Proofs.Stores.Dispatch
/-!
# A turn, step by step

When a worker alone is at work, its turn with a request is a sequence of single steps: it takes the
request, sets a unit aside and uses it up or gives it back, if the request is to be attempted, and lets
go of the request. So what holds between any two steps holds between turns.
-/
namespace CouponIssuance

namespace Stores

private theorem tryReserve_of_reserve {s : Stores} {now : Millis} {r : IssuanceRequest} {reserved : Ledger}
    (h : s.reserve now r = .ok reserved) : s.ledger.tryReserve r.campaign = (reserved, true) := by
  cases hactive : s.activeCampaign r.campaign now with
  | error why => simp [reserve, hactive] at h
  | ok campaign =>
    cases htry : s.ledger.tryReserve r.campaign with
    | mk ledger taken =>
      cases taken with
      | false => simp [reserve, hactive, htry] at h
      | true =>
        simp only [reserve, hactive, htry, Except.ok.injEq] at h
        rw [h]

private theorem conclude_keeps (s : Stores) (now : Millis) (id : RequestId) (resolution : Resolution) :
    (s.conclude now id resolution).ledger = s.ledger ∧
      (s.conclude now id resolution).coupons = s.coupons := by
  unfold conclude
  split <;> exact ⟨rfl, rfl⟩

private theorem process_cases (s : Stores) (now : Millis) (r : IssuanceRequest)
    (work : Stores → Stores × Resolution)
    (hw : ∀ status, work { s with status := status } =
      ({ (work s).1 with status := status }, (work s).2)) :
    ((s.process now r work).ledger = s.ledger ∧ (s.process now r work).coupons = s.coupons) ∨
    ((s.process now r work).ledger = (work s).1.ledger ∧
      (s.process now r work).coupons = (work s).1.coupons) := by
  unfold process
  split
  · exact .inl ⟨rfl, rfl⟩
  · rw [hw]
    exact .inr (conclude_keeps ..)

end Stores

namespace Floor

/-- Whether a step is one of a worker. -/
def Act.isWork : Act → Bool
  | .dequeue _ | .reserve _ | .record .. | .restore _ | .drop _ => true
  | .enqueue _ | .register .. | .reset .. => false

/-- What workers find in an office, while no request is held. -/
def ofOffice (o : Office) : Floor := ⟨o.queue, o.stores.ledger, o.stores.coupons, []⟩

/-- Steps of the worker who has taken `r` can make this of stock and coupons, and leave no unit set
aside. -/
def Works (q : Queue) (r : IssuanceRequest) (s t : Stores) : Prop :=
  ∃ (acts : List Act) (stage : Stage), (∀ a ∈ acts, a.isWork = true) ∧ stage ≠ .holding ∧
    acts.foldl step ⟨q, s.ledger, s.coupons, [⟨r, .taken⟩]⟩ = ⟨q, t.ledger, t.coupons, [⟨r, stage⟩]⟩

variable {q : Queue} {s t : Stores} {r : IssuanceRequest}

theorem Works.of_same (hledger : t.ledger = s.ledger) (hcoupons : t.coupons = s.coupons) :
    Works q r s t :=
  ⟨[], .taken, by simp, by decide, by rw [hledger, hcoupons]; rfl⟩

private theorem works_attempt (q : Queue) (s : Stores) (now : Millis) (r : IssuanceRequest)
    (minted : Except Refusal CouponId) : Works q r s (s.attempt now r minted).1 := by
  cases hreserve : s.reserve now r with
  | error resolution =>
    have hattempt : s.attempt now r minted = (s, resolution) := by
      simp only [Stores.attempt, hreserve]
    rw [hattempt]
    exact .of_same rfl rfl
  | ok reserved =>
    have htry := Stores.tryReserve_of_reserve hreserve
    cases hrecord : s.recordCoupon now r minted with
    | error why =>
      have hattempt : s.attempt now r minted =
          ({ s with ledger := (reserved.restore r.campaign).1 }, .failed why.message) := by
        simp only [Stores.attempt, hreserve, hrecord]
      rw [hattempt]
      refine ⟨[.reserve 0, .restore 0], .done, by simp [Act.isWork], by decide, ?_⟩
      simp [step, htry]
    | ok entered =>
      obtain ⟨coupons, coupon⟩ := entered
      have hattempt : s.attempt now r minted =
          ({ s with ledger := reserved, coupons := coupons }, .issued coupon.id) := by
        simp only [Stores.attempt, hreserve, hrecord]
      rw [hattempt]
      cases minted with
      | error why => cases hrecord
      | ok id =>
        have hissue : s.coupons.issue id r.campaign r.requester r.id now = .ok (coupons, coupon) :=
          hrecord
        refine ⟨[.reserve 0, .record 0 id now], .done, by simp [Act.isWork], by decide, ?_⟩
        simp [step, htry, hissue]

private theorem works_dispatch (q : Queue) (s : Stores) (now : Millis) (r : IssuanceRequest)
    (minted : Except Refusal CouponId) : Works q r s (s.dispatch now r minted) := by
  rcases s.process_cases now r (fun s => s.attempt now r minted) Stores.attempt_with_status with
    ⟨hledger, hcoupons⟩ | ⟨hledger, hcoupons⟩
  · exact .of_same hledger hcoupons
  · obtain ⟨acts, stage, hwork, hstage, hsteps⟩ := works_attempt q s now r minted
    exact ⟨acts, stage, hwork, hstage, by rw [hsteps, ← hledger, ← hcoupons]; rfl⟩

private theorem works_abandon (q : Queue) (s : Stores) (now : Millis) (r : IssuanceRequest) :
    Works q r s (s.abandon now r) := by
  rcases s.process_cases now r (fun s => (s, .failed Stores.abandonment)) fun _ => rfl with
    ⟨hledger, hcoupons⟩ | ⟨hledger, hcoupons⟩ <;> exact .of_same hledger hcoupons

/-- A turn of a worker that takes a request is made of steps of the worker. -/
theorem turn_steps {o : Office} {p : Nat} (hd : o.queue.dequeue p = (q, .request r))
    (cancelled : Bool) (now : Millis) (minted : Except Refusal CouponId) :
    ∃ acts : List Act, (∀ a ∈ acts, a.isWork = true) ∧
      acts.foldl step (ofOffice o) = ofOffice (o.turn p cancelled now minted) := by
  have hturn : o.turn p cancelled now minted =
      ⟨if cancelled then o.stores.abandon now r else o.stores.dispatch now r minted,
        q.release r.campaign⟩ := by
    simp only [Office.turn, hd]
  obtain ⟨acts, stage, hwork, hstage, hsteps⟩ :
      Works q r o.stores (o.turn p cancelled now minted).stores := by
    rw [hturn]
    cases cancelled with
    | true => exact works_abandon ..
    | false => exact works_dispatch ..
  have htaken : step (ofOffice o) (.dequeue p) =
      ⟨q, o.stores.ledger, o.stores.coupons, [⟨r, .taken⟩]⟩ := by
    simp [step, ofOffice, hd]
  refine ⟨.dequeue p :: acts ++ [.drop 0], ?_, ?_⟩
  · intro a ha
    simp only [List.cons_append, List.mem_cons, List.mem_append, List.not_mem_nil, or_false] at ha
    rcases ha with rfl | ha | rfl
    · rfl
    · exact hwork a ha
    · rfl
  · rw [List.cons_append, List.foldl_cons, List.foldl_append, htaken, hsteps, hturn]
    simp [step, ofOffice, hstage]

end Floor
end CouponIssuance
