import CouponIssuance.Proofs.NoDrift
import CouponIssuance.Proofs.Service.Admission
import CouponIssuance.Proofs.Service.Booking
import CouponIssuance.Proofs.Service.Outcome
/-!
# Windows are kept

Coupons are issued while their campaign is open and redeemed before it has ended, whenever their
requests came in. The clock never goes back, so a campaign that has ended stays so: nothing is
issued or redeemed any more, its stock is left alone unless it is filled up, who asks is refused, and
whoever still waits fails.
-/
namespace CouponIssuance

namespace Window

variable {w : Window} {now : Millis}

theorem hasEnded_eq_false_iff :
    w.hasEnded now = false ↔ ∀ ending, w.endsAt = some ending → now < ending.toNat := by
  cases hends : w.endsAt <;> simp [hasEnded, hends]

theorem hasEnded_iff :
    w.hasEnded now = true ↔ ∃ ending, w.endsAt = some ending ∧ ending.toNat ≤ now := by
  cases hends : w.endsAt <;> simp [hasEnded, hends]

private theorem isOpen_iff : w.isOpen now = true ↔
    (∀ start, w.startsAt = some start → start.toNat ≤ now) ∧
      ∀ ending, w.endsAt = some ending → now < ending.toNat := by
  have hopen : w.isOpen now = true ↔ w.startsAt.filter (fun start => now < start.toNat) = none ∧
      w.endsAt.filter (fun ending => ending.toNat ≤ now) = none := by
    unfold isOpen closure?
    split <;> simp [*]
  simp [hopen, Option.filter_eq_none_iff]

private theorem closed_of_ended {ending : UInt64} (hends : w.endsAt = some ending)
    (hended : ending.toNat ≤ now) : w.isOpen now = false := by
  cases hopen : w.isOpen now with
  | false => rfl
  | true =>
    exact absurd ((isOpen_iff.1 hopen).2 ending hends) (Nat.not_lt.2 hended)

end Window

/-- A coupon was issued within a window, and if it was redeemed, then no earlier than that and before
the window ended. -/
structure Coupon.Keeps (k : Coupon) (w : Window) : Prop where
  started : ∀ start, w.startsAt = some start → start.toNat ≤ k.issuedAt
  running : ∀ ending, w.endsAt = some ending → k.issuedAt < ending.toNat
  redeemed : ∀ r, k.redemption = some r → k.issuedAt ≤ r.redeemedAt ∧
    ∀ ending, w.endsAt = some ending → r.redeemedAt < ending.toNat

namespace Service

/-- The campaign has an end, and it has been reached. -/
def Ended (s : Service) (c : CampaignId) : Prop :=
  ∃ campaign ending, s.campaign c = .ok campaign ∧ campaign.window.endsAt = some ending ∧
    ending.toNat ≤ s.now

/-- Every coupon keeps to the window of its campaign, and none is from a time to come. -/
def Timely (s : Service) : Prop :=
  ∀ id k, s.stores.coupons.coupons.get? id = some k → k.issuedAt ≤ s.now ∧
    ∃ campaign, s.campaign k.campaign = .ok campaign ∧ k.Keeps campaign.window

variable {s s' : Service} {e : Event} {requests : List RequestId} {coupons : List CouponId}
  {o : RequesterId} {c : CampaignId} {id : CouponId} {k : Coupon}

private theorem Effect.campaign_eq (h : Effect s e s') {campaign : Campaign}
    (hc : s.campaign c = .ok campaign) : s'.campaign c = .ok campaign :=
  campaign_eq_ok_iff.2 (h.listed (campaign_eq_ok_iff.1 hc))

theorem Timely.booking (h : s.Timely) (hb : s.stores.coupons.Sound) (hbooking : Booking s e s')
    (heffect : Effect s e s') (hnow : s.now ≤ s'.now) : s'.Timely := by
  intro id k hk
  rcases hbooking.held_of hb hk with
    hbefore | ⟨r, campaign, -, hactive, -, rfl⟩ | ⟨o, order, orderId, k', discount, -, hgrants, rfl⟩
  · obtain ⟨hissued, campaign, hcampaign, hkeeps⟩ := h id k hbefore
    exact ⟨Nat.le_trans hissued hnow, campaign, heffect.campaign_eq hcampaign, hkeeps⟩
  · obtain ⟨hlisted, hopen⟩ := Stores.activeCampaign_eq_ok_iff.1 hactive
    obtain ⟨hstarted, hrunning⟩ := Window.isOpen_iff.1 hopen
    refine ⟨hnow, campaign, heffect.campaign_eq (campaign_eq_ok_iff.2 hlisted), hstarted, hrunning, ?_⟩
    intro r hr
    cases hr
  · obtain ⟨hissued, campaign, hcampaign, hkeeps⟩ := h id k' hgrants.held
    obtain ⟨same, hlisted, hrunning, -⟩ := hgrants.running
    have hsame : same = campaign :=
      Option.some.inj (hlisted.symm.trans (campaign_eq_ok_iff.1 hcampaign))
    subst hsame
    refine ⟨Nat.le_trans hissued hnow, same, heffect.campaign_eq hcampaign, hkeeps.started, hkeeps.running, ?_⟩
    intro r hr
    cases hr
    exact ⟨hissued, Window.hasEnded_eq_false_iff.1 hrunning⟩

theorem Ended.later (h : s.Ended c) (heffect : Effect s e s') (hnow : s.now ≤ s'.now) :
    s'.Ended c := by
  obtain ⟨campaign, ending, hcampaign, hends, hended⟩ := h
  exact ⟨campaign, ending, heffect.campaign_eq hcampaign, hends, Nat.le_trans hended hnow⟩

private theorem Ended.not_active (h : s.Ended c) (campaign : Campaign) :
    s.stores.activeCampaign c s.now ≠ .ok campaign := by
  obtain ⟨ended, ending, hcampaign, hends, hended⟩ := h
  intro hactive
  obtain ⟨hlisted, hopen⟩ := Stores.activeCampaign_eq_ok_iff.1 hactive
  have hsame : campaign = ended :=
    Option.some.inj (hlisted.symm.trans (campaign_eq_ok_iff.1 hcampaign))
  rw [hsame, Window.closed_of_ended hends hended] at hopen
  cases hopen

private theorem Ended.not_grants (h : s.Ended c) (hc : k.campaign = c) {order discount : UInt64} :
    ¬ s.Grants o id order k discount := by
  intro hgrants
  obtain ⟨ended, ending, hcampaign, hends, hended⟩ := h
  obtain ⟨campaign, hlisted, hrunning, -⟩ := hgrants.running
  rw [hc, campaign_eq_ok_iff.1 hcampaign] at hlisted
  cases hlisted
  exact absurd (Window.hasEnded_eq_false_iff.1 hrunning ending hends) (Nat.not_lt.2 hended)

private theorem Ended.held_iff (h : s.Ended c) (hb : s.stores.coupons.Sound) (hbooking : Booking s e s')
    (hc : k.campaign = c) :
    s'.stores.coupons.coupons.get? id = some k ↔ s.stores.coupons.coupons.get? id = some k := by
  constructor
  · intro hk
    rcases hbooking.held_of hb hk with
      hbefore | ⟨r, campaign, -, hactive, -, rfl⟩ | ⟨o, order, orderId, k', discount, -, hgrants, rfl⟩
    · exact hbefore
    · exact absurd (hc ▸ hactive) (h.not_active campaign)
    · exact absurd hgrants (h.not_grants (k := k') hc)
  · intro hk
    rcases hbooking.held hb hk with hkept | ⟨o, order, orderId, discount, -, hgrants⟩
    · exact hkept
    · exact absurd hgrants (h.not_grants hc)

theorem Ended.snapshot (h : s.Ended c) (hs : s.stores.Stocked) (hmove : Move s e s')
    (heffect : Effect s e s') (hreset : s.reset? e ≠ some c) {stock : Stock}
    (hstock : s.stores.ledger.snapshot c = some stock) :
    s'.stores.ledger.snapshot c = some stock := by
  rcases heffect.stock_cases hs hreset hstock with hkept | ⟨-, r, htakes, rfl⟩
  · exact hkept
  · obtain ⟨p, minted, stores, resolution, -, -, houtcome, rfl⟩ := hmove.served_of_takes htakes
    obtain ⟨-, rfl⟩ := houtcome.of_shut h.not_active
    exact hstock

theorem Ended.record (h : s.Ended c) (hsound : s.Sound requests coupons) (hmove : Move s e s')
    {request : RequestId} {held : StatusEntry}
    (hheld : s'.stores.status.held? request = some held) (hc : held.record.campaign = c) :
    ∃ before, s.stores.status.held? request = some before ∧ before.record.campaign = c := by
  have hadmitted {o} : s.answer? o c ≠ none := by
    intro hanswer
    obtain ⟨-, ⟨campaign, hactive⟩, -⟩ := answer?_eq_none hanswer
    exact h.not_active campaign hactive
  cases hmove.origin hheld with
  | kept hkept => exact ⟨held, hkept, hc⟩
  | turnedAway _ hanswer _ hentry =>
    subst hentry
    rw [StatusRecord.resolved_campaign] at hc
    subst hc
    exact absurd hanswer hadmitted
  | queued _ hanswer hentry =>
    subst hentry
    subst hc
    exact absurd hanswer hadmitted
  | ended hwaits hid _ hentry =>
    subst hentry
    rw [StatusRecord.resolved_campaign] at hc
    exact ⟨_, hid ▸ (hsound.tracked.waiting hwaits).held, hc⟩

theorem Ended.issue (h : s.Ended c) (hs : s.stores.Stocked) (hserving : s.isServing = true)
    (o : RequesterId) (minted : Except Refusal RequestId) :
    ∃ campaign closure, s.campaign c = .ok campaign ∧
      campaign.window.closure? s.now = some closure ∧
      s.issue o c minted = (s, .error (.campaignInactive c closure.message)) := by
  obtain ⟨campaign, ending, hcampaign, hends, hended⟩ := h
  have hclosed := Window.closed_of_ended hends hended
  cases hclosure : campaign.window.closure? s.now with
  | none =>
    rw [Window.isOpen, hclosure] at hclosed
    cases hclosed
  | some closure =>
    exact ⟨campaign, closure, hcampaign, hclosure, issue_of_shut hs hserving hcampaign hclosure o minted⟩

end Service

namespace Run

variable {run : Run} {m n i p : Nat} {c : CampaignId} {x : IssuanceRequest}

variable (run) in
private theorem timely (n : Nat) : (run.after n).Timely := by
  apply always (P := Service.Timely)
  · intro id k hk
    rw [run.new.unissued] at hk
    cases hk
  · intro n e he htimely
    exact htimely.booking (run.sound n).book (booking he) (effect he) (run.move he).now_le

private theorem ended_of_le (hmn : m ≤ n) (h : (run.after m).Ended c) : (run.after n).Ended c := by
  apply along (P := fun s => s.Ended c) hmn h
  intro k e _ _ he hended
  exact hended.later (effect he) (run.move he).now_le

private theorem fails_of_ended (htaken : run.taken n = some x) (h : (run.after n).Ended x.campaign)
    (hmn : m ≤ n) : ∃ reason, run.Ends m (n + 1) x (.failed reason) := by
  obtain ⟨minted, stores, resolution, hturn⟩ := turn_of_taken htaken
  obtain ⟨⟨reason, rfl⟩, -⟩ := hturn.outcome.of_shut h.not_active
  exact ⟨reason, hturn.ends hmn⟩

private theorem waits_or_fails (h : (run.after m).Ended x.campaign) (hmn : m ≤ n)
    (hx : ((run.after m).queue.requests p)[i]? = some x) :
    (∃ reason, run.Ends m n x (.failed reason)) ∨
      run.turns p m n ≤ i ∧ x ∈ (run.after n).queue.requests p := by
  rcases taken_or_waits hmn hx with ⟨k, hmk, hkn, htaken⟩ | ⟨hle, hplace⟩
  · obtain ⟨reason, hends⟩ := fails_of_ended htaken (ended_of_le hmk h) hmk
    exact .inl ⟨reason, hends.mono hkn⟩
  · exact .inr ⟨hle, List.mem_of_getElem? hplace⟩

variable (run) in
/-- Every coupon was issued and redeemed within the window of its campaign. Once a campaign has
ended, its coupons stay exactly as they are, its stock changes only when it is filled up, no record
of a new request for it is kept, and a request that still waits fails. -/
theorem windows_respected :
    (∀ n id k, (run.after n).stores.coupons.coupons.get? id = some k →
      ∃ campaign, (run.after n).campaign k.campaign = .ok campaign ∧ k.Keeps campaign.window) ∧
    ∀ m n c, (run.after m).Ended c → m ≤ n →
      (∀ id k, k.campaign = c → ((run.after n).stores.coupons.coupons.get? id = some k ↔
        (run.after m).stores.coupons.coupons.get? id = some k)) ∧
      (∀ o id order orderId k, (run.after n).stores.coupons.coupons.get? id = some k →
        k.campaign = c → ∃ why,
          (run.after n).redeem o id order orderId = (run.after n, .error why)) ∧
      (∀ stock, run.reset? n ≠ some c → (run.after n).stock c = .ok stock →
        (run.after (n + 1)).stock c = .ok stock) ∧
      (∀ request held, (run.after n).stores.status.held? request = some held →
        held.record.campaign = c → ∃ before,
          (run.after m).stores.status.held? request = some before ∧ before.record.campaign = c) ∧
      ((run.after n).isServing = true → ∀ o minted, ∃ campaign closure,
        (run.after n).campaign c = .ok campaign ∧
        campaign.window.closure? (run.after n).now = some closure ∧
        (run.after n).issue o c minted =
          (run.after n, .error (.campaignInactive c closure.message))) ∧
      ∀ p i x, ((run.after m).queue.requests p)[i]? = some x → x.campaign = c →
        (∃ reason, run.Ends m n x (.failed reason)) ∨
          run.turns p m n ≤ i ∧ x ∈ (run.after n).queue.requests p := by
  refine ⟨?_, ?_⟩
  · intro n id k hk
    obtain ⟨-, campaign, hcampaign, hkeeps⟩ := run.timely n id k hk
    exact ⟨campaign, hcampaign, hkeeps⟩
  · intro m n c hended hmn
    have hlater := ended_of_le hmn hended
    refine ⟨?_, ?_, ?_, ?_, ?_, ?_⟩
    · intro id k hc
      apply along (P := fun s => s.stores.coupons.coupons.get? id = some k ↔
        (run.after m).stores.coupons.coupons.get? id = some k) hmn Iff.rfl
      intro i e hmi _ he hsame
      exact ((ended_of_le hmi hended).held_iff (run.sound i).book (booking he) hc).trans hsame
    · intro o id order orderId k hk hc
      apply Service.redeem_of_not_grants (run.sound n).book
      intro k' discount hgrants
      have hsame : k' = k := Option.some.inj (hgrants.held.symm.trans hk)
      exact hlater.not_grants (hsame ▸ hc) hgrants
    · intro stock hreset hstock
      cases he : run.events[n]? with
      | none => rw [after_succ_of_none he]; exact hstock
      | some e =>
        rw [reset?_of_some he] at hreset
        exact Service.stock_eq_ok_iff.2 (hlater.snapshot (run.sound n).stocked (run.move he)
          (effect he) hreset (Service.stock_eq_ok_iff.1 hstock))
    · apply along (P := fun s => ∀ request held, s.stores.status.held? request = some held →
        held.record.campaign = c → ∃ before,
          (run.after m).stores.status.held? request = some before ∧ before.record.campaign = c) hmn
      · intro request held hheld hc
        exact ⟨held, hheld, hc⟩
      · intro i e hmi _ he hbefore request held hheld hc
        obtain ⟨earlier, hearlier, hcampaign⟩ :=
          (ended_of_le hmi hended).record (run.sound i) (run.move he) hheld hc
        exact hbefore request earlier hearlier hcampaign
    · intro hserving o minted
      exact hlater.issue (run.sound n).stocked hserving o minted
    · intro p i x hx hc
      exact waits_or_fails (hc ▸ hended) hmn hx

/-- A campaign is open from 5 to 100. One request for it is issued at 10 and its coupon redeemed at
20; another is admitted at 10 and still waits at 100, when a third comes. -/
def closedWhileQueued : Run :=
  small [.register ⟨⟨2⟩, none, 2, ⟨some 5, some 100⟩, none⟩, .wait 10,
    .issue ⟨1⟩ ⟨2⟩ (.ok ⟨"a"⟩), .turn 0 (.ok ⟨"x"⟩), .issue ⟨2⟩ ⟨2⟩ (.ok ⟨"b"⟩), .wait 10,
    .redeem ⟨1⟩ ⟨"x"⟩ 5000 none, .wait 80, .issue ⟨3⟩ ⟨2⟩ (.ok ⟨"c"⟩), .turn 0 (.ok ⟨"y"⟩)]
    (by decide) (by decide)

theorem windows_respected_closedWhileQueued :
    (∃ campaign, (closedWhileQueued.after 10).campaign ⟨2⟩ = .ok campaign ∧
      Coupon.Keeps ⟨⟨"x"⟩, ⟨2⟩, ⟨1⟩, ⟨"a"⟩, 10, some ⟨20, none⟩⟩ campaign.window) ∧
    (closedWhileQueued.after 8).Ended ⟨2⟩ ∧
    (closedWhileQueued.after 9).stock ⟨2⟩ = .ok ⟨2, 1⟩ ∧
    (closedWhileQueued.after 10).stock ⟨2⟩ = .ok ⟨2, 1⟩ ∧
    (∃ why, (closedWhileQueued.after 8).issue ⟨3⟩ ⟨2⟩ (.ok ⟨"c"⟩) =
      (closedWhileQueued.after 8, .error why)) ∧
    ∃ reason, closedWhileQueued.Ends 8 10 ⟨⟨"b"⟩, ⟨2⟩, ⟨2⟩, 10⟩ (.failed reason) := by
  have hended : (closedWhileQueued.after 8).Ended ⟨2⟩ := ⟨_, 100, by rfl, by rfl, by decide⟩
  have hheld : (closedWhileQueued.after 10).stores.coupons.coupons.get? ⟨"x"⟩ =
      some ⟨⟨"x"⟩, ⟨2⟩, ⟨1⟩, ⟨"a"⟩, 10, some ⟨20, none⟩⟩ := by rfl
  have hstock : (closedWhileQueued.after 9).stock ⟨2⟩ = .ok ⟨2, 1⟩ := by rfl
  have hplace : ((closedWhileQueued.after 8).queue.requests 0)[0]? =
      some ⟨⟨"b"⟩, ⟨2⟩, ⟨2⟩, 10⟩ := by rfl
  have hturns : 0 < closedWhileQueued.turns 0 8 10 := by decide
  obtain ⟨hkeeps, hafter⟩ := closedWhileQueued.windows_respected
  obtain ⟨-, -, -, -, hissue, -⟩ := hafter 8 8 ⟨2⟩ hended (Nat.le_refl 8)
  obtain ⟨-, -, hkept, -⟩ := hafter 8 9 ⟨2⟩ hended (by decide)
  obtain ⟨-, -, -, -, -, hfails⟩ := hafter 8 10 ⟨2⟩ hended (by decide)
  obtain ⟨campaign, closure, -, -, hrefused⟩ := hissue (by rfl) ⟨3⟩ (.ok ⟨"c"⟩)
  refine ⟨hkeeps 10 _ _ hheld, hended, hstock, hkept _ (by decide) hstock, ⟨_, hrefused⟩, ?_⟩
  rcases hfails 0 0 _ hplace rfl with hfailed | ⟨hle, -⟩
  · exact hfailed
  · omega

end Run
end CouponIssuance
