import CouponIssuance.Proofs.Service.Invariance
/-!
# How those who ask again are answered

Who asks for a coupon while the campaign is open is told of the coupon held already, or of the
request that waits, and then nothing changes.
-/
namespace CouponIssuance.Service

/-- Whether requests for a campaign are let in: admission has not ended, and the campaign is open.
-/
def Admits (s : Service) (c : CampaignId) : Prop :=
  s.isServing = true ∧ ∃ campaign, s.campaign c = .ok campaign ∧
    campaign.window.isOpen s.now = true

variable {s : Service} {requests : List RequestId} {coupons : List CouponId} {o : RequesterId}
  {c : CampaignId}

theorem Admits.active (h : s.Admits c) :
    s.queue.closed = false ∧ ∃ campaign, s.stores.activeCampaign c s.now = .ok campaign := by
  obtain ⟨hserving, campaign, hc, hopen⟩ := h
  refine ⟨by simpa [isServing] using hserving, campaign, ?_⟩
  exact Stores.activeCampaign_eq_ok_iff.2 ⟨campaign_eq_ok_iff.1 hc, hopen⟩

theorem issue_of_owned (h : s.Admits c) {k : Coupon} (hk : s.stores.coupons.owned o c = some k)
    (minted : Except Refusal RequestId) :
    s.issue o c minted = (s, .ok (.resolved ⟨k.request, .issued, some k.id⟩)) := by
  obtain ⟨hclosed, campaign, hactive⟩ := h.active
  have hanswer : s.answer? o c = some (.ok (.ofCoupon k)) := by
    simp only [answer?, hclosed, Bool.false_eq_true, if_false, hactive, hk]
  simp only [issue, hanswer, Admission.ofCoupon]

private theorem issue_of_live (h : s.Admits c) (hnone : s.stores.coupons.owned o c = none)
    {record : StatusRecord} (hlive : s.liveRecord (o, c) = some record)
    (minted : Except Refusal RequestId) :
    s.issue o c minted = (s, .ok (.ofRecord record)) := by
  obtain ⟨hclosed, campaign, hactive⟩ := h.active
  have hanswer : s.answer? o c = some (.ok (.ofRecord record)) := by
    simp only [answer?, hclosed, Bool.false_eq_true, if_false, hactive, hnone, hlive,
      Option.map_some]
  simp only [issue, hanswer]

theorem issue_of_shut (hs : s.stores.Stocked) (hserving : s.isServing = true) {campaign : Campaign}
    {closure : Closure} (hlisted : s.campaign c = .ok campaign)
    (hshut : campaign.window.closure? s.now = some closure) (o : RequesterId)
    (minted : Except Refusal RequestId) :
    s.issue o c minted = (s, .error (.campaignInactive c closure.message)) := by
  have hc := campaign_eq_ok_iff.1 hlisted
  have hactive : s.stores.activeCampaign c s.now = .error (.campaignInactive c closure.message) := by
    simp only [Stores.activeCampaign, Catalog.get, hc, Campaign.ensureActive, hshut, bind, Except.bind,
      hs.listed hc]
  have hclosed : s.queue.closed = false := by simpa [isServing] using hserving
  simp only [issue, answer?, hclosed, Bool.false_eq_true, if_false, hactive]

theorem Sound.issue_of_waiting (h : s.Sound requests coupons) {p : Nat} {r : IssuanceRequest}
    (hr : r ∈ s.queue.requests p) (hadmits : s.Admits r.campaign)
    (minted : Except Refusal RequestId) :
    s.issue r.requester r.campaign minted = (s, .ok (.queued ⟨r.id, .pending, none⟩)) :=
  issue_of_live hadmits (h.tracked.waiting hr).unowned (h.liveRecord_of_waiting hr) minted

theorem answer?_of_new (h : s.Admits c) (hunowned : s.stores.coupons.owned o c = none)
    (hunasked : s.liveRecord (o, c) = none) : s.answer? o c = none := by
  obtain ⟨hclosed, campaign, hactive⟩ := h.active
  simp only [answer?, hclosed, Bool.false_eq_true, if_false, hactive, hunowned, hunasked,
    Option.map_none]

theorem answer?_eq_ok {answer : Admission} (h : s.answer? o c = some (.ok answer)) :
    (∃ k, s.stores.coupons.owned o c = some k ∧ answer = .ofCoupon k) ∨
    ∃ record, s.liveRecord (o, c) = some record ∧ answer = .ofRecord record := by
  unfold answer? at h
  split at h
  · cases h
  · split at h
    · cases h
    · split at h
      · next k hk =>
        cases h
        exact .inl ⟨k, hk, rfl⟩
      · obtain ⟨record, hlive, hrecord⟩ := Option.map_eq_some_iff.1 h
        cases hrecord
        exact .inr ⟨record, hlive, rfl⟩

theorem held_of_liveRecord {key : TicketKey} {record : StatusRecord}
    (h : s.liveRecord key = some record) : ∃ id held, s.stores.tickets.current key = some id ∧
      s.stores.status.held? id = some held ∧ s.status id = .ok record ∧ held.record = record ∧
      record.state.blocksReadmission = true := by
  obtain ⟨hcurrent, hblocks⟩ := Option.filter_eq_some_iff.1 h
  obtain ⟨id, hticket, hget⟩ := Option.bind_eq_some_iff.1 hcurrent
  obtain ⟨held, hheld, -, hrecord⟩ := StatusStore.get_eq_some_iff.1 hget
  exact ⟨id, held, hticket, hheld, status_eq_ok_iff.2 hget, hrecord, hblocks⟩

theorem issued_of_answer {t : Ticket} (h : s.answer? o c = some (.ok (.resolved t))) :
    t.state = .issued := by
  rcases answer?_eq_ok h with ⟨k, -, hanswer⟩ | ⟨record, hlive, hanswer⟩
  · cases hanswer
    rfl
  · obtain ⟨-, -, -, -, -, -, hblocks⟩ := held_of_liveRecord hlive
    rw [Admission.ofRecord] at hanswer
    split at hanswer
    · next hend =>
      cases hanswer
      exact RequestState.eq_issued hend hblocks
    · cases hanswer

private theorem Sound.waits_of_answer (h : s.Sound requests coupons) {t : Ticket}
    (hanswer : s.answer? o c = some (.ok (.queued t))) :
    ∃ p, ∃ r ∈ s.queue.requests p, r.key = (o, c) ∧ t = ⟨r.id, .pending, none⟩ := by
  rcases answer?_eq_ok hanswer with ⟨k, -, htold⟩ | ⟨record, hlive, htold⟩
  · cases htold
  · obtain ⟨id, held, hticket, hheld, -, rfl, -⟩ := held_of_liveRecord hlive
    rw [Admission.ofRecord] at htold
    split at htold
    · cases htold
    · next hopen =>
      obtain ⟨p, r, hr, rfl, -⟩ := h.waiting_of_held hheld (by simpa using hopen)
      cases htold
      exact ⟨p, r, hr, h.tracked.ticketed hticket hheld, rfl⟩

/-- Who is told to wait has a request that waits, whether it is an earlier one or a new one. -/
theorem Sound.queued_waits (h : s.Sound requests coupons) {minted : Except Refusal RequestId}
    {t : Ticket} (hqueued : (s.issue o c minted).2 = .ok (.queued t)) :
    ∃ p, ∃ r ∈ (s.issue o c minted).1.queue.requests p, r.key = (o, c) ∧
      t = ⟨r.id, .pending, none⟩ := by
  have hspec := issue_spec s o c minted
  generalize s.issue o c minted = issued at hspec hqueued ⊢
  cases hspec with
  | answered hanswer =>
    subst hqueued
    exact h.waits_of_answer hanswer
  | unnamed => cases hqueued
  | turnedAway => cases hqueued
  | rejected => cases hqueued
  | @queued id queue _ _ hqueue =>
    cases hqueued
    refine ⟨queue.partitionOf c, ⟨id, c, o, s.now⟩, ?_, rfl, rfl⟩
    show _ ∈ queue.requests _
    rw [Queue.requests_enqueue hqueue]
    apply List.mem_append_right
    rw [if_pos (Queue.partitionOf_congr (Queue.partitions_enqueue hqueue) c).symm]
    exact List.mem_singleton_self _

end CouponIssuance.Service
