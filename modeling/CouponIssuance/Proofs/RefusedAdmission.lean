import CouponIssuance.Proofs.Service.Admission
import CouponIssuance.Proofs.Service.Answers
/-!
# A refused admission leaves no trace

A call for a coupon that is refused leaves the stores and the queue as they were, whatever it was
refused for and however far it had come. All that can be lost is the requester's own ticket, if it
kept the requester from nothing, and that is not noticed later.
-/
namespace CouponIssuance

namespace Service

/-- Nothing has changed but the ticket of this key, and that only if it is of a request without a
record that is shown or that has failed to win. -/
structure Untouched (s t : Service) (key : TicketKey) : Prop where
  catalog : t.stores.catalog = s.stores.catalog
  ledger : t.stores.ledger = s.stores.ledger
  coupons : t.stores.coupons = s.stores.coupons
  status : t.stores.status = s.stores.status
  queue : t.queue = s.queue
  settings : t.settings = s.settings
  now : t.now = s.now
  cancelled : t.cancelled = s.cancelled
  others : ∀ key', key' ≠ key → t.stores.tickets.current key' = s.stores.tickets.current key'
  ticket : t.stores.tickets.current key = s.stores.tickets.current key ∨
    t.stores.tickets.current key = none ∧ ∃ id, s.stores.tickets.current key = some id ∧
      ∀ record, s.status id = .ok record → record.state = .soldOut ∨ record.state = .failed

/-- What a call for a coupon of a campaign is refused for: the service is stopping, the campaign is not
known or not open, too many of its requests wait, its line is full, or no name could be minted. -/
inductive RefusedFor (s : Service) (c : CampaignId) (minted : Except Refusal RequestId) :
    Refusal → Prop
  | stopping (h : s.queue.closed = true ∨ s.cancelled = true ∨
      (s.queue.channel (s.queue.partitionOf c)).attended = false) : RefusedFor s c minted .shuttingDown
  | unlisted (h : s.campaign c = .error (.campaignNotFound c)) :
      RefusedFor s c minted (.campaignNotFound c)
  | inactive {campaign closure} (hlisted : s.campaign c = .ok campaign)
      (hclosed : campaign.window.closure? s.now = some closure) :
      RefusedFor s c minted (.campaignInactive c closure.message)
  | crowded (h : s.queue.limits.maxDepth ≤ s.queue.depth c) : RefusedFor s c minted
      (s.queue.overloaded s!"campaign {c} has {s.queue.limits.maxDepth} queued requests")
  | full (h : s.queue.isFull (s.queue.partitionOf c) = true) : RefusedFor s c minted
      (s.queue.overloaded s!"partition {s.queue.partitionOf c} is full")
  | unnamed {why} (h : minted = .error why) : RefusedFor s c minted why

variable {s t : Service} {requests : List RequestId} {coupons : List CouponId} {o : RequesterId}
  {c : CampaignId} {minted : Except Refusal RequestId} {why : Refusal} {events : List Event}

private theorem refusedFor_of_submit {r : IssuanceRequest} (h : s.submit r = .error why) :
    s.RefusedFor r.campaign minted why := by
  unfold submit at h
  split at h
  · next hcancelled =>
    cases h
    exact .stopping (.inr (.inl hcancelled))
  · cases hqueue : s.queue.enqueue r with
    | ok queue => simp [hqueue, bind, Except.bind, pure, Except.pure] at h
    | error why' =>
      simp only [hqueue, bind, Except.bind, Except.error.injEq] at h
      subst h
      rcases Queue.enqueue_eq_error hqueue with ⟨rfl, hclosed | hgone⟩ | ⟨rfl, hcrowded⟩ | ⟨rfl, hfull⟩
      · exact .stopping (.inl hclosed)
      · exact .stopping (.inr (.inr hgone))
      · exact .crowded hcrowded
      · exact .full hfull

private theorem Sound.refusedFor_of_answer (h : s.Sound requests coupons)
    (hanswer : s.answer? o c = some (.error why)) : s.RefusedFor c minted why := by
  unfold answer? at hanswer
  split at hanswer
  · next hclosed =>
    cases hanswer
    exact .stopping (.inl hclosed)
  · split at hanswer
    · next why' hactive =>
      cases hanswer
      cases hlisted : s.stores.catalog.campaigns.get? c with
      | none =>
        have hcampaign : s.campaign c = .error (.campaignNotFound c) := by
          simp only [campaign, Catalog.get, hlisted]
        simp only [Stores.activeCampaign, Catalog.get, hlisted, bind, Except.bind,
          Except.error.injEq] at hactive
        subst hactive
        exact .unlisted hcampaign
      | some listed =>
        have hcampaign : s.campaign c = .ok listed := by
          simp only [campaign, Catalog.get, hlisted]
        simp only [Stores.activeCampaign, Catalog.get, hlisted, bind, Except.bind,
          Campaign.ensureActive] at hactive
        cases hclosed : listed.window.closure? s.now with
        | none => simp [hclosed, pure, Except.pure] at hactive
        | some closure =>
          simp only [hclosed, Except.error.injEq, h.stocked.listed hlisted] at hactive
          subst hactive
          exact .inactive hcampaign hclosed
    · split at hanswer
      · cases hanswer
      · obtain ⟨record, -, hrecord⟩ := Option.map_eq_some_iff.1 hanswer
        cases hrecord

theorem Sound.refusedFor (h : s.Sound requests coupons)
    (hrefused : (s.issue o c minted).2 = .error why) : s.RefusedFor c minted why := by
  cases hanswer : s.answer? o c with
  | some answer =>
    simp only [issue, hanswer] at hrefused
    exact h.refusedFor_of_answer (hrefused ▸ hanswer)
  | none =>
    cases minted with
    | error why' =>
      simp only [issue, hanswer] at hrefused
      cases hrefused
      exact .unnamed rfl
    | ok id =>
      simp only [issue, hanswer, takeIn] at hrefused
      split at hrefused
      · cases hrefused
      · split at hrefused
        · cases hrefused
        · next hsubmit =>
          cases hrefused
          rw [submit_keep] at hsubmit
          cases hsame : s.submit ⟨id, c, o, s.now⟩ with
          | ok queued => simp [hsame, Except.map] at hsubmit
          | error why' =>
            simp only [hsame, Except.map, Except.error.injEq] at hsubmit
            subst hsubmit
            exact refusedFor_of_submit hsame

private theorem Sound.issue_refused (h : s.Sound requests coupons)
    (hnew : ∀ id, minted = .ok id → id ∉ requests)
    (hrefused : (s.issue o c minted).2 = .error why) :
    (s.issue o c minted).1 = s ∨ s.liveRecord (o, c) = none ∧
      ∃ id, (s.issue o c minted).1 = s.withRecords s.stores.status
        ((s.stores.tickets.set (o, c) id).clear (o, c) id) := by
  have hspec := issue_spec s o c minted
  generalize s.issue o c minted = issued at hspec hrefused
  cases hspec with
  | answered => exact .inl rfl
  | unnamed => exact .inl rfl
  | turnedAway => cases hrefused
  | queued => cases hrefused
  | @rejected id why' hanswer =>
    refine .inr ⟨(answer?_eq_none hanswer).2.2.2, id, ?_⟩
    have hunheld := h.unheld (hnew id rfl)
    exact withdraw_keep (by exact hunheld)

private theorem unblocked_of_no_liveRecord {key : TicketKey} (hfree : s.liveRecord key = none) {id : RequestId}
    (hticket : s.stores.tickets.current key = some id) {record : StatusRecord}
    (hrecord : s.stores.status.get s.now id = some record) : record.state.blocksReadmission = false := by
  simpa [liveRecord, hticket, hrecord] using hfree

private theorem Sound.untouched (h : s.Sound requests coupons)
    (hnew : ∀ id, minted = .ok id → id ∉ requests)
    (hrefused : (s.issue o c minted).2 = .error why) :
    s.Untouched (s.issue o c minted).1 (o, c) := by
  rcases h.issue_refused hnew hrefused with hsame | ⟨hfree, id, hleft⟩
  · rw [hsame]
    exact ⟨rfl, rfl, rfl, rfl, rfl, rfl, rfl, rfl, fun _ _ => rfl, .inl rfl⟩
  · rw [hleft]
    refine ⟨rfl, rfl, rfl, rfl, rfl, rfl, rfl, rfl, fun key' hkey => ?_, ?_⟩
    · show ((s.stores.tickets.set (o, c) id).clear (o, c) id).current key' = _
      rw [TicketIndex.current_clear_set, if_neg (Ne.symm hkey)]
    · have hgone : ((s.stores.tickets.set (o, c) id).clear (o, c) id).current (o, c) = none := by
        rw [TicketIndex.current_clear_set, if_pos rfl]
      cases hticket : s.stores.tickets.current (o, c) with
      | none => exact .inl hgone
      | some old =>
        refine .inr ⟨hgone, old, rfl, fun record hrecord => ?_⟩
        have hunblocked := unblocked_of_no_liveRecord hfree hticket (status_eq_ok_iff.1 hrecord)
        cases hstate : record.state <;> simp [hstate, RequestState.blocksReadmission] at hunblocked ⊢

private theorem Sound.twin_refused (h : s.Sound requests coupons)
    (hnew : ∀ id, minted = .ok id → id ∉ requests)
    (hrefused : (s.issue o c minted).2 = .error why) : s.Twin (s.issue o c minted).1 := by
  have hself := h.lasting.agree_self s.now
  rcases h.issue_refused hnew hrefused with hsame | ⟨hfree, id, hleft⟩
  · rw [hsame]
    exact .mk ⟨hself, fun _ => Iff.rfl⟩
  · rw [hleft]
    refine .mk ⟨hself, ?_⟩
    rintro key old ⟨record, hrecord, hblocks⟩
    rw [TicketIndex.current_clear_set]
    split
    · next hkey =>
      subst hkey
      refine iff_of_false (by simp) fun hticket => ?_
      rw [unblocked_of_no_liveRecord hfree hticket hrecord] at hblocks
      cases hblocks
    · exact Iff.rfl

theorem Sound.mono (h : s.Sound requests coupons) (more : List RequestId) :
    s.Sound (requests ++ more) coupons :=
  { h with named := List.append_nil coupons ▸ h.named.mono more [] }

theorem Sound.refused (h : s.Sound requests coupons) (hnew : ∀ id, minted = .ok id → id ∉ requests) :
    (s.issue o c minted).1.Sound (requests ++ minted.toOption.toList) coupons := by
  have hname : (Event.issue o c minted).request? = minted.toOption := by cases minted <;> rfl
  have hrequest : ∀ id, (Event.issue o c minted).request? = some id → id ∉ requests := by
    intro id hid
    apply hnew
    cases minted <;> cases hid
    rfl
  have hsound := h.move (h.move_step _ hrequest) hrequest (by rintro _ ⟨⟩)
  rw [hname] at hsound
  exact List.append_nil coupons ▸ hsound

end Service

namespace Run

/-- A call for a coupon that is refused, in whatever state of a run and for whatever reason, changes
nothing but perhaps the ticket of this requester and campaign, and it drops that only if its request
has no record that is shown or has not won. So whatever happens later, each call is answered as if
the refused one had not been made, at once or after waiting. -/
theorem refusal_untraced (run : Run) (n : Nat) {o : RequesterId} {c : CampaignId}
    {minted : Except Refusal RequestId} {why : Refusal}
    (hnew : ∀ id, minted = .ok id → id ∉ run.requestNames n)
    (hrefused : ((run.after n).issue o c minted).2 = .error why) :
    (run.after n).RefusedFor c minted why ∧
    (run.after n).Untouched ((run.after n).issue o c minted).1 (o, c) ∧
    ∀ events later, Service.Fresh (run.requestNames n ++ minted.toOption.toList) (run.couponNames n)
        (events ++ later) →
      ((run.after n).follow events).SameAnswers (((run.after n).issue o c minted).1.follow events) ∧
      (((run.after n).issue o c minted).1.follow events).systemStatus =
        ((run.after n).follow events).systemStatus ∧
      ∀ size id asked,
        let s := (run.after n).follow events
        let t := ((run.after n).issue o c minted).1.follow events
        t.statusBy size id asked (t.schedule t.now later) =
          s.statusBy size id asked (s.schedule s.now later) := by
  have hs := run.sound n
  refine ⟨hs.refusedFor hrefused, hs.untouched hnew hrefused, ?_⟩
  intro events later hfresh
  have hs' := hs.mono minted.toOption.toList
  have hleft := hs.refused (o := o) (c := c) hnew
  have htwin := hs.twin_refused hnew hrefused
  have hsame := (hs.untouched hnew hrefused).status
  obtain ⟨requests, coupons, htwins, hsound, hsound', hlater⟩ := htwin.follow hs' hleft hfresh
  have hstatus := htwin.status_follow hs' hleft hfresh.init hsame
  exact ⟨htwins.sameAnswers, htwins.sameAnswers.systemStatus_eq hstatus,
    fun size id asked => htwins.statusBy hsound hsound' hlater size id asked⟩

/-- A service whose one line has room for one request. -/
def narrow : { s : Service // Service.create ⟨fun _ => 0, fun _ => 0⟩
    { numWorkers := 1, partitionBuffer := 1, storeShards := 1, seeds := [(⟨1⟩, 1)],
      sound := by decide } 0 = .ok s } :=
  ⟨_, rfl⟩

/-- A request fails, and another one takes the only place in line. -/
def lineTaken : Run :=
  ⟨_, _, _, narrow.1, narrow.2,
    [.issue ⟨1⟩ ⟨1⟩ (.ok ⟨"a"⟩), .turn 0 (.error (.internal "no name")),
      .issue ⟨2⟩ ⟨1⟩ (.ok ⟨"b"⟩)], by decide, by decide⟩

theorem refusal_untraced_lineTaken :
    ((lineTaken.after 3).issue ⟨1⟩ ⟨1⟩ (.ok ⟨"c"⟩)).2 =
      .error (.overloaded "partition 0 is full" 1) ∧
    (lineTaken.after 3).stores.tickets.current (⟨1⟩, ⟨1⟩) = some ⟨"a"⟩ ∧
    ((lineTaken.after 3).issue ⟨1⟩ ⟨1⟩ (.ok ⟨"c"⟩)).1.stores.tickets.current (⟨1⟩, ⟨1⟩) = none ∧
    ((lineTaken.after 3).issue ⟨1⟩ ⟨1⟩ (.ok ⟨"c"⟩)).1.queue = (lineTaken.after 3).queue ∧
    ((((lineTaken.after 3).issue ⟨1⟩ ⟨1⟩ (.ok ⟨"c"⟩)).1.follow [.turn 0 (.error .shuttingDown)]).issue
      ⟨1⟩ ⟨1⟩ (.ok ⟨"d"⟩)).2 = .ok (.queued ⟨⟨"d"⟩, .pending, none⟩) := by
  have hrefused : ((lineTaken.after 3).issue ⟨1⟩ ⟨1⟩ (.ok ⟨"c"⟩)).2 =
      .error (.overloaded "partition 0 is full" 1) := by rfl
  have hnew : ∀ id, (.ok ⟨"c"⟩ : Except Refusal RequestId) = .ok id →
      id ∉ lineTaken.requestNames 3 := by
    rintro id ⟨⟩
    decide
  obtain ⟨-, huntouched, hsame⟩ := lineTaken.refusal_untraced 3 hnew hrefused
  have hlater := hsame [.turn 0 (.error .shuttingDown)] [] ⟨by decide, by decide⟩
  exact ⟨hrefused, by rfl, by rfl, huntouched.queue,
    (hlater.1.issue ⟨1⟩ ⟨1⟩ (.ok ⟨"d"⟩)).trans (by rfl)⟩

end Run
end CouponIssuance
