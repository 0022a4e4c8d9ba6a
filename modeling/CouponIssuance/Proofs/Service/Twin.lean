import CouponIssuance.Proofs.Service.Follow
import CouponIssuance.Proofs.Service.Records
import CouponIssuance.Proofs.Status.Agreement
/-!
# Services that nobody can tell apart

Records that are not shown, and tickets that keep nobody from asking again, make no difference to
callers. Two services that differ only in those give the same answers, and after any event they
still differ only in those.
-/
namespace CouponIssuance

namespace Stores

/-- The stores with other records and tickets. -/
def withRecords (s : Stores) (status : StatusStore) (tickets : TicketIndex) : Stores :=
  { s with status := status, tickets := tickets }

/-- The record of a request is shown, and keeps its requester from asking again. -/
def Blocks (s : Stores) (now : Millis) (id : RequestId) : Prop :=
  ∃ record, s.status.get now id = some record ∧ record.state.blocksReadmission = true

/-- Records and tickets that can stand in for those of the stores. -/
structure StandIn (s : Stores) (now : Millis) (status : StatusStore) (tickets : TicketIndex) :
    Prop where
  agree : s.status.Agree now status
  ticket : ∀ {key id}, s.Blocks now id →
    (tickets.current key = some id ↔ s.tickets.current key = some id)

section StandIn

variable {s : Stores} {now : Millis} {status : StatusStore} {tickets : TicketIndex}
  {r : IssuanceRequest} {minted : Except Refusal CouponId}

theorem Blocks.earlier {id : RequestId} {later : Millis} (h : s.Blocks later id) (hle : now ≤ later) :
    s.Blocks now id := by
  obtain ⟨record, hget, hblocks⟩ := h
  obtain ⟨e, hheld, hshown, rfl⟩ := StatusStore.get_eq_some_iff.1 hget
  refine ⟨e.record, StatusStore.get_eq_some_iff.2 ⟨e, hheld, ?_, rfl⟩, hblocks⟩
  cases hx : e.isExpired s.status.ttl now with
  | false => rfl
  | true => exact absurd (StatusEntry.isExpired_mono hle hx) (by simp [hshown])

theorem StandIn.later (h : s.StandIn now status tickets) {later : Millis} (hle : now ≤ later) :
    s.StandIn later status tickets :=
  ⟨h.agree.later hle, fun hblocks => h.ticket (hblocks.earlier hle)⟩

theorem attempt_withRecords : (s.withRecords status tickets).attempt now r minted =
    ((s.attempt now r minted).1.withRecords status tickets, (s.attempt now r minted).2) := by
  have hreserve : (s.withRecords status tickets).reserve now r = s.reserve now r := rfl
  have hrecord : (s.withRecords status tickets).recordCoupon now r minted =
      s.recordCoupon now r minted := rfl
  simp only [attempt, hreserve, hrecord]
  split
  · rfl
  · split <;> rfl

end StandIn
end Stores

namespace Service

/-- The service with other records and tickets. -/
def withRecords (s : Service) (status : StatusStore) (tickets : TicketIndex) : Service :=
  s.withStores (s.stores.withRecords status tickets)

/-- The same service, but for records and tickets that can stand in for its own. -/
inductive Twin (s : Service) : Service → Prop
  | mk {status tickets} (h : s.stores.StandIn s.now status tickets) :
      Twin s (s.withRecords status tickets)

variable {s t : Service} {status : StatusStore} {tickets : TicketIndex} {requests : List RequestId}
  {coupons : List CouponId} {e : Event} {events : List Event} {o : RequesterId} {c : CampaignId} {id : RequestId}

section Aside

variable (s status tickets)

private theorem withRecords_self : s.withRecords s.stores.status s.stores.tickets = s := rfl

theorem initializeStock_withRecords (c : CampaignId) :
    (s.withRecords status tickets).initializeStock c =
      ((s.initializeStock c).1.withRecords status tickets, (s.initializeStock c).2) := by
  have hcatalog : (s.withRecords status tickets).stores.catalog = s.stores.catalog := rfl
  have hlive : (s.withRecords status tickets).settings = s.settings := rfl
  have hqueue : (s.withRecords status tickets).queue = s.queue := rfl
  simp only [initializeStock, hcatalog, hlive, hqueue, Queue.whenIdle]
  split
  · rfl
  · split
    · rfl
    · by_cases hidle : s.queue.inFlight c = 0
      · simp only [hidle, if_true]
        rfl
      · simp only [hidle, if_false]

theorem register_withRecords (draft : CampaignDraft) :
    (s.withRecords status tickets).register draft =
      ((s.register draft).1.withRecords status tickets, (s.register draft).2) := by
  have hcatalog : (s.withRecords status tickets).stores.catalog = s.stores.catalog := rfl
  have hledger : (s.withRecords status tickets).stores.ledger = s.stores.ledger := rfl
  have hsettings : (s.withRecords status tickets).settings = s.settings := rfl
  have hnow : (s.withRecords status tickets).now = s.now := rfl
  simp only [register, hcatalog, hledger, hsettings, hnow]
  split
  · rfl
  · split <;> rfl

theorem redeem_withRecords (o : RequesterId) (coupon : CouponId) (order : UInt64)
    (orderId : Option String) :
    (s.withRecords status tickets).redeem o coupon order orderId =
      ((s.redeem o coupon order orderId).1.withRecords status tickets,
        (s.redeem o coupon order orderId).2) := by
  have hcampaign : (s.withRecords status tickets).campaignOf coupon = s.campaignOf coupon := rfl
  have hbook : (s.withRecords status tickets).stores.coupons = s.stores.coupons := rfl
  have hnow : (s.withRecords status tickets).now = s.now := rfl
  simp only [redeem, hcampaign, hbook, hnow]
  split <;> rfl

/-- Whether an event looks at records and tickets, or changes them. -/
def readsRecords : Event → Bool
  | .issue .. | .turn .. | .sweep => true
  | _ => false

private theorem step_withRecords (he : readsRecords e = false) :
    (s.withRecords status tickets).step e = (s.step e).withRecords status tickets := by
  cases e with
  | issue => cases he
  | turn => cases he
  | sweep => cases he
  | initializeStock c => exact congrArg Prod.fst (initializeStock_withRecords s status tickets c)
  | register draft => exact congrArg Prod.fst (register_withRecords s status tickets draft)
  | redeem o id order orderId =>
    exact congrArg Prod.fst (redeem_withRecords s status tickets o id order orderId)
  | wait => rfl
  | close => rfl
  | cancel =>
    show (if s.queue.closed = true then _ else _) = _
    simp only [Service.step]
    split <;> rfl
  | sendStop p =>
    show (if s.cancelled = true then _ else _) = _
    simp only [Service.step]
    split <;> rfl

end Aside

theorem records_step (he : readsRecords e = false) :
    (s.step e).stores.status = s.stores.status ∧ (s.step e).stores.tickets = s.stores.tickets := by
  have hself := step_withRecords s s.stores.status s.stores.tickets he
  rw [withRecords_self] at hself
  constructor <;> rw [hself] <;> rfl

private theorem Twin.step_aside (h : s.stores.StandIn s.now status tickets) (he : readsRecords e = false)
    (hnow : s.now ≤ (s.step e).now) :
    (s.step e).Twin ((s.withRecords status tickets).step e) := by
  obtain ⟨hstatus, htickets⟩ := records_step (s := s) he
  have hlater := h.later hnow
  rw [step_withRecords s status tickets he]
  refine .mk ⟨hstatus ▸ hlater.agree, fun hblocks => ?_⟩
  rw [Stores.Blocks, hstatus] at hblocks
  rw [htickets]
  exact hlater.ticket hblocks

private theorem liveRecord_withRecords (h : s.stores.StandIn s.now status tickets) (key : TicketKey) :
    (s.withRecords status tickets).liveRecord key = s.liveRecord key := by
  have hiff {u : Service} {record : StatusRecord} : u.liveRecord key = some record ↔
      ∃ id, u.stores.tickets.current key = some id ∧ u.stores.status.get u.now id = some record ∧
        record.state.blocksReadmission = true := by
    simp only [liveRecord, Option.filter_eq_some_iff, Option.bind_eq_some_iff]
    constructor
    · rintro ⟨⟨id, hticket, hget⟩, hblocks⟩
      exact ⟨id, hticket, hget, hblocks⟩
    · rintro ⟨id, hticket, hget, hblocks⟩
      exact ⟨⟨id, hticket, hget⟩, hblocks⟩
  apply Option.ext
  intro record
  rw [hiff, hiff]
  apply exists_congr
  intro id
  show (tickets.current key = some id ∧ status.get s.now id = some record ∧ _) ↔ _
  rw [h.agree.get]
  constructor
  · rintro ⟨hticket, hget, hblocks⟩
    exact ⟨(h.ticket ⟨record, hget, hblocks⟩).1 hticket, hget, hblocks⟩
  · rintro ⟨hticket, hget, hblocks⟩
    exact ⟨(h.ticket ⟨record, hget, hblocks⟩).2 hticket, hget, hblocks⟩

theorem answer?_withRecords (h : s.stores.StandIn s.now status tickets) (o : RequesterId)
    (c : CampaignId) : (s.withRecords status tickets).answer? o c = s.answer? o c := by
  have hqueue : (s.withRecords status tickets).queue = s.queue := rfl
  have hactive : (s.withRecords status tickets).stores.activeCampaign c
      (s.withRecords status tickets).now = s.stores.activeCampaign c s.now := rfl
  have hbook : (s.withRecords status tickets).stores.coupons = s.stores.coupons := rfl
  simp only [answer?, hqueue, hactive, hbook, liveRecord_withRecords h]

/-- A new name is in no record and in no ticket. -/
structure Unnamed (s : Service) (id : RequestId) : Prop where
  unheld : s.stores.status.held? id = none
  unticketed : ∀ key, s.stores.tickets.current key ≠ some id

theorem Sound.unnamed (h : s.Sound requests coupons) (hid : id ∉ requests) : s.Unnamed id :=
  ⟨h.unheld hid, fun _ ht => hid (h.named.ticket ht)⟩

private theorem keep_standIn (h : s.stores.StandIn s.now status tickets) {r : StatusRecord}
    (hs : s.Unnamed r.request) (ht : (s.withRecords status tickets).Unnamed r.request) :
    (s.keep r).stores.StandIn s.now (status.put s.now r)
      (tickets.set (r.requester, r.campaign) r.request) where
  agree := h.agree.put r
  ticket := by
    intro key id hblocks
    show (tickets.set _ _).current key = some id ↔ (s.stores.tickets.set _ _).current key = some id
    rw [TicketIndex.current_set, TicketIndex.current_set]
    split
    · exact Iff.rfl
    · by_cases hid : r.request = id
      · subst hid
        exact iff_of_false (ht.unticketed key) (hs.unticketed key)
      · obtain ⟨record, hget, hstate⟩ := hblocks
        refine h.ticket ⟨record, ?_, hstate⟩
        rw [StatusStore.get_eq_some_iff] at hget ⊢
        obtain ⟨e, hheld, hrest⟩ := hget
        change (s.stores.status.put s.now r).held? id = some e at hheld
        rw [StatusStore.held?_put, if_neg hid] at hheld
        exact ⟨e, hheld, hrest⟩

private theorem withdraw_standIn (h : s.stores.StandIn s.now status tickets) (key : TicketKey)
    (id : RequestId) :
    ({ s.stores with tickets := (s.stores.tickets.set key id).clear key id } : Stores).StandIn s.now
      status ((tickets.set key id).clear key id) where
  agree := h.agree
  ticket := by
    intro key' id' hblocks
    rw [TicketIndex.current_clear_set, TicketIndex.current_clear_set]
    split
    · exact Iff.rfl
    · exact h.ticket hblocks

theorem submit_withRecords (r : IssuanceRequest) :
    (s.withRecords status tickets).submit r =
      (s.submit r).map fun s' => s'.withRecords status tickets := by
  have hcancelled : (s.withRecords status tickets).cancelled = s.cancelled := rfl
  have hqueue : (s.withRecords status tickets).queue = s.queue := rfl
  simp only [submit, hcancelled, hqueue]
  split
  · rfl
  · cases s.queue.enqueue r <;> rfl

theorem submit_keep (record : StatusRecord) (r : IssuanceRequest) : (s.keep record).submit r =
    (s.submit r).map fun s' => s'.withRecords (s.stores.status.put s.now record)
      (s.stores.tickets.set (record.requester, record.campaign) record.request) :=
  submit_withRecords r

private theorem keep_withRecords (record : StatusRecord) : (s.withRecords status tickets).keep record =
    (s.keep record).withRecords (status.put s.now record)
      (tickets.set (record.requester, record.campaign) record.request) := rfl

private theorem takeIn_withRecords (h : s.stores.StandIn s.now status tickets) (hs : s.Unnamed id)
    (ht : (s.withRecords status tickets).Unnamed id) :
    (s.takeIn o c id).1.Twin ((s.withRecords status tickets).takeIn o c id).1 := by
  have hledger : (s.withRecords status tickets).stores.ledger = s.stores.ledger := rfl
  have hnow : (s.withRecords status tickets).now = s.now := rfl
  simp only [takeIn, hledger, hnow]
  split
  · exact .mk (keep_standIn h hs ht)
  · rw [keep_withRecords, submit_withRecords]
    cases hsubmit : (s.keep (.pending id c o s.now)).submit ⟨id, c, o, s.now⟩ with
    | ok queued =>
      obtain ⟨queue, -, rfl⟩ := submit_eq_ok hsubmit
      exact .mk (keep_standIn h hs ht)
    | error why =>
      simp only [Except.map]
      rw [← keep_withRecords, withdraw_keep hs.unheld, withdraw_keep ht.unheld]
      exact .mk (withdraw_standIn h (o, c) id)

private theorem issue_withRecords (h : s.stores.StandIn s.now status tickets)
    {minted : Except Refusal RequestId} (hs : ∀ id, minted = .ok id → s.Unnamed id)
    (ht : ∀ id, minted = .ok id → (s.withRecords status tickets).Unnamed id) :
    (s.issue o c minted).1.Twin ((s.withRecords status tickets).issue o c minted).1 := by
  simp only [issue, answer?_withRecords h]
  cases s.answer? o c with
  | some answer => exact .mk h
  | none =>
    cases minted with
    | error why => exact .mk h
    | ok id => exact takeIn_withRecords h (hs id rfl) (ht id rfl)

/-- Who asks for a coupon is told the same, whatever the name. -/
theorem issue_answer_withRecords (h : s.stores.StandIn s.now status tickets)
    (minted : Except Refusal RequestId) :
    ((s.withRecords status tickets).issue o c minted).2 = (s.issue o c minted).2 := by
  have hledger : (s.withRecords status tickets).stores.ledger = s.stores.ledger := rfl
  have hnow : (s.withRecords status tickets).now = s.now := rfl
  simp only [issue, answer?_withRecords h]
  cases s.answer? o c with
  | some answer => rfl
  | none =>
    cases minted with
    | error why => rfl
    | ok id =>
      simp only [takeIn, hledger, hnow]
      split
      · rfl
      · rw [keep_withRecords, submit_withRecords]
        cases (s.keep _).submit _ <;> rfl

private theorem conclude_standIn (h : s.stores.StandIn s.now status tickets) {r : IssuanceRequest}
    (hwaits : s.stores.status.held? r.id = some r.entry) {stores : Stores}
    (htickets : stores.tickets = s.stores.tickets) (resolution : Resolution) :
    ({ stores with
        status := s.stores.status.put s.now (r.record.resolved resolution s.now) } : Stores).StandIn
      s.now (status.put s.now (r.record.resolved resolution s.now)) tickets where
  agree := h.agree.put _
  ticket := by
    rintro key id ⟨record, hget, hblocks⟩
    show _ ↔ stores.tickets.current key = some id
    rw [htickets]
    apply h.ticket
    by_cases hid : r.id = id
    · subst hid
      exact ⟨r.record, StatusStore.get_of_unresolved hwaits, rfl⟩
    · refine ⟨record, ?_, hblocks⟩
      obtain ⟨e, hheld, hrest⟩ := StatusStore.get_eq_some_iff.1 hget
      change (s.stores.status.put s.now _).held? id = some e at hheld
      rw [Stores.held?_put_resolved, if_neg hid] at hheld
      exact StatusStore.get_eq_some_iff.2 ⟨e, hheld, hrest⟩

private theorem turn_withRecords (h : s.stores.StandIn s.now status tickets) {p : Nat}
    {minted : Except Refusal CouponId}
    (hwaits : ∀ r, s.takes (.turn p minted) = some r →
      s.stores.status.held? r.id = some r.entry) :
    (s.turn p minted).Twin ((s.withRecords status tickets).turn p minted) := by
  have hqueue : (s.withRecords status tickets).queue = s.queue := rfl
  have hcancelled : (s.withRecords status tickets).cancelled = s.cancelled := rfl
  have hnow : (s.withRecords status tickets).now = s.now := rfl
  have hstores : (s.withRecords status tickets).stores = s.stores.withRecords status tickets := rfl
  simp only [turn, Office.turn, hqueue, hcancelled, hnow, hstores]
  cases hd : s.queue.dequeue p with
  | mk queue taken =>
    cases taken with
    | request r =>
      have hheld := hwaits r (by simp [takes, hd])
      have hshown : s.stores.status.shown? s.now r.id = some r.entry :=
        StatusStore.shown?_of_unresolved hheld rfl
      have hheld' : status.held? r.id = some r.entry :=
        (StatusStore.shown?_eq_some_iff.1 ((h.agree.shown r.id).trans hshown)).1
      cases s.cancelled with
      | true =>
        simp only [if_true]
        rw [Stores.abandon_of_pending s.now hheld rfl rfl,
          Stores.abandon_of_pending (s := s.stores.withRecords status tickets) s.now hheld' rfl rfl]
        exact .mk (conclude_standIn h hheld rfl _)
      | false =>
        simp only [Bool.false_eq_true, if_false]
        rw [Stores.dispatch_of_pending s.now hheld rfl rfl,
          Stores.dispatch_of_pending (s := s.stores.withRecords status tickets) s.now hheld' rfl rfl,
          Stores.attempt_withRecords]
        have hself : s.stores.attempt s.now r minted =
            ((s.stores.attempt s.now r minted).1.withRecords s.stores.status s.stores.tickets, _) :=
          Stores.attempt_withRecords
        have htickets := congrArg (fun x => x.1.tickets) hself
        exact .mk (conclude_standIn h hheld htickets _)
    | _ => exact .mk h

private theorem Blocks.of_sweep {id : RequestId} (h : (s.stores.sweep s.now).Blocks s.now id) :
    s.stores.Blocks s.now id := by
  obtain ⟨record, hget, hblocks⟩ := h
  refine ⟨record, ?_, hblocks⟩
  rw [← hget]
  exact congrArg (Option.map StatusEntry.record) (StatusStore.shown?_purge id).symm

/-- A sweep drops no ticket of a request that blocks its requester. -/
private theorem current_prune_of_blocks (h : s.stores.Blocks s.now id) {status : StatusStore}
    (hagree : s.stores.status.Agree s.now status) (tickets : TicketIndex) (key : TicketKey) :
    (tickets.prune fun id => (status.purge s.now).1.contains s.now id).1.current key = some id ↔
      tickets.current key = some id := by
  obtain ⟨record, hget, -⟩ := h
  have hkept : (status.purge s.now).1.get s.now id = some record := by
    rw [← hget]
    exact congrArg (Option.map StatusEntry.record)
      ((StatusStore.shown?_purge id).trans (hagree.shown id))
  rw [TicketIndex.current_prune, Option.filter_eq_some_iff]
  simp [StatusStore.contains, hkept]

theorem Twin.sweep (h : s.Twin t) : s.sweep.Twin t.sweep := by
  obtain ⟨h⟩ := h
  refine .mk ⟨h.agree.purge, fun hblocks => ?_⟩
  have hbefore := Blocks.of_sweep hblocks
  exact (current_prune_of_blocks hbefore h.agree _ _).trans
    ((h.ticket hbefore).trans (current_prune_of_blocks hbefore (h.agree.lasting.agree_self _) _ _).symm)

/-- What ends is dated, and only that. -/
theorem Sound.lasting (h : s.Sound requests coupons) : s.stores.status.Lasting := by
  intro id e hheld hresolved
  obtain ⟨-, ⟨p, r, -, rfl⟩ | hsettled⟩ := h.tracked.held hheld
  · cases hresolved
  · exact hsettled.terminal

/-- Nobody can tell a service from itself after a sweep. -/
theorem Sound.twin_sweep (h : s.Sound requests coupons) : s.Twin s.sweep :=
  .mk ⟨h.lasting.agree_purge s.now, fun hblocks =>
    current_prune_of_blocks hblocks (h.lasting.agree_self _) s.stores.tickets _⟩

/-- Twins stay twins whatever happens to both. -/
theorem Twin.step (h : s.Twin t) (hs : s.Sound requests coupons) (ht : t.Sound requests coupons)
    (hfresh : Fresh requests coupons (e :: events)) : (s.step e).Twin (t.step e) := by
  have hmove := (hs.step hfresh).1
  have htwin := h
  obtain ⟨h⟩ := h
  cases e with
  | issue o c minted =>
    refine issue_withRecords h ?_ ?_
    · rintro id rfl
      exact hs.unnamed (hfresh.request rfl)
    · rintro id rfl
      exact ht.unnamed (hfresh.request rfl)
  | turn p minted =>
    refine turn_withRecords h fun r htakes => ?_
    obtain ⟨q, hr⟩ := hmove.waits_of_takes htakes
    exact (hs.tracked.waiting hr).held
  | sweep => exact htwin.sweep
  | _ => exact .step_aside h rfl hmove.now_le

theorem Twin.follow (h : s.Twin t) (hs : s.Sound requests coupons) (ht : t.Sound requests coupons)
    {more : List Event} (hfresh : Fresh requests coupons (events ++ more)) :
    ∃ requests' coupons', (s.follow events).Twin (t.follow events) ∧
      (s.follow events).Sound requests' coupons' ∧ (t.follow events).Sound requests' coupons' ∧
      Fresh requests' coupons' more := by
  induction events generalizing s t requests coupons with
  | nil => exact ⟨requests, coupons, h, hs, ht, hfresh⟩
  | cons e events ih =>
    exact ih (h.step hs ht hfresh) (hs.step hfresh).2 (ht.step hfresh).2 hfresh.tail

end Service
end CouponIssuance
