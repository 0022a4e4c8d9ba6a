import CouponIssuance.Proofs.Service.Twin
/-!
# What twins answer

Every call is answered alike by two services that are twins, and a caller who waits for the end of a
request is told the same by both, since the same is done to the records of both meanwhile.
-/
namespace CouponIssuance

/-- The status store after several actions at one instant. -/
def StatusStore.afterAll (s : StatusStore) (now : Millis) (actions : List StatusAction) : StatusStore :=
  actions.foldl (fun s a => (s.act now a).1) s

theorem StatusStore.follow_at_once (s : StatusStore) (now : Millis) (actions : List StatusAction)
    (others : Schedule) : (s.follow now (actions.map (fun a => (0, a)) ++ others)).1 =
      ((s.afterAll now actions).follow now others).1 := by
  induction actions generalizing s with
  | nil => rfl
  | cons a actions ih => exact ih _

namespace Stores

/-- What is done to the record of a request that is taken. -/
def processActions (s : Stores) (now : Millis) (r : IssuanceRequest) (resolution : Resolution) :
    List StatusAction :=
  .advance r.id .processing ::
    if (s.status.advance now r.id .processing).isOk then [.resolve r.id resolution] else []

private theorem status_process {s : Stores} {now : Millis} {r : IssuanceRequest}
    (work : Stores → Stores × Resolution)
    (hw : ∀ status, work { s with status := status } =
      ({ (work s).1 with status := status }, (work s).2)) :
    (s.process now r work).status =
      s.status.afterAll now (s.processActions now r (work s).2) := by
  cases hadvance : s.status.advance now r.id .processing with
  | error why =>
    have hact : (s.status.act now (.advance r.id .processing)).1 = s.status := by
      simp only [StatusStore.act, hadvance]
    simp only [process, processActions, hadvance]
    exact hact.symm
  | ok moved =>
    have hact : (s.status.act now (.advance r.id .processing)).1 = moved.1 := by
      simp only [StatusStore.act, hadvance]
    simp only [process, processActions, hadvance, StatusStore.afterAll, Except.isOk, Except.toBool,
      if_true, List.foldl_cons, List.foldl_nil, hact]
    rw [hw moved.1]
    simp only [conclude, StatusStore.act]
    cases moved.1.resolve now r.id (work s).2 <;> rfl

end Stores

namespace Service

/-- Two services that answer every call alike, but for the number of requests that are tracked. -/
structure SameAnswers (s t : Service) : Prop where
  issue : ∀ o c minted, (t.issue o c minted).2 = (s.issue o c minted).2
  status : ∀ id, t.status id = s.status id
  stock : ∀ c, t.stock c = s.stock c
  initializeStock : ∀ c, (t.initializeStock c).2 = (s.initializeStock c).2
  register : ∀ draft, (t.register draft).2 = (s.register draft).2
  campaign : ∀ c, t.campaign c = s.campaign c
  available : t.available = s.available
  couponsOf : ∀ o, t.couponsOf o = s.couponsOf o
  redeem : ∀ o id order orderId, (t.redeem o id order orderId).2 = (s.redeem o id order orderId).2
  validate : ∀ o id order, t.validate o id order = s.validate o id order
  systemStatus : { t.systemStatus with trackedRequests := s.systemStatus.trackedRequests } =
    s.systemStatus

variable {s t : Service} {status : StatusStore} {tickets : TicketIndex} {requests : List RequestId}
  {coupons : List CouponId} {e : Event} {events more : List Event}

theorem Twin.sameAnswers (h : s.Twin t) : s.SameAnswers t := by
  obtain @⟨status, tickets, h⟩ := h
  refine {
    issue := fun o c minted => issue_answer_withRecords h minted
    status := fun id => ?_
    stock := fun c => rfl
    initializeStock := fun c => by rw [initializeStock_withRecords]
    register := fun draft => by rw [register_withRecords]
    campaign := fun c => rfl
    available := rfl
    couponsOf := fun o => rfl
    redeem := fun o id order orderId => by rw [redeem_withRecords]
    validate := fun o id order => rfl
    systemStatus := rfl }
  have hget : (s.withRecords status tickets).stores.status.get (s.withRecords status tickets).now id =
      s.stores.status.get s.now id := h.agree.get id
  rw [Service.status, hget, Service.status]

/-- What an event does to the status store, action by action. -/
def statusActions (s : Service) : Event → List StatusAction
  | .issue o c (.ok id) =>
    let record := StatusRecord.pending id c o s.now
    if (s.answer? o c).isSome then []
    else if s.stores.ledger.peek c = some 0 then [.put (record.resolved .soldOut s.now)]
    else if (s.submit ⟨id, c, o, s.now⟩).isOk then [.put record]
    else [.put record, .remove id]
  | .turn p minted =>
    match s.takes (.turn p minted) with
    | none => []
    | some r => s.stores.processActions s.now r
      (if s.cancelled then .failed Stores.abandonment else (s.stores.attempt s.now r minted).2)
  | .sweep => [.purge]
  | _ => []

private theorem status_issue (o : RequesterId) (c : CampaignId) (minted : Except Refusal RequestId) :
    (s.issue o c minted).1.stores.status =
      s.stores.status.afterAll s.now (s.statusActions (.issue o c minted)) := by
  cases hanswer : s.answer? o c with
  | some answer =>
    simp only [issue, hanswer]
    cases minted with
    | error why => rfl
    | ok id => simp only [statusActions, hanswer]; rfl
  | none =>
    cases minted with
    | error why => simp only [issue, hanswer]; rfl
    | ok id =>
      simp only [issue, hanswer, takeIn, statusActions, Option.isSome_none, Bool.false_eq_true,
        if_false]
      split
      · rfl
      · rw [submit_keep]
        cases hsubmit : s.submit ⟨id, c, o, s.now⟩ with
        | ok queued =>
          obtain ⟨queue, -, rfl⟩ := submit_eq_ok hsubmit
          rfl
        | error why => rfl

theorem status_turn (p : Nat) (minted : Except Refusal CouponId) :
    (s.turn p minted).stores.status =
      s.stores.status.afterAll s.now (s.statusActions (.turn p minted)) := by
  simp only [turn, Office.turn, statusActions, takes]
  cases hd : s.queue.dequeue p with
  | mk queue taken =>
    cases taken with
    | request r =>
      cases s.cancelled with
      | true => exact Stores.status_process (fun s => (s, _)) fun _ => rfl
      | false => exact Stores.status_process (·.attempt s.now r minted) Stores.attempt_with_status
    | _ => rfl

/-- These actions are all that is done to the status store. -/
theorem status_step (e : Event) :
    (s.step e).stores.status = s.stores.status.afterAll s.now (s.statusActions e) := by
  cases e with
  | issue o c minted => exact status_issue o c minted
  | turn p minted => exact status_turn p minted
  | sweep => rfl
  | _ => exact (records_step rfl).1

private theorem statusActions_withRecords (h : s.stores.StandIn s.now status tickets) (e : Event) :
    (s.withRecords status tickets).statusActions e = s.statusActions e := by
  cases e with
  | issue o c minted =>
    cases minted with
    | error why => rfl
    | ok id =>
      have hledger : (s.withRecords status tickets).stores.ledger = s.stores.ledger := rfl
      have hnow : (s.withRecords status tickets).now = s.now := rfl
      have hok : ((s.withRecords status tickets).submit ⟨id, c, o, s.now⟩).isOk =
          (s.submit ⟨id, c, o, s.now⟩).isOk := by
        rw [submit_withRecords]
        cases s.submit ⟨id, c, o, s.now⟩ <;> rfl
      simp only [statusActions, answer?_withRecords h, hledger, hnow, hok]
  | turn p minted =>
    have htakes : (s.withRecords status tickets).takes (.turn p minted) = s.takes (.turn p minted) :=
      rfl
    simp only [statusActions, htakes]
    cases s.takes (.turn p minted) with
    | none => rfl
    | some r =>
      have hadvance : (status.advance s.now r.id .processing).isOk =
          (s.stores.status.advance s.now r.id .processing).isOk := by
        have halike := h.agree.advance r.id .processing
        generalize s.stores.status.advance s.now r.id .processing = moved,
          status.advance s.now r.id .processing = moved' at halike
        cases halike <;> rfl
      show (s.stores.withRecords status tickets).processActions s.now r (if s.cancelled then _ else
        ((s.stores.withRecords status tickets).attempt s.now r minted).2) = _
      rw [Stores.attempt_withRecords]
      simp only [Stores.processActions]
      rw [← hadvance]
      rfl
  | _ => rfl

theorem Twin.statusActions (h : s.Twin t) (e : Event) : t.statusActions e = s.statusActions e := by
  obtain ⟨h⟩ := h
  exact statusActions_withRecords h e

theorem Twin.now (h : s.Twin t) : t.now = s.now := by
  obtain ⟨h⟩ := h
  rfl

theorem Twin.status_follow (h : s.Twin t) (hs : s.Sound requests coupons)
    (ht : t.Sound requests coupons) (hfresh : Fresh requests coupons events)
    (hsame : t.stores.status = s.stores.status) :
    (t.follow events).stores.status = (s.follow events).stores.status := by
  induction events generalizing s t requests coupons with
  | nil => exact hsame
  | cons e events ih =>
    apply ih (h.step hs ht hfresh) (hs.step hfresh).2 (ht.step hfresh).2 hfresh.tail
    rw [status_step, status_step, h.statusActions, h.now, hsame]

theorem SameAnswers.systemStatus_eq (h : s.SameAnswers t) (hsame : t.stores.status = s.stores.status) :
    t.systemStatus = s.systemStatus := by
  have hcount : t.systemStatus.trackedRequests = s.systemStatus.trackedRequests :=
    congrArg StatusStore.size hsame
  have hothers := h.systemStatus
  rw [← hcount] at hothers
  exact hothers

/-- What these events do to the status store, each action with the time since the one before. The
last before them was at `since`. -/
def schedule (since : Millis) (s : Service) : List Event → StatusStore.Schedule
  | [] => []
  | e :: rest =>
    match s.statusActions e with
    | [] => schedule since (s.step e) rest
    | a :: actions =>
      (s.now - since, a) :: actions.map (fun a => (0, a)) ++ schedule s.now (s.step e) rest

theorem Twin.schedule (h : s.Twin t) (hs : s.Sound requests coupons) (ht : t.Sound requests coupons)
    (hfresh : Fresh requests coupons events) (since : Millis) :
    t.schedule since events = s.schedule since events := by
  induction events generalizing s t requests coupons since with
  | nil => rfl
  | cons e events ih =>
    have hnext := ih (h.step hs ht hfresh) (hs.step hfresh).2 (ht.step hfresh).2 hfresh.tail
    simp only [Service.schedule, h.statusActions, h.now, hnext]

/-- Who asks twins for a status is told the same at the same instant, while these events happen. -/
theorem Twin.statusBy (h : s.Twin t) (hs : s.Sound requests coupons) (ht : t.Sound requests coupons)
    (hfresh : Fresh requests coupons events) (size : Nat) (id : RequestId) (asked : Option Millis) :
    t.statusBy size id asked (t.schedule t.now events) =
      s.statusBy size id asked (s.schedule s.now events) := by
  have hschedule := h.schedule hs ht hfresh s.now
  have hstatus := h.sameAnswers.status id
  obtain @⟨status, tickets, h⟩ := h
  simp only [Service.statusBy, hstatus]
  split
  · rfl
  · next wait _ =>
    have hawait : status.await size id s.now (min wait s.settings.maxStatusWaitMs.toNat)
        ((s.withRecords status tickets).schedule s.now events) = s.stores.status.await size id s.now
          (min wait s.settings.maxStatusWaitMs.toNat) (s.schedule s.now events) := by
      rw [hschedule, h.agree.await]
    exact congrArg (fun waited : StatusStore.Waited =>
      ((waited.record.elim (.error (.requestNotFound id)) .ok : Except Refusal StatusRecord),
        waited.endedAt)) hawait

end Service
end CouponIssuance
