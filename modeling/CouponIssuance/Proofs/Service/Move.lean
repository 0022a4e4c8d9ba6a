import CouponIssuance.Proofs.Catalog
import CouponIssuance.Proofs.Run
import CouponIssuance.Proofs.Service.Sound
/-!
# What an event comes to

In a sound service an event comes to one of a few moves, each with the exact service it leads to.
All that is proved about runs is proved by cases of moves.
-/
namespace CouponIssuance.Service

/-- Whether a request taken off its line is attempted, and how it ends. -/
inductive Outcome (s : Service) (r : IssuanceRequest) (minted : Except Refusal CouponId) :
    Stores → Resolution → Prop
  | abandoned : s.cancelled = true → Outcome s r minted s.stores (.failed Stores.abandonment)
  | attempted {stores resolution} : s.cancelled = false →
      s.stores.Attempt s.now r minted stores resolution → Outcome s r minted stores resolution

def withStores (s : Service) (stores : Stores) : Service := { s with stores := stores }

/-- The service after a request has been taken off its line and has ended. -/
def conclude (s : Service) (p : Nat) (r : IssuanceRequest) (stores : Stores)
    (resolution : Resolution) : Service :=
  { s with
    stores := { stores with status := s.stores.status.put s.now (r.record.resolved resolution s.now) }
    queue := s.queue.serve p r }

inductive Move (s : Service) : Event → Service → Prop
  | idle {e} (htakes : s.takes e = none) (hreset : s.reset? e = none)
      (hregistered : s.registered? e = none) : Move s e s
  | turnedAway {o c id} (hanswer : s.answer? o c = none)
      (hstock : s.stores.ledger.peek c = some 0) :
      Move s (.issue o c (.ok id))
        (s.keep ((StatusRecord.pending id c o s.now).resolved .soldOut s.now))
  | queued {o c id queue} (hanswer : s.answer? o c = none)
      (hstock : s.stores.ledger.peek c ≠ some 0)
      (hqueue : s.queue.enqueue ⟨id, c, o, s.now⟩ = .ok queue) :
      Move s (.issue o c (.ok id)) { s.keep (.pending id c o s.now) with queue := queue }
  | rejected {o c id} (hanswer : s.answer? o c = none) :
      Move s (.issue o c (.ok id)) (s.withStores { s.stores with
        tickets := (s.stores.tickets.set (o, c) id).clear (o, c) id })
  | filled {c campaign} (hlisted : s.stores.catalog.campaigns.get? c = some campaign)
      (hidle : s.settings.allowLiveReset = true ∨ s.queue.inFlight c = 0)
      (hreset : s.reset? (.initializeStock c) = some c) :
      Move s (.initializeStock c) (s.withStores { s.stores with
        ledger := (s.stores.ledger.reset c campaign.totalStock).1 })
  | registered {draft campaign}
      (hbuild : draft.build s.now s.settings.defaultDiscount = .ok campaign)
      (hnew : s.stores.catalog.campaigns.get? campaign.id = none)
      (hregistered : s.registered? (.register draft) = some campaign.id) :
      Move s (.register draft) (s.withStores { s.stores with
        catalog := ⟨s.stores.catalog.campaigns.insert campaign.id campaign⟩
        ledger := (s.stores.ledger.reset campaign.id campaign.totalStock).1 })
  | redeemed {o id order orderId k} (hheld : s.stores.coupons.coupons.get? id = some k) :
      Move s (.redeem o id order orderId) (s.withStores { s.stores with
        coupons := s.stores.coupons.spend k ⟨s.now, orderId⟩ })
  | served {p minted r rest stores resolution} (hattended : (s.queue.channel p).attended = true)
      (hhead : (s.queue.channel p).messages = .issue r :: rest)
      (houtcome : s.Outcome r minted stores resolution) :
      Move s (.turn p minted) (s.conclude p r stores resolution)
  | dismissed {p minted marker rest} (hattended : (s.queue.channel p).attended = true)
      (hhead : (s.queue.channel p).messages = .stop marker :: rest) :
      Move s (.turn p minted) { s with queue := s.queue.dismiss p marker }
  | swept : Move s .sweep s.sweep
  | waited {duration} : Move s (.wait duration) (s.wait duration)
  | closed : Move s .close s.close
  | cancelled (hclosed : s.queue.closed = true) : Move s .cancel s.cancel
  | stopSent {p} (hcancelled : s.cancelled = true) :
      Move s (.sendStop p) { s with queue := (s.queue.sendStop p).1 }

theorem takes_of_head {s : Service} {p : Nat} {r : IssuanceRequest} {rest : List Message}
    (hattended : (s.queue.channel p).attended = true)
    (hhead : (s.queue.channel p).messages = .issue r :: rest) (minted : Except Refusal CouponId) :
    s.takes (.turn p minted) = some r := by
  simp only [takes, Queue.dequeue_request hattended hhead]

theorem takes_of_marker {s : Service} {p marker : Nat} {rest : List Message}
    (hattended : (s.queue.channel p).attended = true)
    (hhead : (s.queue.channel p).messages = .stop marker :: rest) (minted : Except Refusal CouponId) :
    s.takes (.turn p minted) = none := by
  simp only [takes, Queue.dequeue_stop hattended hhead]

theorem takes_turn_eq_some {s : Service} {p : Nat} {r : IssuanceRequest}
    {minted : Except Refusal CouponId} (h : s.takes (.turn p minted) = some r) :
    (s.queue.channel p).attended = true ∧
      ∃ rest, (s.queue.channel p).messages = .issue r :: rest := by
  simp only [takes] at h
  split at h
  · next hrequest =>
    cases h
    exact Queue.dequeue_eq_request hrequest
  · cases h

section Step

variable {requests : List RequestId} {coupons : List CouponId} {s : Service}

theorem submit_eq_ok {s s' : Service} {r : IssuanceRequest} (h : s.submit r = .ok s') :
    ∃ queue, s.queue.enqueue r = .ok queue ∧ s' = { s with queue := queue } := by
  unfold submit at h
  split at h
  · cases h
  · cases hq : s.queue.enqueue r with
    | error why => simp [hq, bind, Except.bind] at h
    | ok queue =>
      simp only [hq, bind, Except.bind, pure, Except.pure, Except.ok.injEq] at h
      exact ⟨queue, rfl, h.symm⟩

/-- Nothing is left of a request that could not be queued, but for an older ticket that is lost. -/
theorem withdraw_keep {record : StatusRecord} (h : s.stores.status.held? record.request = none) :
    (s.keep record).withdraw record = s.withStores { s.stores with
      tickets := (s.stores.tickets.set record.key record.request).clear record.key
        record.request } := by
  simp only [withdraw, keep, withStores, StatusStore.remove_put _ h]
  rfl

/-- How a call for a coupon goes: it is answered without a new request, or a new request is turned
away, queued, or refused for want of room. -/
inductive Issued (s : Service) (o : RequesterId) (c : CampaignId) :
    Except Refusal RequestId → Service × Except Refusal Admission → Prop
  | answered {minted answer} (hanswer : s.answer? o c = some answer) : Issued s o c minted (s, answer)
  | unnamed {why} (hanswer : s.answer? o c = none) : Issued s o c (.error why) (s, .error why)
  | turnedAway {id} (hanswer : s.answer? o c = none) (hstock : s.stores.ledger.peek c = some 0) :
      Issued s o c (.ok id) (s.keep ((StatusRecord.pending id c o s.now).resolved .soldOut s.now),
        .ok (.resolved ⟨id, .soldOut, none⟩))
  | queued {id queue} (hanswer : s.answer? o c = none) (hstock : s.stores.ledger.peek c ≠ some 0)
      (hqueue : s.queue.enqueue ⟨id, c, o, s.now⟩ = .ok queue) :
      Issued s o c (.ok id) ({ s.keep (.pending id c o s.now) with queue := queue },
        .ok (.queued ⟨id, .pending, none⟩))
  | rejected {id why} (hanswer : s.answer? o c = none) : Issued s o c (.ok id)
      ((s.keep (.pending id c o s.now)).withdraw (.pending id c o s.now), .error why)

theorem issue_spec (s : Service) (o : RequesterId) (c : CampaignId)
    (minted : Except Refusal RequestId) : Issued s o c minted (s.issue o c minted) := by
  cases hanswer : s.answer? o c with
  | some answer =>
    simp only [issue, hanswer]
    exact .answered hanswer
  | none =>
    cases minted with
    | error why =>
      simp only [issue, hanswer]
      exact .unnamed hanswer
    | ok id =>
      by_cases hstock : s.stores.ledger.peek c = some 0
      · simp only [issue, hanswer, takeIn, hstock, if_true]
        exact .turnedAway hanswer hstock
      · simp only [issue, hanswer, takeIn, hstock, if_false]
        cases hsubmit : (s.keep (.pending id c o s.now)).submit ⟨id, c, o, s.now⟩ with
        | ok queued =>
          obtain ⟨queue, hqueue, rfl⟩ := submit_eq_ok hsubmit
          exact .queued hanswer hstock hqueue
        | error why => exact .rejected hanswer

theorem Sound.unheld (h : s.Sound requests coupons) {id : RequestId} (hid : id ∉ requests) :
    s.stores.status.held? id = none := by
  cases hheld : s.stores.status.held? id with
  | none => rfl
  | some held => exact absurd (h.named.record hheld) hid

private theorem move_issue (h : s.Sound requests coupons) {o : RequesterId} {c : CampaignId}
    {minted : Except Refusal RequestId} (hfresh : ∀ id, minted = .ok id → id ∉ requests) :
    Move s (.issue o c minted) (s.issue o c minted).1 := by
  have hspec := issue_spec s o c minted
  generalize s.issue o c minted = issued at hspec
  cases hspec with
  | answered => exact .idle rfl rfl rfl
  | unnamed => exact .idle rfl rfl rfl
  | turnedAway hanswer hstock => exact .turnedAway hanswer hstock
  | queued hanswer hstock hqueue => exact .queued hanswer hstock hqueue
  | @rejected id why hanswer =>
    have hnew : s.stores.status.held? id = none := h.unheld (hfresh id rfl)
    show Move s _ ((s.keep (.pending id c o s.now)).withdraw (.pending id c o s.now))
    rw [withdraw_keep (by exact hnew)]
    exact .rejected hanswer

private theorem idle_initializeStock {c : CampaignId} {why : Refusal}
    (h : s.initializeStock c = (s, .error why)) :
    Move s (.initializeStock c) (s.initializeStock c).1 := by
  rw [h]
  exact .idle rfl (by simp [reset?, h, Except.isOk, Except.toBool]) rfl

private theorem filled_initializeStock {c : CampaignId} {campaign : Campaign}
    (hlisted : s.stores.catalog.campaigns.get? c = some campaign)
    (hidle : s.settings.allowLiveReset = true ∨ s.queue.inFlight c = 0)
    (h : s.initializeStock c = (s.withStores { s.stores with
      ledger := (s.stores.ledger.reset c campaign.totalStock).1 },
      .ok (.full campaign.totalStock))) :
    Move s (.initializeStock c) (s.initializeStock c).1 := by
  have hreset : s.reset? (.initializeStock c) = some c := by
    simp [reset?, h, Except.isOk, Except.toBool]
  rw [h]
  exact .filled hlisted hidle hreset

private theorem move_initializeStock (c : CampaignId) :
    Move s (.initializeStock c) (s.initializeStock c).1 := by
  cases hlisted : s.stores.catalog.campaigns.get? c with
  | none =>
    apply idle_initializeStock
    simp only [initializeStock, Catalog.get, hlisted]
    rfl
  | some campaign =>
    by_cases hlive : s.settings.allowLiveReset = true
    · apply filled_initializeStock hlisted (.inl hlive)
      simp only [initializeStock, Catalog.get, hlisted, hlive, if_true]
      rfl
    · by_cases hidle : s.queue.inFlight c = 0
      · apply filled_initializeStock hlisted (.inr hidle)
        simp only [initializeStock, Catalog.get, hlisted, hlive, Queue.whenIdle, hidle, if_true]
        rfl
      · apply idle_initializeStock
        simp only [initializeStock, Catalog.get, hlisted, hlive, Queue.whenIdle, hidle, if_false]
        rfl

/-- How a registration goes: the draft is not fit, or the number is taken, and nothing changes; or the
campaign is entered in both stores. -/
inductive Registered (s : Service) (draft : CampaignDraft) :
    Service × Except Refusal Campaign → Prop
  | unfit {why} (hbuild : draft.build s.now s.settings.defaultDiscount = .error why) :
      Registered s draft (s, .error why)
  | taken {campaign other} (hbuild : draft.build s.now s.settings.defaultDiscount = .ok campaign)
      (htaken : s.stores.catalog.campaigns.get? campaign.id = some other) :
      Registered s draft (s, .error (.campaignExists campaign.id))
  | entered {campaign} (hbuild : draft.build s.now s.settings.defaultDiscount = .ok campaign)
      (hnew : s.stores.catalog.campaigns.get? campaign.id = none) :
      Registered s draft (s.withStores { s.stores with
        catalog := ⟨s.stores.catalog.campaigns.insert campaign.id campaign⟩
        ledger := (s.stores.ledger.reset campaign.id campaign.totalStock).1 }, .ok campaign)

theorem register_spec (h : s.stores.Stocked) (draft : CampaignDraft) :
    Registered s draft (s.register draft) := by
  cases hbuild : draft.build s.now s.settings.defaultDiscount with
  | error why =>
    simp only [register, hbuild, bind, Except.bind]
    exact .unfit hbuild
  | ok campaign =>
    cases hnew : s.stores.catalog.campaigns.get? campaign.id with
    | some other =>
      simp only [register, hbuild, bind, Except.bind, Catalog.register, Table.contains, hnew,
        Option.isSome_some, if_true]
      exact .taken hbuild hnew
    | none =>
      -- the ledger has no account either, so it does not refuse to open one
      have hopen : s.stores.ledger.snapshot campaign.id = none := by
        cases hs : s.stores.ledger.snapshot campaign.id with
        | none => rfl
        | some stock =>
          obtain ⟨other, hother⟩ := h.known hs
          rw [hnew] at hother
          cases hother
      simp only [register, hbuild, bind, Except.bind, Catalog.register, Table.contains, hnew,
        Option.isSome_none, Bool.false_eq_true, if_false, pure, Except.pure,
        Ledger.register_new hopen]
      exact .entered hbuild hnew

theorem move_register (h : s.stores.Stocked) (draft : CampaignDraft) :
    Move s (.register draft) (s.register draft).1 := by
  have hspec := register_spec h draft
  have hregistered : s.registered? (.register draft) =
      if (s.register draft).2.isOk then some draft.campaign else none := rfl
  generalize s.register draft = registered at hspec hregistered
  cases hspec with
  | unfit => exact .idle rfl rfl hregistered
  | taken => exact .idle rfl rfl hregistered
  | @entered campaign hbuild hnew =>
    have hid : campaign.id = draft.campaign := by
      rw [(CampaignDraft.build_eq_ok_iff.1 hbuild).2]
      rfl
    exact .registered hbuild hnew (hregistered.trans (congrArg some hid.symm))

private theorem move_redeem (h : s.stores.coupons.Sound) (o : RequesterId) (id : CouponId) (order : UInt64)
    (orderId : Option String) :
    Move s (.redeem o id order orderId) (s.redeem o id order orderId).1 := by
  cases hcampaign : s.campaignOf id with
  | error why =>
    simp only [redeem, hcampaign, bind, Except.bind]
    exact .idle rfl rfl rfl
  | ok campaign =>
    simp only [redeem, hcampaign, bind, Except.bind]
    cases hredeem : s.stores.coupons.redeem o id order orderId campaign s.now with
    | error why => exact .idle rfl rfl rfl
    | ok answer =>
      obtain ⟨book, quote⟩ := answer
      obtain ⟨k, hk, rfl⟩ := CouponBook.redeem_eq_ok h hredeem
      exact .redeemed hk

private theorem conclude_of_outcome (h : s.Sound requests coupons) {p : Nat} {r : IssuanceRequest}
    (hr : r ∈ s.queue.requests p) (minted : Except Refusal CouponId) :
    ∃ stores resolution, s.Outcome r minted stores resolution ∧
      (if s.cancelled then s.stores.abandon s.now r else s.stores.dispatch s.now r minted) =
        { stores with
          status := s.stores.status.put s.now (r.record.resolved resolution s.now) } := by
  have hheld := (h.tracked.waiting hr).held
  cases hc : s.cancelled with
  | true =>
    refine ⟨s.stores, _, .abandoned hc, ?_⟩
    rw [if_pos rfl]
    exact Stores.abandon_of_pending _ hheld rfl rfl
  | false =>
    refine ⟨_, _, .attempted hc (Stores.attempt_spec h.book ?_), ?_⟩
    · exact fun stock hstock => h.stocked.remaining_le hstock
    · rw [if_neg Bool.false_ne_true]
      exact Stores.dispatch_of_pending _ hheld rfl rfl minted

theorem turn_of_marker {p marker : Nat} {rest : List Message}
    (hattended : (s.queue.channel p).attended = true)
    (hhead : (s.queue.channel p).messages = .stop marker :: rest) (minted : Except Refusal CouponId) :
    s.turn p minted = { s with queue := s.queue.dismiss p marker } := by
  simp only [turn, Office.turn, Queue.dismiss, Queue.dequeue_stop hattended hhead]

theorem move_turn (h : s.Sound requests coupons) (p : Nat) (minted : Except Refusal CouponId) :
    Move s (.turn p minted) (s.turn p minted) := by
  cases hattended : (s.queue.channel p).attended with
  | false =>
    have hd : s.queue.dequeue p = (s.queue, .unattended) := by simp [Queue.dequeue, hattended]
    simp only [turn, Office.turn, hd]
    exact .idle (by simp [takes, hd]) rfl rfl
  | true =>
    cases hhead : (s.queue.channel p).messages with
    | nil =>
      have hd : s.queue.dequeue p = (s.queue, if s.queue.released then .closed else .empty) := by
        simp [Queue.dequeue, hattended, hhead]
      cases hreleased : s.queue.released <;> rw [hreleased] at hd <;>
        simp only [turn, Office.turn, hd] <;> exact .idle (by simp [takes, hd]) rfl rfl
    | cons m rest =>
      cases m with
      | issue r =>
        have hr : r ∈ s.queue.requests p := by simp [Queue.requests, Channel.requests, hhead]
        obtain ⟨stores, resolution, houtcome, hstores⟩ := conclude_of_outcome h hr minted
        have hturn : s.turn p minted = s.conclude p r stores resolution := by
          rw [conclude, ← hstores]
          simp only [turn, Office.turn, Queue.serve, Queue.dequeue_request hattended hhead]
        rw [hturn]
        exact .served hattended hhead houtcome
      | stop marker =>
        rw [turn_of_marker hattended hhead]
        exact .dismissed hattended hhead

theorem Sound.move_step (h : s.Sound requests coupons) (e : Event)
    (hfresh : ∀ id, e.request? = some id → id ∉ requests) : Move s e (s.step e) := by
  cases e with
  | issue o c minted => exact move_issue h fun id hid => hfresh id (by rw [hid]; rfl)
  | initializeStock c => exact move_initializeStock c
  | register draft => exact move_register h.stocked draft
  | redeem o id order orderId => exact move_redeem h.book o id order orderId
  | turn p minted => exact move_turn h p minted
  | sweep => exact .swept
  | wait duration => exact .waited
  | close => exact .closed
  | cancel =>
    simp only [step]
    split
    · next hclosed => exact .cancelled hclosed
    · exact .idle rfl rfl rfl
  | sendStop p =>
    simp only [step]
    split
    · next hcancelled => exact .stopSent hcancelled
    · exact .idle rfl rfl rfl

end Step
end CouponIssuance.Service
