import CouponIssuance.Service
import CouponIssuance.Proofs.Queue
import CouponIssuance.Proofs.Stores.Dispatch
/-!
# What ties the stores together

In a sound service the ledger has an account for exactly the campaigns of the catalog, and the
requests that wait in the lines are exactly those with a pending record: each has the ticket of its
requester, who holds no coupon of the campaign yet. All other records have ended, and one that was
won agrees with the coupon in the book.
-/
namespace CouponIssuance

/-- The record of a request while it waits. -/
def IssuanceRequest.record (r : IssuanceRequest) : StatusRecord :=
  .pending r.id r.campaign r.requester r.submittedAt

def IssuanceRequest.key (r : IssuanceRequest) : TicketKey := (r.requester, r.campaign)

def StatusRecord.key (r : StatusRecord) : TicketKey := (r.requester, r.campaign)

@[simp] theorem StatusRecord.resolved_key (r : StatusRecord) (resolution : Resolution) (now : Millis) :
    (r.resolved resolution now).key = r.key := by
  simp [key]

/-- The entry of a request while it waits. -/
def IssuanceRequest.entry (r : IssuanceRequest) : StatusEntry := ⟨r.record, none⟩

private theorem IssuanceRequest.entry_injective {r r' : IssuanceRequest} (h : r.entry = r'.entry) : r = r' := by
  cases r; cases r'
  simp only [entry, record, StatusRecord.pending, StatusEntry.mk.injEq, StatusRecord.mk.injEq] at h
  obtain ⟨⟨rfl, rfl, rfl, -, -, -, rfl, -⟩, -⟩ := h
  rfl

namespace Stores

/-- Catalog and ledger know the same campaigns, and no more remains of one than there was. -/
structure Stocked (s : Stores) : Prop where
  listed : ∀ {c campaign}, s.catalog.campaigns.get? c = some campaign → campaign.id = c
  stocked : ∀ {c campaign}, s.catalog.campaigns.get? c = some campaign →
    ∃ stock, s.ledger.snapshot c = some stock ∧ stock.total = campaign.totalStock ∧
      stock.remaining ≤ stock.total
  known : ∀ {c stock}, s.ledger.snapshot c = some stock →
    ∃ campaign, s.catalog.campaigns.get? c = some campaign
  offered : ∀ {id k}, s.coupons.coupons.get? id = some k →
    ∃ campaign, s.catalog.campaigns.get? k.campaign = some campaign

/-- What is kept for a request that waits in partition `p`. -/
structure Waits (s : Stores) (q : Queue) (p : Nat) (r : IssuanceRequest) : Prop where
  partition : q.partitionOf r.campaign = p
  held : s.status.held? r.id = some r.entry
  ticket : s.tickets.current r.key = some r.id
  unowned : s.coupons.owned r.requester r.campaign = none

/-- The coupon that a won record tells of. -/
structure Won (b : CouponBook) (r : StatusRecord) (k : Coupon) : Prop where
  held : b.coupons.get? k.id = some k
  request : k.request = r.request
  owner : k.owner = r.requester
  campaign : k.campaign = r.campaign
  told : r.coupon = some k.id

/-- An entry that has ended. -/
structure Settled (b : CouponBook) (e : StatusEntry) : Prop where
  terminal : e.record.state.isTerminal = true
  dated : e.resolved.isSome = true
  won : e.record.state = .issued → ∃ k, Won b e.record k

/-- Records, tickets and coupons agree with the requests that wait. -/
structure Tracked (s : Stores) (q : Queue) : Prop where
  waiting : ∀ {p r}, r ∈ q.requests p → Waits s q p r
  held : ∀ {id e}, s.status.held? id = some e → e.record.request = id ∧
    ((∃ p, ∃ r ∈ q.requests p, e = r.entry) ∨ Settled s.coupons e)
  once : ∀ p, ((q.requests p).map IssuanceRequest.id).Nodup
  settled : ∀ {i k e}, s.coupons.coupons.get? i = some k → s.status.held? k.request = some e →
    e.record.state = .issued ∧ e.record.coupon = some k.id
  ticketed : ∀ {key id e}, s.tickets.current key = some id → s.status.held? id = some e →
    e.record.key = key

/-- The names in the stores are among those that were minted. -/
structure Named (requests : List RequestId) (coupons : List CouponId) (s : Stores) : Prop where
  record : ∀ {id e}, s.status.held? id = some e → id ∈ requests
  ticket : ∀ {key id}, s.tickets.current key = some id → id ∈ requests
  request : ∀ {i k}, s.coupons.coupons.get? i = some k → k.request ∈ requests
  coupon : ∀ {i k}, s.coupons.coupons.get? i = some k → i ∈ coupons

end Stores

/-- What holds in every state of a run in which these names were minted. -/
structure Service.Sound (requests : List RequestId) (coupons : List CouponId) (s : Service) :
    Prop where
  book : s.stores.coupons.Sound
  stocked : s.stores.Stocked
  tracked : s.stores.Tracked s.queue
  orderly : s.queue.Orderly
  halted : s.cancelled = true → s.queue.closed = true
  named : s.stores.Named requests coupons

namespace Stores

theorem Stocked.remaining_le {s : Stores} (h : s.Stocked) {c : CampaignId} {stock : Stock}
    (hstock : s.ledger.snapshot c = some stock) : stock.remaining ≤ stock.total := by
  obtain ⟨campaign, hlisted⟩ := h.known hstock
  obtain ⟨stock', hstock', -, hle⟩ := h.stocked hlisted
  rw [hstock] at hstock'
  cases hstock'
  exact hle

section Tracked

variable {s : Stores} {q : Queue} {p p' : Nat} {r r' : IssuanceRequest}

theorem Tracked.unique (h : s.Tracked q) (hr : r ∈ q.requests p) (hr' : r' ∈ q.requests p')
    (hid : r.id = r'.id) : r = r' := by
  have h1 := (h.waiting hr).held
  have h2 := (h.waiting hr').held
  rw [hid, h2] at h1
  exact (IssuanceRequest.entry_injective (Option.some.inj h1)).symm

private theorem Tracked.unique_key (h : s.Tracked q) (hr : r ∈ q.requests p) (hr' : r' ∈ q.requests p')
    (hkey : r.key = r'.key) : r = r' := by
  have h1 := (h.waiting hr).ticket
  have h2 := (h.waiting hr').ticket
  rw [hkey, h2] at h1
  exact (h.unique hr' hr (Option.some.inj h1)).symm

theorem Tracked.not_settled (h : s.Tracked q) (hr : r ∈ q.requests p) {i : CouponId} {k : Coupon}
    (hk : s.coupons.coupons.get? i = some k) : k.request ≠ r.id := by
  intro hid
  have := (h.settled hk (hid ▸ (h.waiting hr).held)).1
  cases this

private theorem Tracked.ticket_of_waiting (h : s.Tracked q) (hr : r ∈ q.requests p) {key : TicketKey}
    (ht : s.tickets.current key = some r.id) : key = r.key :=
  (h.ticketed ht (h.waiting hr).held).symm

theorem Tracked.of_requests (h : s.Tracked q) {q' : Queue} (hp : q'.partitions = q.partitions)
    (hr : ∀ p, q'.requests p = q.requests p) : s.Tracked q' where
  waiting := by
    intro p r hm
    have w := h.waiting (hr p ▸ hm)
    exact { w with partition := by rw [Queue.partitionOf_congr hp, w.partition] }
  held := by
    intro id e he
    obtain ⟨hid, hw⟩ := h.held he
    simp only [hr]
    exact ⟨hid, hw⟩
  once p := by rw [hr]; exact h.once p
  settled := h.settled
  ticketed := h.ticketed

theorem Tracked.of_stores (h : s.Tracked q) {s' : Stores} (hs : s'.status = s.status)
    (ht : s'.tickets = s.tickets) (hc : s'.coupons = s.coupons) : s'.Tracked q where
  waiting hm := by
    have w := h.waiting hm
    exact ⟨w.partition, hs ▸ w.held, ht ▸ w.ticket, hc ▸ w.unowned⟩
  held := by rw [hs, hc]; exact h.held
  once := h.once
  settled := by rw [hs, hc]; exact h.settled
  ticketed := by rw [hs, ht]; exact h.ticketed

theorem Tracked.clear (h : s.Tracked q) {key : TicketKey} {id : RequestId}
    (hfree : ∀ {p r}, r ∈ q.requests p → r.key ≠ key) :
    ({ s with tickets := (s.tickets.set key id).clear key id } : Stores).Tracked q where
  waiting hm := by
    have w := h.waiting hm
    refine ⟨w.partition, w.held, ?_, w.unowned⟩
    rw [TicketIndex.current_clear_set, if_neg (Ne.symm (hfree hm))]
    exact w.ticket
  held := h.held
  once := h.once
  settled := h.settled
  ticketed := by
    intro key' id' e ht
    rw [TicketIndex.current_clear_set] at ht
    split at ht
    · cases ht
    · exact h.ticketed ht

theorem Won.spend {b : CouponBook} (hb : b.Sound) {record : StatusRecord} {k l : Coupon}
    (hw : Won b record k) {i : CouponId} (hl : b.coupons.get? i = some l) (redemption : Redemption) :
    ∃ k', Won (b.spend l redemption) record k' := by
  obtain ⟨k', hk', he⟩ := hb.get?_spend_of hl hw.held redemption
  refine ⟨k', ?_, he.request.trans hw.request, he.owner.trans hw.owner,
    he.campaign.trans hw.campaign, ?_⟩
  · rw [he.id]; exact hk'
  · rw [he.id]; exact hw.told

theorem Tracked.spend (h : s.Tracked q) (hb : s.coupons.Sound) {k : Coupon} {i : CouponId}
    (hk : s.coupons.coupons.get? i = some k) (redemption : Redemption) :
    ({ s with coupons := s.coupons.spend k redemption } : Stores).Tracked q where
  waiting hm := by
    have w := h.waiting hm
    exact ⟨w.partition, w.held, w.ticket, hb.owned_spend hk redemption w.unowned⟩
  held := by
    intro id e he
    obtain ⟨hid, hw | hs⟩ := h.held he
    · exact ⟨hid, .inl hw⟩
    · refine ⟨hid, .inr ⟨hs.terminal, hs.dated, fun hi => ?_⟩⟩
      obtain ⟨k', hk'⟩ := hs.won hi
      exact hk'.spend hb hk redemption
  once := h.once
  settled := by
    intro j l e hl he
    obtain ⟨l', hl', heq⟩ := hb.get?_of_spend hk hl
    rw [heq.request] at he
    rw [heq.id]
    exact h.settled hl' he
  ticketed := h.ticketed

theorem Tracked.sweep (h : s.Tracked q) (now : Millis) : (s.sweep now).Tracked q where
  waiting := by
    intro p r hm
    have w := h.waiting hm
    have hkept : (s.status.purge now).1.held? r.id = some r.entry := by
      rw [StatusStore.held?_purge, w.held]
      simp [StatusEntry.isExpired_of_unresolved (e := r.entry) rfl]
    refine ⟨w.partition, hkept, ?_, w.unowned⟩
    have hshown : (s.status.purge now).1.contains now r.id = true := by
      rw [StatusStore.contains, StatusStore.get_of_unresolved hkept]
      rfl
    show (TicketIndex.prune _ _).1.current r.key = _
    rw [TicketIndex.current_prune, w.ticket]
    simp [hshown]
  held := by
    intro id e he
    change (s.status.purge now).1.held? id = some e at he
    rw [StatusStore.held?_purge] at he
    exact h.held (Option.filter_eq_some_iff.1 he).1
  once := h.once
  settled := by
    intro i k e hk he
    change (s.status.purge now).1.held? k.request = some e at he
    rw [StatusStore.held?_purge] at he
    exact h.settled hk (Option.filter_eq_some_iff.1 he).1
  ticketed := by
    intro key id e ht he
    change (TicketIndex.prune _ _).1.current key = some id at ht
    change (s.status.purge now).1.held? id = some e at he
    rw [StatusStore.held?_purge] at he
    rw [TicketIndex.current_prune] at ht
    exact h.ticketed (Option.filter_eq_some_iff.1 ht).1 (Option.filter_eq_some_iff.1 he).1

/-! ## A new request -/

/-- Nothing is known of a name, and the requester does not wait. -/
structure Unknown (s : Stores) (q : Queue) (id : RequestId) (key : TicketKey) : Prop where
  unheld : s.status.held? id = none
  unused : ∀ {i k}, s.coupons.coupons.get? i = some k → k.request ≠ id
  unticketed : ∀ {key}, s.tickets.current key ≠ some id
  free : ∀ {p r}, r ∈ q.requests p → r.key ≠ key

private theorem Unknown.ne_of_waiting {id : RequestId} {key : TicketKey} (hu : s.Unknown q id key)
    (h : s.Tracked q) (hr : r ∈ q.requests p) : id ≠ r.id := by
  rintro rfl
  have := (h.waiting hr).held
  rw [hu.unheld] at this
  cases this

theorem Tracked.turnAway (h : s.Tracked q) {record : StatusRecord} (now : Millis)
    (hu : s.Unknown q record.request record.key) (hend : record.state.isTerminal = true)
    (hlost : record.state ≠ .issued) :
    ({ s with
        status := s.status.put now record
        tickets := s.tickets.set record.key record.request } : Stores).Tracked q where
  waiting := by
    intro p r hm
    have w := h.waiting hm
    refine ⟨w.partition, ?_, ?_, w.unowned⟩
    · rw [StatusStore.held?_put, if_neg (hu.ne_of_waiting h hm)]
      exact w.held
    · rw [TicketIndex.current_set, if_neg (Ne.symm (hu.free hm))]
      exact w.ticket
  held := by
    intro id e he
    rw [StatusStore.held?_put] at he
    split at he
    · next hid =>
      cases he
      exact ⟨hid, .inr ⟨hend, rfl, fun hi => absurd hi hlost⟩⟩
    · exact h.held he
  once := h.once
  settled := by
    intro i k e hk he
    rw [StatusStore.held?_put, if_neg (Ne.symm (hu.unused hk))] at he
    exact h.settled hk he
  ticketed := by
    intro key id e ht he
    rw [TicketIndex.current_set] at ht
    rw [StatusStore.held?_put] at he
    split at ht
    · next hkey =>
      cases ht
      rw [if_pos rfl] at he
      cases he
      exact hkey
    · split at he
      · next hid => exact absurd (hid ▸ ht) hu.unticketed
      · exact h.ticketed ht he

theorem held?_put_record (now : Millis) (id : RequestId) :
    (s.status.put now r.record).held? id = if r.id = id then some r.entry else s.status.held? id :=
  StatusStore.held?_put ..

theorem Tracked.enqueue (h : s.Tracked q) {q' : Queue} (now : Millis)
    (hq : q.enqueue r = .ok q') (hu : s.Unknown q r.id r.key)
    (hunowned : s.coupons.owned r.requester r.campaign = none) :
    ({ s with
        status := s.status.put now r.record
        tickets := s.tickets.set r.key r.id } : Stores).Tracked q' where
  waiting := by
    intro p r' hm
    rw [Queue.requests_enqueue hq, List.mem_append] at hm
    rcases hm with hm | hm
    · have w := h.waiting hm
      refine ⟨?_, ?_, ?_, w.unowned⟩
      · rw [Queue.partitionOf_congr (Queue.partitions_enqueue hq)]
        exact w.partition
      · rw [held?_put_record, if_neg (hu.ne_of_waiting h hm)]
        exact w.held
      · rw [TicketIndex.current_set, if_neg (Ne.symm (hu.free hm))]
        exact w.ticket
    · split at hm
      · next hp =>
        rw [List.mem_singleton] at hm
        subst hm
        refine ⟨?_, ?_, ?_, hunowned⟩
        · rw [Queue.partitionOf_congr (Queue.partitions_enqueue hq)]
          exact hp
        · rw [held?_put_record, if_pos rfl]
        · rw [TicketIndex.current_set, if_pos rfl]
      · cases hm
  held := by
    intro id e he
    rw [held?_put_record] at he
    simp only [Queue.requests_enqueue hq]
    split at he
    · next hid =>
      cases he
      exact ⟨hid, .inl ⟨q.partitionOf r.campaign, r, by simp, rfl⟩⟩
    · obtain ⟨hid, ⟨p, r', hm, heq⟩ | hs⟩ := h.held he
      · exact ⟨hid, .inl ⟨p, r', List.mem_append_left _ hm, heq⟩⟩
      · exact ⟨hid, .inr hs⟩
  once := by
    intro p
    rw [Queue.requests_enqueue hq, List.map_append, List.nodup_append]
    refine ⟨h.once p, by split <;> simp, ?_⟩
    intro a ha b hb hab
    obtain ⟨r', hm, rfl⟩ := List.mem_map.1 ha
    split at hb
    · have hb' : b = r.id := by simpa using hb
      exact hu.ne_of_waiting h hm (hb'.symm.trans hab.symm)
    · cases hb
  settled := by
    intro i k e hk he
    rw [held?_put_record, if_neg (Ne.symm (hu.unused hk))] at he
    exact h.settled hk he
  ticketed := by
    intro key id e ht he
    rw [TicketIndex.current_set] at ht
    rw [held?_put_record] at he
    split at ht
    · next hkey =>
      cases ht
      rw [if_pos rfl] at he
      cases he
      exact hkey
    · split at he
      · next hid => exact absurd (hid ▸ ht) hu.unticketed
      · exact h.ticketed ht he

theorem held?_put_resolved (resolution : Resolution) (now : Millis) (id : RequestId) :
    (s.status.put now (r.record.resolved resolution now)).held? id =
      if r.id = id then some ⟨r.record.resolved resolution now, some now⟩
      else s.status.held? id := by
  rw [StatusStore.held?_put, StatusRecord.resolved_request, StatusRecord.resolved_state,
    if_pos (Resolution.isTerminal_state resolution)]
  rfl

section Serve

variable {rest : List Message} (h : s.Tracked q) (ha : (q.channel p).attended = true)
  (hm : (q.channel p).messages = .issue r :: rest)

include hm in
omit h ha in
theorem Tracked.mem_requests_head : r ∈ q.requests p := by
  simp [Queue.requests, Channel.requests, hm]

include h ha hm in
private theorem Tracked.of_mem_serve (hr : r' ∈ (q.serve p r).requests p') :
    r' ∈ q.requests p' ∧ r'.id ≠ r.id := by
  have hrequests := Queue.requests_serve ha hm p'
  have hmem : r' ∈ q.requests p' := hrequests ▸ List.mem_append_right _ hr
  refine ⟨hmem, fun hid => ?_⟩
  have heq := h.unique hmem (Tracked.mem_requests_head hm) hid
  subst heq
  have hp : p = p' := (h.waiting (Tracked.mem_requests_head hm)).partition.symm.trans
    (h.waiting hmem).partition
  have honce := h.once p'
  rw [hrequests, if_pos hp] at honce
  simp only [List.singleton_append, List.map_cons, List.nodup_cons] at honce
  exact honce.1 (List.mem_map_of_mem hr)

/-- What the end of `r` does to the book: all coupons stay, and one is new if the requester has won it. -/
structure Awarded (before book : CouponBook) (r : IssuanceRequest) (resolution : Resolution) : Prop where
  sound : book.Sound
  kept : ∀ {id k}, before.coupons.get? id = some k → book.coupons.get? id = some k
  added : ∀ {id k}, book.coupons.get? id = some k → before.coupons.get? id = some k ∨
    (k.id = id ∧ k.request = r.id ∧ (k.owner, k.campaign) = r.key ∧ resolution = .issued id)
  won : ∀ {id}, resolution = .issued id → ∃ k, book.coupons.get? id = some k ∧
    k.request = r.id ∧ k.owner = r.requester ∧ k.campaign = r.campaign

namespace Awarded

variable {before book : CouponBook} {resolution : Resolution}

theorem of_lost (hb : before.Sound) (hlost : ∀ id, resolution ≠ .issued id) :
    Awarded before before r resolution :=
  ⟨hb, id, .inl, fun hi => absurd hi (hlost _)⟩

theorem of_issued {id : CouponId} {now : Millis} (hb : before.Sound)
    (hnew : before.coupons.get? id = none) (hown : before.owned r.requester r.campaign = none) :
    Awarded before (before.enter ⟨id, r.campaign, r.requester, r.id, now, none⟩) r (.issued id) where
  sound := hb.enter hnew hown
  kept := by
    intro i k hk
    rw [CouponBook.get?_enter, if_neg]
    · exact hk
    · rintro rfl
      rw [hnew] at hk
      cases hk
  added := by
    intro i k hk
    rw [CouponBook.get?_enter] at hk
    split at hk
    · next hi =>
      cases hk
      exact .inr ⟨hi, rfl, rfl, by rw [← hi]⟩
    · exact .inl hk
  won := by
    rintro i ⟨⟩
    exact ⟨_, by rw [CouponBook.get?_enter, if_pos rfl], rfl, rfl, rfl⟩

theorem unowned (h : Awarded before book r resolution) (hb : before.Sound) (hkey : r'.key ≠ r.key)
    (hown : before.owned r'.requester r'.campaign = none) :
    book.owned r'.requester r'.campaign = none := by
  rw [h.sound.owned_eq_none_iff]
  intro i k hk ho hc
  rcases h.added hk with hold | ⟨-, -, hnew, -⟩
  · exact hb.owned_eq_none_iff.1 hown i k hold ho hc
  · exact hkey (by rw [← hnew, ho, hc]; rfl)

theorem settled (h : Awarded before book r resolution) {e : StatusEntry} (he : Settled before e) :
    Settled book e where
  terminal := he.terminal
  dated := he.dated
  won hi := by
    obtain ⟨k, hk⟩ := he.won hi
    exact ⟨k, { hk with held := h.kept hk.held }⟩

private theorem settled_resolved (h : Awarded before book r resolution) (now : Millis) :
    Settled book ⟨r.record.resolved resolution now, some now⟩ where
  terminal := by simp
  dated := rfl
  won hi := by
    cases resolution with
    | issued i =>
      obtain ⟨k, hk, hr, ho, hc⟩ := h.won rfl
      have hki : k.id = i := h.sound.named hk
      exact ⟨k, by rw [hki]; exact hk, hr, ho, hc, by rw [hki]; rfl⟩
    | soldOut => cases hi
    | failed reason => cases hi

end Awarded

include h ha hm in
/-- After a worker has taken `r` off its line and ended it, its requester having won or lost. -/
theorem Tracked.serve (hb : s.coupons.Sound) (now : Millis) {resolution : Resolution}
    {book : CouponBook} (hbook : Awarded s.coupons book r resolution) :
    ({ s with
        coupons := book
        status := s.status.put now (r.record.resolved resolution now) } : Stores).Tracked
      (q.serve p r) where
  waiting := by
    intro p' r' hr
    obtain ⟨hmem, hid⟩ := h.of_mem_serve ha hm hr
    have w := h.waiting hmem
    refine ⟨?_, ?_, w.ticket, hbook.unowned hb (fun hkey => hid ?_) w.unowned⟩
    · rw [Queue.partitionOf_congr (Queue.partitions_serve ha hm)]
      exact w.partition
    · rw [held?_put_resolved, if_neg (Ne.symm hid)]
      exact w.held
    · exact congrArg _ (h.unique_key hmem (Tracked.mem_requests_head hm) hkey)
  held := by
    intro id e he
    rw [held?_put_resolved] at he
    split at he
    · next hid =>
      cases he
      exact ⟨by rw [StatusRecord.resolved_request]; exact hid, .inr (hbook.settled_resolved now)⟩
    · next hid =>
      obtain ⟨hreq, ⟨p', r', hmem, rfl⟩ | hs⟩ := h.held he
      · have hother : r'.id ≠ r.id := fun hsame => hid (hsame.symm.trans hreq)
        exact ⟨hreq, .inl ⟨p', r', Queue.mem_requests_serve ha hm hmem hother, rfl⟩⟩
      · exact ⟨hreq, .inr (hbook.settled hs)⟩
  once := by
    intro p'
    have honce := h.once p'
    rw [Queue.requests_serve ha hm, List.map_append] at honce
    exact (List.nodup_append.1 honce).2.1
  settled := by
    intro i k e hk he
    rw [held?_put_resolved] at he
    rcases hbook.added hk with hold | ⟨hki, hr, -, hi⟩
    · have hne := h.not_settled (Tracked.mem_requests_head hm) hold
      rw [if_neg (Ne.symm hne)] at he
      exact h.settled hold he
    · rw [if_pos hr.symm] at he
      cases he
      subst hi
      exact ⟨rfl, by rw [hki]; rfl⟩
  ticketed := by
    intro key id e ht he
    rw [held?_put_resolved] at he
    split at he
    · next hid =>
      cases he
      obtain rfl : id = r.id := hid.symm
      rw [StatusRecord.resolved_key]
      exact (h.ticket_of_waiting (Tracked.mem_requests_head hm) ht).symm
    · exact h.ticketed ht he

end Serve
end Tracked
end Stores
end CouponIssuance
