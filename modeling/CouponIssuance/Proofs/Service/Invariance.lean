import CouponIssuance.Proofs.Service.Move
/-!
# Every state of a run is sound

Each move keeps a service sound, and so does the registration of the campaigns a service starts
with.
-/
namespace CouponIssuance

namespace Stores

theorem activeCampaign_eq_ok_iff {s : Stores} {c : CampaignId} {now : Millis} {campaign : Campaign} :
    s.activeCampaign c now = .ok campaign ↔
      s.catalog.campaigns.get? c = some campaign ∧ campaign.window.isOpen now = true := by
  cases hlisted : s.catalog.campaigns.get? c with
  | none => simp [activeCampaign, Catalog.get, hlisted, bind, Except.bind]
  | some other =>
    cases hclosure : other.window.closure? now with
    | none =>
      simp only [activeCampaign, Catalog.get, hlisted, Campaign.ensureActive, hclosure, bind,
        Except.bind, pure, Except.pure, Except.ok.injEq, Option.some.injEq]
      constructor
      · rintro rfl; exact ⟨rfl, by rw [Window.isOpen, hclosure]; rfl⟩
      · exact And.left
    | some closure =>
      simp only [activeCampaign, Catalog.get, hlisted, Campaign.ensureActive, hclosure, bind,
        Except.bind, Option.some.injEq]
      constructor
      · intro h; cases h
      · rintro ⟨rfl, hopen⟩
        rw [Window.isOpen, hclosure] at hopen
        cases hopen

section Stocked

variable {s : Stores}

theorem Stocked.of_stores (h : s.Stocked) {s' : Stores} (hc : s'.catalog = s.catalog)
    (hl : s'.ledger = s.ledger) (hb : s'.coupons = s.coupons) : s'.Stocked where
  listed := by rw [hc]; exact h.listed
  stocked := by rw [hc, hl]; exact h.stocked
  known := by rw [hc, hl]; exact h.known
  offered := by rw [hc, hb]; exact h.offered

theorem Stocked.reset (h : s.Stocked) {c : CampaignId} {campaign : Campaign}
    (hlisted : s.catalog.campaigns.get? c = some campaign) :
    ({ s with ledger := (s.ledger.reset c campaign.totalStock).1 } : Stores).Stocked where
  listed := h.listed
  stocked := by
    intro c' campaign' hlisted'
    by_cases hc : c = c'
    · subst hc
      rw [hlisted] at hlisted'
      cases hlisted'
      exact ⟨.full campaign.totalStock, by simp, rfl, UInt64.le_refl _⟩
    · obtain ⟨stock, hstock, hrest⟩ := h.stocked hlisted'
      exact ⟨stock, by simp [hc, hstock], hrest⟩
  known := by
    intro c' stock hstock
    by_cases hc : c = c'
    · subst hc; exact ⟨campaign, hlisted⟩
    · rw [Ledger.snapshot_reset, if_neg hc] at hstock
      exact h.known hstock
  offered := h.offered

theorem Stocked.register (h : s.Stocked) {campaign : Campaign}
    (hnew : s.catalog.campaigns.get? campaign.id = none) :
    ({ s with
        catalog := ⟨s.catalog.campaigns.insert campaign.id campaign⟩
        ledger := (s.ledger.reset campaign.id campaign.totalStock).1 } : Stores).Stocked where
  listed := by
    intro c other hlisted
    rw [Table.get?_insert] at hlisted
    split at hlisted
    · next hc => cases hlisted; exact hc
    · exact h.listed hlisted
  stocked := by
    intro c other hlisted
    rw [Table.get?_insert] at hlisted
    split at hlisted
    · next hc =>
      cases hlisted
      exact ⟨.full campaign.totalStock, by simp [hc], rfl, UInt64.le_refl _⟩
    · next hc =>
      obtain ⟨stock, hstock, hrest⟩ := h.stocked hlisted
      exact ⟨stock, by simp [hc, hstock], hrest⟩
  known := by
    intro c stock hstock
    by_cases hc : campaign.id = c
    · exact ⟨campaign, by simp [hc]⟩
    · rw [Ledger.snapshot_reset, if_neg hc] at hstock
      obtain ⟨other, hother⟩ := h.known hstock
      exact ⟨other, by simp [hc, hother]⟩
  offered := by
    intro id k hk
    obtain ⟨other, hother⟩ := h.offered hk
    have hc : campaign.id ≠ k.campaign := by
      intro hc
      rw [hc, hother] at hnew
      cases hnew
    exact ⟨other, by simp [hc, hother]⟩

theorem Stocked.spend (h : s.Stocked) (hb : s.coupons.Sound) {k : Coupon} {i : CouponId}
    (hk : s.coupons.coupons.get? i = some k) (redemption : Redemption) :
    ({ s with coupons := s.coupons.spend k redemption } : Stores).Stocked where
  listed := h.listed
  stocked := h.stocked
  known := h.known
  offered := by
    intro id l hl
    obtain ⟨l', hl', he⟩ := hb.get?_of_spend hk hl
    rw [he.campaign]
    exact h.offered hl'

theorem Stocked.attempt (h : s.Stocked) {now : Millis} {r : IssuanceRequest}
    {minted : Except Refusal CouponId} {stores : Stores} {resolution : Resolution}
    (ha : s.Attempt now r minted stores resolution) : stores.Stocked := by
  cases ha with
  | closed => exact h
  | exhausted => exact h
  | unrecorded => exact h
  | @issued campaign stock id hactive hstock h0 =>
    obtain ⟨hlisted, -⟩ := activeCampaign_eq_ok_iff.1 hactive
    have hsnapshot := Ledger.snapshot_tryReserve hstock h0
    refine ⟨h.listed, ?_, ?_, ?_⟩
    · intro c other hother
      obtain ⟨stock', hstock', htotal, hle⟩ := h.stocked hother
      by_cases hc : r.campaign = c
      · subst hc
        rw [hstock] at hstock'
        cases hstock'
        refine ⟨{ stock with remaining := stock.remaining - 1 }, ?_, htotal, ?_⟩
        · rw [hsnapshot, if_pos rfl]
        show stock.remaining - 1 ≤ stock.total
        rw [UInt64.le_iff_toNat_le, Ledger.toNat_remaining_sub_one h0]
        have := UInt64.le_iff_toNat_le.1 hle
        omega
      · exact ⟨stock', by rw [hsnapshot, if_neg hc]; exact hstock', htotal, hle⟩
    · intro c stock' hstock'
      rw [hsnapshot] at hstock'
      split at hstock'
      · next hc => exact ⟨campaign, hc ▸ hlisted⟩
      · exact h.known hstock'
    · intro i k hk
      rw [CouponBook.get?_enter] at hk
      split at hk
      · cases hk; exact ⟨campaign, hlisted⟩
      · exact h.offered hk

end Stocked

section Named

variable {s : Stores} {requests : List RequestId} {coupons : List CouponId}

theorem Named.mono (h : s.Named requests coupons) (moreRequests : List RequestId)
    (moreCoupons : List CouponId) :
    s.Named (requests ++ moreRequests) (coupons ++ moreCoupons) where
  record hm := List.mem_append_left _ (h.record hm)
  ticket hm := List.mem_append_left _ (h.ticket hm)
  request hm := List.mem_append_left _ (h.request hm)
  coupon hm := List.mem_append_left _ (h.coupon hm)

theorem Named.keep (h : s.Named requests coupons) (now : Millis) {record : StatusRecord}
    (hid : record.request ∈ requests) :
    ({ s with
        status := s.status.put now record
        tickets := s.tickets.set record.key record.request } : Stores).Named requests coupons where
  record := by
    intro id e he
    rw [StatusStore.held?_put] at he
    split at he
    · next hr => exact hr ▸ hid
    · exact h.record he
  ticket := by
    intro key id ht
    rw [TicketIndex.current_set] at ht
    split at ht
    · cases ht; exact hid
    · exact h.ticket ht
  request := h.request
  coupon := h.coupon

theorem Named.clear (h : s.Named requests coupons) (key : TicketKey) (id : RequestId) :
    ({ s with tickets := (s.tickets.set key id).clear key id } : Stores).Named requests coupons where
  record := h.record
  ticket := by
    intro key' id' ht
    rw [TicketIndex.current_clear_set] at ht
    split at ht
    · cases ht
    · exact h.ticket ht
  request := h.request
  coupon := h.coupon

theorem Named.spend (h : s.Named requests coupons) (hb : s.coupons.Sound) {k : Coupon} {i : CouponId}
    (hk : s.coupons.coupons.get? i = some k) (redemption : Redemption) :
    ({ s with coupons := s.coupons.spend k redemption } : Stores).Named requests coupons where
  record := h.record
  ticket := h.ticket
  request := by
    intro id l hl
    obtain ⟨l', hl', he⟩ := hb.get?_of_spend hk hl
    rw [he.request]
    exact h.request hl'
  coupon := by
    intro id l hl
    obtain ⟨l', hl', -⟩ := hb.get?_of_spend hk hl
    exact h.coupon hl'

theorem Named.sweep (h : s.Named requests coupons) (now : Millis) :
    (s.sweep now).Named requests coupons where
  record := by
    intro id e he
    change (s.status.purge now).1.held? id = some e at he
    rw [StatusStore.held?_purge] at he
    exact h.record (Option.filter_eq_some_iff.1 he).1
  ticket := by
    intro key id ht
    change (TicketIndex.prune _ _).1.current key = some id at ht
    rw [TicketIndex.current_prune] at ht
    exact h.ticket (Option.filter_eq_some_iff.1 ht).1
  request := h.request
  coupon := h.coupon

end Named

section Create

variable (h : Hashing) (shards : Nat) (ttl : Millis)

theorem stocked_create : (create h shards ttl).Stocked where
  listed hc := by cases hc
  stocked hc := by cases hc
  known hc := by cases hc
  offered hk := by cases hk

private theorem tracked_create {q : Queue} (hq : ∀ p, q.requests p = []) :
    (create h shards ttl).Tracked q where
  waiting hr := by
    rw [hq] at hr
    cases hr
  held he := by
    rw [create, StatusStore.held?_create] at he
    cases he
  once p := by
    rw [hq]
    exact .nil
  settled hk := by cases hk
  ticketed ht := by
    rw [create, TicketIndex.current_create] at ht
    cases ht

private theorem named_create : (create h shards ttl).Named [] [] where
  record he := by
    rw [create, StatusStore.held?_create] at he
    cases he
  ticket ht := by
    rw [create, TicketIndex.current_create] at ht
    cases ht
  request hk := by cases hk
  coupon hk := by cases hk

end Create
end Stores

namespace Service

/-! ## What callers see -/

theorem campaign_eq_ok_iff {s : Service} {c : CampaignId} {campaign : Campaign} :
    s.campaign c = .ok campaign ↔ s.stores.catalog.campaigns.get? c = some campaign :=
  Catalog.get_eq_ok_iff

theorem stock_eq_ok_iff {s : Service} {c : CampaignId} {stock : Stock} :
    s.stock c = .ok stock ↔ s.stores.ledger.snapshot c = some stock := by
  unfold Service.stock
  split <;> simp [*]

theorem status_eq_ok_iff {s : Service} {id : RequestId} {record : StatusRecord} :
    s.status id = .ok record ↔ s.stores.status.get s.now id = some record := by
  unfold status
  split <;> simp [*]

theorem status_eq_error_iff {s : Service} {id : RequestId} :
    s.status id = .error (.requestNotFound id) ↔ s.stores.status.get s.now id = none := by
  unfold status
  split <;> simp [*]

section Answer

variable {s : Service} {requests : List RequestId} {coupons : List CouponId} {o : RequesterId}
  {c : CampaignId}

/-- A new request is taken in only while the campaign is open, for a requester who holds no coupon
of it and has no live request. -/
theorem answer?_eq_none (h : s.answer? o c = none) : s.queue.closed = false ∧
    (∃ campaign, s.stores.activeCampaign c s.now = .ok campaign) ∧
    s.stores.coupons.owned o c = none ∧ s.liveRecord (o, c) = none := by
  unfold answer? at h
  split at h
  · cases h
  · next hclosed =>
    split at h
    · cases h
    · next campaign hactive =>
      split at h
      · cases h
      · next howned =>
        exact ⟨by simpa using hclosed, ⟨campaign, hactive⟩, howned, by simpa using h⟩

theorem Sound.liveRecord_of_waiting (h : s.Sound requests coupons) {p : Nat} {r : IssuanceRequest}
    (hr : r ∈ s.queue.requests p) : s.liveRecord r.key = some r.record := by
  have w := h.tracked.waiting hr
  rw [liveRecord, w.ticket, Option.bind_some, StatusStore.get_of_unresolved w.held]
  rfl

theorem Sound.unknown (h : s.Sound requests coupons) (hanswer : s.answer? o c = none)
    {id : RequestId} (hid : id ∉ requests) : s.stores.Unknown s.queue id (o, c) where
  unheld := h.unheld hid
  unused := by
    rintro i k hk rfl
    exact hid (h.named.request hk)
  unticketed := fun ht => hid (h.named.ticket ht)
  free := by
    rintro p r hr hkey
    have hlive := h.liveRecord_of_waiting hr
    rw [hkey, (answer?_eq_none hanswer).2.2.2] at hlive
    cases hlive

theorem Sound.waiting_of_held (h : s.Sound requests coupons) {id : RequestId} {e : StatusEntry}
    (he : s.stores.status.held? id = some e) (hlive : e.record.state.isTerminal = false) :
    ∃ p, ∃ r ∈ s.queue.requests p, e = r.entry ∧ r.id = id := by
  obtain ⟨hid, ⟨p, r, hr, rfl⟩ | hsettled⟩ := h.tracked.held he
  · exact ⟨p, r, hr, rfl, hid⟩
  · rw [hsettled.terminal] at hlive
    cases hlive

theorem Sound.won_of_issued (h : s.Sound requests coupons) {id : RequestId} {e : StatusEntry}
    (he : s.stores.status.held? id = some e) (hissued : e.record.state = .issued) :
    e.record.request = id ∧ ∃ k, Stores.Won s.stores.coupons e.record k := by
  obtain ⟨hid, ⟨p, r, -, rfl⟩ | hsettled⟩ := h.tracked.held he
  · cases hissued
  · exact ⟨hid, hsettled.won hissued⟩

end Answer

/-! ## Taking a request to its end -/

section Conclude

variable {s : Service} {requests : List RequestId} {coupons : List CouponId} {p : Nat}
  {r : IssuanceRequest} {rest : List Message} {minted : Except Refusal CouponId} {stores : Stores}
  {resolution : Resolution}

/-- A request either wins, and a new coupon is entered and a unit is gone, or it ends without any
other effect. -/
theorem Outcome.cases (ho : s.Outcome r minted stores resolution) :
    (stores = s.stores ∧ ∀ id, resolution ≠ .issued id) ∨
    ∃ stock id, s.stores.ledger.snapshot r.campaign = some stock ∧ stock.remaining ≠ 0 ∧
      minted = .ok id ∧ s.stores.coupons.owned r.requester r.campaign = none ∧
      resolution = .issued id ∧ stores = { s.stores with
        ledger := (s.stores.ledger.tryReserve r.campaign).1
        coupons := s.stores.coupons.enter ⟨id, r.campaign, r.requester, r.id, s.now, none⟩ } := by
  cases ho with
  | abandoned => exact .inl ⟨rfl, fun id h => by cases h⟩
  | attempted _ ha =>
    cases ha with
    | closed => exact .inl ⟨rfl, fun id h => by cases h⟩
    | exhausted => exact .inl ⟨rfl, fun id h => by cases h⟩
    | unrecorded => exact .inl ⟨rfl, fun id h => by cases h⟩
    | @issued campaign stock id _ hstock h0 hm hown =>
      exact .inr ⟨stock, id, hstock, h0, hm, hown, rfl, rfl⟩

theorem Outcome.stocked (ho : s.Outcome r minted stores resolution) (h : s.stores.Stocked) :
    stores.Stocked := by
  cases ho with
  | abandoned => exact h
  | attempted _ ha => exact h.attempt ha

theorem Sound.coupon_new (h : s.Sound requests coupons) {id : CouponId} (hid : id ∉ coupons) :
    s.stores.coupons.coupons.get? id = none := by
  cases hk : s.stores.coupons.coupons.get? id with
  | none => rfl
  | some k => exact absurd (h.named.coupon hk) hid

theorem Sound.conclude (h : s.Sound requests coupons) (ha : (s.queue.channel p).attended = true)
    (hm : (s.queue.channel p).messages = .issue r :: rest)
    (ho : s.Outcome r minted stores resolution)
    (hfresh : ∀ id, minted = .ok id → id ∉ coupons) :
    (s.conclude p r stores resolution).Sound requests
      (coupons ++ (Event.turn p minted).coupon?.toList) := by
  have hr : r ∈ s.queue.requests p := Stores.Tracked.mem_requests_head hm
  have hid : r.id ∈ requests := h.named.record (h.tracked.waiting hr).held
  have hstocked : (s.conclude p r stores resolution).stores.Stocked :=
    (ho.stocked h.stocked).of_stores rfl rfl rfl
  have horderly := h.orderly.serve ha hm
  have hhalted : s.cancelled = true → (s.queue.serve p r).closed = true := by
    rw [Queue.closed_serve ha hm]
    exact h.halted
  have hrecord {id e} : (s.stores.status.put s.now
      (r.record.resolved resolution s.now)).held? id = some e → id ∈ requests := by
    rw [Stores.held?_put_resolved]
    split
    · next hr => exact fun _ => hr ▸ hid
    · exact h.named.record
  rcases ho.cases with ⟨rfl, hlost⟩ | ⟨stock, id, hstock, h0, rfl, hown, rfl, rfl⟩
  · refine ⟨h.book, hstocked, ?_, horderly, hhalted, ?_⟩
    · exact h.tracked.serve ha hm h.book s.now (.of_lost h.book hlost)
    · have hnamed := h.named.mono [] (Event.turn p minted).coupon?.toList
      rw [List.append_nil] at hnamed
      exact ⟨hrecord, hnamed.ticket, hnamed.request, hnamed.coupon⟩
  · have hnew := h.coupon_new (hfresh id rfl)
    have hbook := h.book.enter (k := ⟨id, r.campaign, r.requester, r.id, s.now, none⟩) hnew hown
    refine ⟨hbook, hstocked, ?_, horderly, hhalted, ?_⟩
    · exact (h.tracked.serve ha hm h.book s.now (.of_issued h.book hnew hown)).of_stores rfl rfl rfl
    · refine ⟨hrecord, h.named.ticket, ?_, ?_⟩
      · intro i k hk
        change (s.stores.coupons.enter _).coupons.get? i = some k at hk
        rw [CouponBook.get?_enter] at hk
        split at hk
        · cases hk; exact hid
        · exact h.named.request hk
      · intro i k hk
        change (s.stores.coupons.enter _).coupons.get? i = some k at hk
        rw [CouponBook.get?_enter] at hk
        split at hk
        · next hi => exact List.mem_append_right _ (hi ▸ List.mem_singleton_self id)
        · exact List.mem_append_left _ (h.named.coupon hk)

end Conclude

theorem Sound.enqueue {s : Service} {requests : List RequestId} {coupons : List CouponId}
    (h : s.Sound requests coupons) {r : IssuanceRequest} {queue : Queue}
    (hu : s.stores.Unknown s.queue r.id r.key)
    (hunowned : s.stores.coupons.owned r.requester r.campaign = none)
    (hqueue : s.queue.enqueue r = .ok queue) :
    ({ s.keep r.record with queue := queue } : Service).Sound (requests ++ [r.id]) coupons := by
  have hnamed := h.named.mono [r.id] []
  rw [List.append_nil] at hnamed
  refine ⟨h.book, h.stocked.of_stores rfl rfl rfl, ?_, h.orderly.enqueue hqueue, ?_, ?_⟩
  · exact h.tracked.enqueue s.now hqueue hu hunowned
  · show s.cancelled = true → queue.closed = true
    rw [Queue.closed_enqueue hqueue]
    exact h.halted
  · exact hnamed.keep s.now (List.mem_append_right _ (List.mem_singleton_self r.id))

theorem Sound.move {s s' : Service} {e : Event} {requests : List RequestId} {coupons : List CouponId}
    (h : s.Sound requests coupons) (hmove : Move s e s')
    (hrequest : ∀ id, e.request? = some id → id ∉ requests)
    (hcoupon : ∀ id, e.coupon? = some id → id ∉ coupons) :
    s'.Sound (requests ++ e.request?.toList) (coupons ++ e.coupon?.toList) := by
  have hnamed := h.named.mono e.request?.toList e.coupon?.toList
  cases hmove with
  | idle => exact { h with named := hnamed }
  | @turnedAway o c id hanswer =>
    have hu := h.unknown hanswer (hrequest id rfl)
    refine { h with stocked := h.stocked.of_stores rfl rfl rfl, tracked := ?_, named := ?_ }
    · exact h.tracked.turnAway s.now hu rfl (fun hi => by cases hi)
    · exact hnamed.keep s.now (List.mem_append_right _ (List.mem_singleton_self id))
  | @queued o c id queue hanswer _ hqueue =>
    have hu := h.unknown hanswer (hrequest id rfl)
    have hunowned := (answer?_eq_none hanswer).2.2.1
    show Sound (requests ++ [id]) (coupons ++ []) _
    rw [List.append_nil]
    exact h.enqueue (r := ⟨id, c, o, s.now⟩) hu hunowned hqueue
  | @rejected o c id hanswer =>
    have hu := h.unknown hanswer (hrequest id rfl)
    exact { h with
      stocked := h.stocked.of_stores rfl rfl rfl
      tracked := h.tracked.clear hu.free
      named := hnamed.clear (o, c) id }
  | filled hlisted =>
    exact { h with
      stocked := h.stocked.reset hlisted
      tracked := h.tracked.of_stores rfl rfl rfl
      named := ⟨hnamed.record, hnamed.ticket, hnamed.request, hnamed.coupon⟩ }
  | registered _ hnew =>
    exact { h with
      stocked := h.stocked.register hnew
      tracked := h.tracked.of_stores rfl rfl rfl
      named := ⟨hnamed.record, hnamed.ticket, hnamed.request, hnamed.coupon⟩ }
  | redeemed hheld =>
    exact { h with
      book := h.book.spend hheld _
      stocked := h.stocked.spend h.book hheld _
      tracked := h.tracked.spend h.book hheld _
      named := hnamed.spend h.book hheld _ }
  | @served p minted r rest stores resolution ha hm ho =>
    have := h.conclude ha hm ho fun id hid => hcoupon id (by rw [hid]; rfl)
    simpa [Event.request?] using this
  | dismissed ha hm =>
    refine { h with tracked := ?_, orderly := h.orderly.dismiss ha hm, halted := ?_, named := hnamed }
    · exact h.tracked.of_requests (Queue.partitions_dismiss ha hm)
        (Queue.requests_dismiss h.orderly ha hm)
    · show s.cancelled = true → (s.queue.dismiss _ _).closed = true
      rw [Queue.closed_dismiss ha hm]
      exact h.halted
  | swept =>
    exact { h with
      stocked := h.stocked.of_stores rfl rfl rfl
      tracked := h.tracked.sweep s.now
      named := hnamed.sweep s.now }
  | waited => exact { h with named := hnamed }
  | closed =>
    refine { h with tracked := ?_, orderly := ?_, halted := fun _ => rfl, named := hnamed }
    · exact h.tracked.of_requests rfl fun _ => rfl
    · intro p
      obtain ⟨rs, markers, hs, -⟩ := h.orderly p
      exact ⟨rs, markers, hs, fun hc => by cases hc⟩
  | cancelled hclosed => exact { h with halted := fun _ => hclosed, named := hnamed }
  | @stopSent p hcancelled =>
    refine { h with
      tracked := ?_
      orderly := h.orderly.sendStop p (h.halted hcancelled)
      halted := ?_
      named := hnamed }
    · exact h.tracked.of_requests (Queue.partitions_sendStop ..) (Queue.requests_sendStop s.queue p)
    · show s.cancelled = true → (s.queue.sendStop p).1.closed = true
      rw [Queue.closed_sendStop]
      exact h.halted

/-- A service as it is set up: nothing was asked of it yet. -/
structure New (s : Service) : Prop where
  sound : s.Sound [] []
  unissued : s.stores.coupons = .empty
  idle : ∀ p, s.queue.requests p = []
  full : ∀ {c stock}, s.stores.ledger.snapshot c = some stock → stock.remaining = stock.total

theorem New.register {s : Service} (h : s.New) (draft : CampaignDraft) : (s.register draft).1.New := by
  have hmove := move_register h.sound.stocked draft
  refine ⟨?_, ?_, ?_, ?_⟩
  · have := h.sound.move hmove (fun _ hid => by cases hid) (fun _ hid => by cases hid)
    simpa [Event.request?, Event.coupon?] using this
  · generalize (s.register draft).1 = s' at hmove
    cases hmove <;> exact h.unissued
  · generalize (s.register draft).1 = s' at hmove
    cases hmove <;> exact h.idle
  · generalize (s.register draft).1 = s' at hmove
    cases hmove with
    | idle => exact h.full
    | @registered _ campaign =>
      intro c stock hstock
      change (Ledger.reset ..).1.snapshot c = some stock at hstock
      rw [Ledger.snapshot_reset] at hstock
      split at hstock
      · cases hstock; rfl
      · exact h.full hstock

/-- What holds of empty stores before an empty queue, and is kept by registrations, holds of a service as
it is set up. -/
theorem along_create {P : Service → Prop} {h : Hashing} {settings : Settings} {now : Millis}
    {s : Service} (hs : create h settings now = .ok s)
    (empty : ∀ queue,
      Queue.create settings.numWorkers.toNat (queueLimits settings) = .ok queue →
      P { stores := .create h settings.storeShards.toNat (settings.statusTtlSecs.toNat * 1000)
          queue := queue, settings := settings, cancelled := false, now := now })
    (keep : ∀ s draft, P s → P (s.register draft).1) : P s := by
  have along {s s' : Service} {seeds : List Seeds.Seed} (hseeds : s.registerSeeds seeds = .ok s')
      (hs : P s) : P s' := by
    induction seeds generalizing s with
    | nil => cases hseeds; exact hs
    | cons seed seeds ih =>
      obtain ⟨campaign, total⟩ := seed
      have hnext := keep s (.seeded campaign total s.settings.defaultDiscount) hs
      rw [registerSeeds] at hseeds
      generalize s.register (.seeded campaign total s.settings.defaultDiscount) = registered
        at hseeds hnext
      obtain ⟨next, answer⟩ := registered
      cases answer with
      | error why => cases hseeds
      | ok campaign => exact ih hseeds hnext
  unfold create at hs
  split at hs
  · cases hs
  · next queue hqueue =>
    dsimp only at hs
    split at hs
    · cases hs
    · next registered hseeds =>
      cases hs
      exact along hseeds (empty queue hqueue)

private theorem new_of_create {h : Hashing} {settings : Settings} {now : Millis} {s : Service}
    (hs : create h settings now = .ok s) : s.New := by
  apply along_create hs
  · intro queue hqueue
    refine ⟨?_, rfl, Queue.requests_create hqueue, fun hstock => by cases hstock⟩
    exact {
      book := CouponBook.sound_empty
      stocked := Stores.stocked_create ..
      tracked := Stores.tracked_create _ _ _ (Queue.requests_create hqueue)
      orderly := Queue.orderly_create hqueue
      halted := fun hc => by cases hc
      named := Stores.named_create .. }
  · exact fun s draft hnew => hnew.register draft

end Service

/-! ## Runs -/

namespace Run

variable (run : Run)

theorem new : run.initial.New := Service.new_of_create run.created

/-- Every state of a run is sound. -/
theorem sound (n : Nat) : (run.after n).Sound (run.requestNames n) (run.couponNames n) := by
  induction n with
  | zero => exact run.new.sound
  | succ n ih =>
    cases he : run.events[n]? with
    | none =>
      rw [after_succ_of_none he, requestNames_succ_of_none he, couponNames_succ_of_none he]
      exact ih
    | some e =>
      rw [after_succ he, requestNames_succ he, couponNames_succ he]
      exact ih.move (ih.move_step e fun _ => request_fresh he) (fun _ => request_fresh he)
        fun _ => coupon_fresh he

theorem move {n : Nat} {e : Event} (he : run.events[n]? = some e) :
    (run.after n).Move e (run.after (n + 1)) := by
  rw [after_succ he]
  exact (run.sound n).move_step e fun _ => request_fresh he

end Run
end CouponIssuance
