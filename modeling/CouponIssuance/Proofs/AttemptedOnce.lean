import CouponIssuance.Proofs.Stores.Dispatch
import CouponIssuance.Status.Wait
/-!
# A request is attempted once

Whatever the stores hold, to dispatch a request that is not pending does nothing, and to dispatch one that
is pending ends it: it wins a coupon for a unit of stock, or it ends with the ledger and the coupon book as
they were. Only putting its record anew makes a request pending again, so until then neither a second
dispatch nor giving it up does anything.
-/
namespace CouponIssuance

/-- The record held for a request is pending. -/
def StatusStore.Pending (s : StatusStore) (id : RequestId) : Prop :=
  ∃ e, s.held? id = some e ∧ e.record.state = .pending

namespace Stores

/-- `r` wins the coupon `id`. Of its campaign one unit less remains and one coupon more is counted, and
the requester is its owner; the stock, the count and the owners of all else stay, and so do all other
coupons. -/
structure Wins (s : Stores) (now : Millis) (r : IssuanceRequest) (id : CouponId) (s' : Stores) :
    Prop where
  unit : ∃ before after, s.ledger.snapshot r.campaign = some before ∧
    s'.ledger.snapshot r.campaign = some after ∧ after.total = before.total ∧
    before.remaining.toNat = after.remaining.toNat + 1
  otherUnits : ∀ c, c ≠ r.campaign → s'.ledger.snapshot c = s.ledger.snapshot c
  new : s.coupons.coupons.get? id = none
  coupon : ∀ other, s'.coupons.coupons.get? other =
    if id = other then some ⟨id, r.campaign, r.requester, r.id, now, none⟩
    else s.coupons.coupons.get? other
  owned : s'.coupons.owned r.requester r.campaign =
    some ⟨id, r.campaign, r.requester, r.id, now, none⟩
  owners : ∀ key, s'.coupons.owners.get? key =
    if (r.requester, r.campaign) = key then some id else s.coupons.owners.get? key
  counts : ∀ c, s'.coupons.countFor c = s.coupons.countFor c + if r.campaign = c then 1 else 0
  size : s'.coupons.size = s.coupons.size + 1

/-- How an attempt ends, and what it does to ledger and coupon book: nothing if the campaign is not open, if
nothing remains, or if the coupon cannot be entered, since the requester has one or no name could be
minted; else `r` wins a coupon. -/
inductive Ending (s : Stores) (now : Millis) (r : IssuanceRequest) (minted : Except Refusal CouponId)
    (s' : Stores) : Resolution → Prop
  | closed {why} (hclosed : s.activeCampaign r.campaign now = .error why)
      (hledger : s'.ledger = s.ledger) (hbook : s'.coupons = s.coupons) :
      Ending s now r minted s' (.failed why.message)
  | exhausted {campaign} (hopen : s.activeCampaign r.campaign now = .ok campaign)
      (hnone : ∀ stock, s.ledger.snapshot r.campaign = some stock → stock.remaining = 0)
      (hledger : s'.ledger = s.ledger) (hbook : s'.coupons = s.coupons) :
      Ending s now r minted s' .soldOut
  | unrecorded {campaign stock why} (hopen : s.activeCampaign r.campaign now = .ok campaign)
      (hstock : s.ledger.snapshot r.campaign = some stock) (hremaining : stock.remaining ≠ 0)
      (hwhy : s.coupons.owners.contains (r.requester, r.campaign) = false → minted = .error why)
      (hledger : s'.ledger = s.ledger) (hbook : s'.coupons = s.coupons) :
      Ending s now r minted s' (.failed why.message)
  | issued {campaign stock id} (hopen : s.activeCampaign r.campaign now = .ok campaign)
      (hstock : s.ledger.snapshot r.campaign = some stock) (hremaining : stock.remaining ≠ 0)
      (hminted : minted = .ok id)
      (hunowned : s.coupons.owners.contains (r.requester, r.campaign) = false)
      (hwins : s.Wins now r id s') : Ending s now r minted s' (.issued id)

/-- The request `r`, whose entry is `e`, is ended: of the records its own alone is written, campaigns and
tickets stay, and of stock and coupons only what it wins changes. -/
structure Ends (s : Stores) (now : Millis) (r : IssuanceRequest) (minted : Except Refusal CouponId)
    (e : StatusEntry) (resolution : Resolution) (s' : Stores) : Prop where
  record : ∀ id, s'.status.held? id =
    if r.id = id then some ⟨e.record.resolved resolution now, some now⟩ else s.status.held? id
  catalog : s'.catalog = s.catalog
  tickets : s'.tickets = s.tickets
  ending : s.Ending now r minted s' resolution

section Dispatch

variable {s : Stores} {r : IssuanceRequest} {e : StatusEntry} {minted : Except Refusal CouponId}
  {now : Millis}

private theorem dispatch_of_not_pending (h : ¬ s.status.Pending r.id) (minted : Except Refusal CouponId) :
    s.dispatch now r minted = s :=
  process_of_not_pending now (fun e he hp => h ⟨e, he, hp⟩) _

private theorem abandon_of_not_pending (h : ¬ s.status.Pending r.id) : s.abandon now r = s :=
  process_of_not_pending now (fun e he hp => h ⟨e, he, hp⟩) _

private theorem wins_enter {stock : Stock} {id : CouponId} {s' : Stores}
    (hstock : s.ledger.snapshot r.campaign = some stock) (h0 : stock.remaining ≠ 0)
    (hnew : s.coupons.coupons.get? id = none)
    (hledger : s'.ledger = (s.ledger.tryReserve r.campaign).1)
    (hbook : s'.coupons = s.coupons.enter ⟨id, r.campaign, r.requester, r.id, now, none⟩) :
    s.Wins now r id s' where
  unit := by
    refine ⟨stock, { stock with remaining := stock.remaining - 1 }, hstock, ?_, rfl, ?_⟩
    · rw [hledger, Ledger.snapshot_tryReserve hstock h0, if_pos rfl]
    · have hless := Ledger.toNat_remaining_sub_one h0
      have hpos : stock.remaining.toNat ≠ 0 := fun h => h0 (UInt64.toNat_inj.1 h)
      show stock.remaining.toNat = (stock.remaining - 1).toNat + 1
      omega
  otherUnits := by
    intro c hc
    rw [hledger, Ledger.snapshot_tryReserve hstock h0, if_neg (Ne.symm hc)]
  new := hnew
  coupon := by
    intro other
    rw [hbook, CouponBook.get?_enter]
  owned := by
    rw [hbook]
    simp [CouponBook.owned, CouponBook.enter]
  owners := by
    intro key
    rw [hbook, CouponBook.get?_owners_enter]
  counts := by
    intro c
    rw [hbook, CouponBook.countFor_enter]
  size := by
    rw [hbook, CouponBook.size, CouponBook.enter, Table.size_insert, Table.contains, hnew]
    rfl

private theorem ending_attempt
    (hle : ∀ stock, s.ledger.snapshot r.campaign = some stock → stock.remaining ≤ stock.total)
    (hnew : ∀ id, minted = .ok id → s.coupons.coupons.get? id = none) {s' : Stores}
    (hledger : s'.ledger = (s.attempt now r minted).1.ledger)
    (hbook : s'.coupons = (s.attempt now r minted).1.coupons) :
    s.Ending now r minted s' (s.attempt now r minted).2 := by
  rcases attempt_cases now minted hle with ⟨why, hclosed, he⟩ | ⟨campaign, hopen, hattempt⟩
  · rw [he] at hledger hbook ⊢
    exact .closed hclosed hledger hbook
  · rcases hattempt with ⟨hnone, he⟩ | ⟨stock, hstock, h0, ⟨why, hwhy, he⟩ | ⟨id, hm, ho, he⟩⟩ <;>
      rw [he] at hledger hbook ⊢
    · exact .exhausted hopen hnone hledger hbook
    · exact .unrecorded hopen hstock h0 hwhy hledger hbook
    · exact .issued hopen hstock h0 hm ho (wins_enter hstock h0 (hnew id hm) hledger hbook)

private theorem attempt_keeps (s : Stores) (now : Millis) (r : IssuanceRequest)
    (minted : Except Refusal CouponId) : (s.attempt now r minted).1.catalog = s.catalog ∧
      (s.attempt now r minted).1.tickets = s.tickets ∧
      (s.attempt now r minted).1.status = s.status := by
  unfold attempt
  split
  · exact ⟨rfl, rfl, rfl⟩
  · split <;> exact ⟨rfl, rfl, rfl⟩

private theorem dispatch_of_held (h : s.status.held? r.id = some e) (hp : e.record.state = .pending)
    (now : Millis) (minted : Except Refusal CouponId) :
    s.dispatch now r minted = { (s.attempt now r minted).1 with status := { s.status with
      entries := s.status.entries.insert r.id
        ⟨e.record.resolved (s.attempt now r minted).2 now, some now⟩ } } :=
  process_of_held now h hp attempt_with_status

private theorem ends_dispatch (h : s.status.held? r.id = some e) (hp : e.record.state = .pending)
    (hle : ∀ stock, s.ledger.snapshot r.campaign = some stock → stock.remaining ≤ stock.total)
    (hnew : ∀ id, minted = .ok id → s.coupons.coupons.get? id = none) :
    s.Ends now r minted e (s.attempt now r minted).2 (s.dispatch now r minted) := by
  obtain ⟨hcatalog, htickets, -⟩ := s.attempt_keeps now r minted
  rw [dispatch_of_held h hp]
  exact ⟨fun id => Sharded.get?_insert .., hcatalog, htickets, ending_attempt hle hnew rfl rfl⟩

private theorem resolve_after_advance {status : StatusStore} {record : StatusRecord}
    (h : s.status.advance now r.id .processing = .ok (status, record)) (later : Millis)
    (resolution : Resolution) : ∃ recorded, status.resolve later r.id resolution = .ok recorded := by
  obtain ⟨e, -, -, rfl, hheld⟩ := StatusStore.held?_of_transition h
  exact ⟨_, StatusStore.resolve_of_held? ((hheld r.id).trans (if_pos rfl)) rfl resolution⟩

end Dispatch

/-- What may be done to the stores: a call to the status store, the end of a request, a sweep, or anything
at all to the other stores. -/
inductive Deed where
  | status (now : Millis) (action : StatusAction)
  | dispatch (now : Millis) (r : IssuanceRequest) (minted : Except Refusal CouponId)
  | abandon (now : Millis) (r : IssuanceRequest)
  | sweep (now : Millis)
  | elsewhere (catalog : Catalog) (ledger : Ledger) (coupons : CouponBook) (tickets : TicketIndex)

/-- Whether the deed puts a record for the request. -/
def Deed.Puts (id : RequestId) : Deed → Prop
  | .status _ (.put record) => record.request = id
  | _ => False

def perform (s : Stores) : Deed → Stores
  | .status now action => { s with status := (s.status.act now action).1 }
  | .dispatch now r minted => s.dispatch now r minted
  | .abandon now r => s.abandon now r
  | .sweep now => s.sweep now
  | .elsewhere catalog ledger coupons tickets =>
    { s with catalog := catalog, ledger := ledger, coupons := coupons, tickets := tickets }

end Stores

namespace StatusStore

variable {s s' : StatusStore} {now : Millis} {id : RequestId}

private theorem ne_pending_of_canAdvanceTo {state next : RequestState}
    (h : state.canAdvanceTo next = true) : next ≠ .pending := by
  rintro rfl
  cases state <;> cases h

private theorem pending_of_transition {moved : RequestId} {next : RequestState}
    {change : StatusRecord → StatusRecord} {record : StatusRecord}
    (hnext : ∀ r : StatusRecord, (change { r with state := next }).state = next)
    (h : s.transition now moved next change = .ok (s', record)) (hp : s'.Pending id) :
    s.Pending id := by
  obtain ⟨e, -, hadvance, rfl, hheld⟩ := held?_of_transition h
  obtain ⟨e', he', hpending⟩ := hp
  rw [hheld] at he'
  split at he'
  · cases he'
    exact absurd ((hnext e.record).symm.trans hpending) (ne_pending_of_canAdvanceTo hadvance)
  · exact ⟨e', he', hpending⟩

private theorem pending_of_advance {moved : RequestId} {next : RequestState} {record : StatusRecord}
    (h : s.advance now moved next = .ok (s', record)) (hp : s'.Pending id) : s.Pending id :=
  pending_of_transition (fun _ => rfl) h hp

private theorem pending_of_resolve {moved : RequestId} {resolution : Resolution} {record : StatusRecord}
    (h : s.resolve now moved resolution = .ok (s', record)) (hp : s'.Pending id) : s.Pending id :=
  pending_of_transition (fun _ => StatusRecord.resolved_state ..) h hp

private theorem pending_of_purge (hp : (s.purge now).1.Pending id) : s.Pending id := by
  obtain ⟨e, he, hpending⟩ := hp
  rw [held?_purge] at he
  exact ⟨e, (Option.filter_eq_some_iff.1 he).1, hpending⟩

private theorem pending_of_act {a : StatusAction} (ha : ∀ record, a = .put record → record.request ≠ id)
    (hp : (s.act now a).1.Pending id) : s.Pending id := by
  cases a with
  | put record =>
    obtain ⟨e, he, hpending⟩ := hp
    change (s.put now record).held? id = some e at he
    rw [held?_put, if_neg (ha record rfl)] at he
    exact ⟨e, he, hpending⟩
  | get => exact hp
  | advance moved next =>
    simp only [act] at hp
    split at hp
    · next h => exact pending_of_advance h hp
    · exact hp
  | resolve moved resolution =>
    simp only [act] at hp
    split at hp
    · next h => exact pending_of_resolve h hp
    · exact hp
  | remove removed =>
    obtain ⟨e, he, hpending⟩ := hp
    change (s.entries.erase removed).get? id = some e at he
    rw [Sharded.get?_erase] at he
    split at he
    · cases he
    · exact ⟨e, he, hpending⟩
  | purge => exact pending_of_purge hp
  | count => exact hp

end StatusStore

namespace Stores

variable {s : Stores} {id : RequestId}

private theorem pending_of_process {now : Millis} {r : IssuanceRequest}
    {work : Stores → Stores × Resolution} (hw : ∀ s, (work s).1.status = s.status)
    (hp : (s.process now r work).status.Pending id) : s.status.Pending id := by
  unfold process at hp
  split at hp
  · exact hp
  · next status record hadvance =>
    apply StatusStore.pending_of_advance hadvance
    simp only [conclude] at hp
    rw [hw] at hp
    split at hp
    · next hresolve => exact StatusStore.pending_of_resolve hresolve hp
    · rw [hw] at hp; exact hp

private theorem pending_of_perform {deed : Deed} (hdeed : ¬ deed.Puts id)
    (hp : (s.perform deed).status.Pending id) : s.status.Pending id := by
  cases deed with
  | status now action =>
    apply StatusStore.pending_of_act _ hp
    rintro record rfl
    exact hdeed
  | dispatch now r minted =>
    exact pending_of_process (fun s => (s.attempt_keeps now r minted).2.2) hp
  | abandon now r => exact pending_of_process (fun _ => rfl) hp
  | sweep now => exact StatusStore.pending_of_purge hp
  | elsewhere => exact hp

private theorem pending_of_performed {deeds : List Deed} (hdeeds : ∀ deed ∈ deeds, ¬ deed.Puts id)
    (hp : (deeds.foldl perform s).status.Pending id) : s.status.Pending id := by
  induction deeds generalizing s with
  | nil => exact hp
  | cons deed deeds ih =>
    obtain ⟨hdeed, hrest⟩ := List.forall_mem_cons.1 hdeeds
    exact pending_of_perform hdeed (ih hrest hp)

/-- After its request has been processed no record is pending, whether it was before or not. -/
private theorem not_pending_of_process (now : Millis) {r : IssuanceRequest}
    {work : Stores → Stores × Resolution}
    (hw : ∀ status, work { s with status := status } =
      ({ (work s).1 with status := status }, (work s).2)) :
    ¬ (s.process now r work).status.Pending r.id := by
  by_cases hbefore : s.status.Pending r.id
  · obtain ⟨e, he, hpending⟩ := hbefore
    rw [process_of_held now he hpending hw]
    rintro ⟨e', he', hpending'⟩
    change (s.status.entries.insert r.id _).get? r.id = some e' at he'
    rw [Sharded.get?_insert, if_pos rfl] at he'
    cases he'
    rw [StatusRecord.resolved_state] at hpending'
    generalize (work s).2 = resolution at hpending'
    cases resolution <;> cases hpending'
  · rw [process_of_not_pending now fun e he hp => hbefore ⟨e, he, hp⟩]
    exact hbefore

/-- To dispatch a pending request ends it: it is issued, for one unit and with one coupon more, or
it is sold out or has failed, with ledger and book as they were. To dispatch any other request does
nothing, and neither does a second dispatch or giving it up, as long as no record is put for it. -/
theorem dispatched_once (s : Stores) (now : Millis) (r : IssuanceRequest)
    (minted : Except Refusal CouponId)
    (hle : ∀ stock, s.ledger.snapshot r.campaign = some stock → stock.remaining ≤ stock.total)
    (hnew : ∀ id, minted = .ok id → s.coupons.coupons.get? id = none) :
    (¬ s.status.Pending r.id → s.dispatch now r minted = s) ∧
    (∀ e, s.status.held? r.id = some e → e.record.state = .pending →
      ∃ resolution, s.Ends now r minted e resolution (s.dispatch now r minted)) ∧
    (∀ status record, s.status.advance now r.id .processing = .ok (status, record) → ∀ later,
      let attempted := ({ s with status := status } : Stores).attempt now r minted
      ∃ recorded, attempted.1.status.resolve later r.id attempted.2 = .ok recorded) ∧
    ∀ ended, ended = s.dispatch now r minted ∨ ended = s.abandon now r →
      ∀ deeds : List Deed, (∀ deed ∈ deeds, ¬ deed.Puts r.id) → ∀ later minted',
        (deeds.foldl perform ended).dispatch later r minted' = deeds.foldl perform ended ∧
        (deeds.foldl perform ended).abandon later r = deeds.foldl perform ended := by
  refine ⟨fun h => dispatch_of_not_pending h minted, ?_, ?_, ?_⟩
  · exact fun e he hp => ⟨_, ends_dispatch he hp hle hnew⟩
  · intro status record hadvance later
    dsimp only
    rw [(attempt_keeps { s with status := status } now r minted).2.2]
    exact resolve_after_advance hadvance later _
  · intro ended hended deeds hdeeds later minted'
    have hafter : ¬ ended.status.Pending r.id := by
      rcases hended with rfl | rfl
      · exact not_pending_of_process now attempt_with_status
      · exact not_pending_of_process now fun _ => rfl
    have hlater : ¬ (deeds.foldl perform ended).status.Pending r.id :=
      fun hp => hafter (pending_of_performed hdeeds hp)
    exact ⟨dispatch_of_not_pending hlater minted', abandon_of_not_pending hlater⟩

/-- A requester waits for one of two coupons. -/
def oneWaiting : Stores :=
  let empty := create ⟨fun _ => 0, fun _ => 0⟩ 1 1000
  { empty with
    catalog := ⟨Table.empty.insert ⟨1⟩ ⟨⟨1⟩, "summer", 2, .unlimited, .fixed 5, 0⟩⟩
    ledger := (empty.ledger.register ⟨1⟩ 2).1
    status := empty.status.put 0 (.pending ⟨"a"⟩ ⟨1⟩ ⟨7⟩ 0) }

theorem dispatched_once_oneWaiting :
    let r : IssuanceRequest := ⟨⟨"a"⟩, ⟨1⟩, ⟨7⟩, 0⟩
    let won := oneWaiting.dispatch 5 r (.ok ⟨"x"⟩)
    let failed := oneWaiting.dispatch 5 r (.error (.internal "clock"))
    let swept := [Deed.status 6 (.remove ⟨"b"⟩), .sweep 3000].foldl perform won
    (∃ resolution,
      oneWaiting.Ends 5 r (.ok ⟨"x"⟩) ⟨.pending ⟨"a"⟩ ⟨1⟩ ⟨7⟩ 0, none⟩ resolution won) ∧
    won.ledger.snapshot ⟨1⟩ = some ⟨2, 1⟩ ∧ won.dispatch 6 r (.ok ⟨"y"⟩) = won ∧
    swept.status.held? ⟨"a"⟩ = none ∧ swept.dispatch 4000 r (.ok ⟨"y"⟩) = swept ∧
    (∃ resolution, oneWaiting.Ends 5 r (.error (.internal "clock"))
      ⟨.pending ⟨"a"⟩ ⟨1⟩ ⟨7⟩ 0, none⟩ resolution failed) ∧
    failed.ledger.snapshot ⟨1⟩ = some ⟨2, 2⟩ := by
  intro r won failed swept
  have hle (stock : Stock) (h : oneWaiting.ledger.snapshot r.campaign = some stock) :
      stock.remaining ≤ stock.total := by
    cases h
    decide
  obtain ⟨-, hwon, -, hagain⟩ := oneWaiting.dispatched_once 5 r (.ok ⟨"x"⟩) hle fun _ _ => by rfl
  obtain ⟨-, hfailed, -, -⟩ :=
    oneWaiting.dispatched_once 5 r (.error (.internal "clock")) hle fun _ h => by cases h
  refine ⟨hwon _ (by rfl) rfl, by rfl, (hagain won (.inl rfl) [] (by simp) 6 _).1, by rfl, ?_,
    hfailed _ (by rfl) rfl, by rfl⟩
  exact (hagain won (.inl rfl) [.status 6 (.remove ⟨"b"⟩), .sweep 3000] (by simp [Deed.Puts]) _ _).1

end Stores
end CouponIssuance
