import CouponIssuance.Proofs.Lanes
import CouponIssuance.Proofs.Service.Serving
import CouponIssuance.Proofs.Service.Start
import CouponIssuance.Proofs.Table.Listing
/-!
# Queue and status store never drift

The records that are pending are those of the requests that wait in the lines, one for one. So the
counts that the lanes keep are counts of pending records, a request that waits is never without a
worker who will take it, and a worker never takes a request whose record has moved on.
-/
namespace CouponIssuance

namespace StatusStore

/-- All records that are held, one for each request. -/
def records (s : StatusStore) : List StatusRecord := s.entries.toList.map fun e => e.2.record

/-- The records that are pending. -/
def pending (s : StatusStore) : List StatusRecord := s.records.filter (·.state = .pending)

private theorem mem_records_iff {s : StatusStore} {record : StatusRecord} :
    record ∈ s.records ↔ ∃ id e, s.held? id = some e ∧ e.record = record := by
  rw [records, List.mem_map]
  constructor
  · rintro ⟨⟨id, e⟩, he, rfl⟩
    exact ⟨id, e, Sharded.mem_toList_iff.1 he, rfl⟩
  · rintro ⟨id, e, he, rfl⟩
    exact ⟨(id, e), Sharded.mem_toList_iff.2 he, rfl⟩

theorem mem_pending_iff {s : StatusStore} {record : StatusRecord} :
    record ∈ s.pending ↔ (∃ id e, s.held? id = some e ∧ e.record = record) ∧
      record.state = .pending := by
  rw [pending, List.mem_filter, mem_records_iff, decide_eq_true_iff]

private theorem nodup_records {s : StatusStore} (h : ∀ {id e}, s.held? id = some e → e.record.request = id) :
    s.records.Nodup := by
  have hkeys : s.records.map StatusRecord.request = s.entries.toList.map Prod.fst := by
    rw [records, List.map_map]
    apply List.map_congr_left
    rintro ⟨id, e⟩ he
    exact h (Sharded.mem_toList_iff.1 he)
  have hd := s.entries.nodup_keys_toList
  rw [← hkeys] at hd
  exact List.Pairwise.of_map StatusRecord.request (fun _ _ hne heq => hne (heq ▸ rfl)) hd

end StatusStore

namespace Event

/-- Whether an event is a turn of the worker of partition `p`. -/
def isTurnOf (p : Nat) : Event → Bool
  | .turn p' _ => p' = p
  | _ => false

theorem eq_turn_of_isTurnOf {p : Nat} {e : Event} (h : e.isTurnOf p = true) :
    ∃ minted, e = .turn p minted := by
  cases e with
  | turn p' minted =>
    have hp : p' = p := of_decide_eq_true h
    exact ⟨minted, by rw [hp]⟩
  | _ => cases h

end Event

namespace Service

variable {s s' : Service} {e : Event} {requests : List RequestId} {coupons : List CouponId}
  {p i : Nat} {r : IssuanceRequest}

private theorem Sound.nodup_waiting (h : s.Sound requests coupons) :
    (s.queue.waiting.map IssuanceRequest.id).Nodup := by
  rw [Queue.waiting, List.map_flatMap, List.Nodup, List.pairwise_flatMap]
  refine ⟨fun p _ => h.tracked.once p, List.pairwise_lt_range.imp ?_⟩
  intro p p' hlt x hx y hy heq
  obtain ⟨r, hr, rfl⟩ := List.mem_map.1 hx
  obtain ⟨r', hr', rfl⟩ := List.mem_map.1 hy
  have hsame := h.tracked.unique hr hr' heq
  subst hsame
  have hp := (h.tracked.waiting hr).partition
  rw [(h.tracked.waiting hr').partition] at hp
  omega

theorem Sound.mem_pending_iff (h : s.Sound requests coupons) {record : StatusRecord} :
    record ∈ s.stores.status.pending ↔ ∃ p, ∃ r ∈ s.queue.requests p, r.record = record := by
  rw [StatusStore.mem_pending_iff]
  constructor
  · rintro ⟨⟨id, e, he, rfl⟩, hpending⟩
    obtain ⟨p, r, hr, rfl, -⟩ := h.waiting_of_held he (by rw [hpending]; rfl)
    exact ⟨p, r, hr, rfl⟩
  · rintro ⟨p, r, hr, rfl⟩
    exact ⟨⟨r.id, r.entry, (h.tracked.waiting hr).held, rfl⟩, rfl⟩

/-- Of the requests that wait, those that pass a test stand for the pending records that pass it. -/
private theorem Sound.pending_perm (h : s.Sound requests coupons) (test : StatusRecord → Bool)
    {rs : List IssuanceRequest} (hd : (rs.map IssuanceRequest.id).Nodup)
    (hrs : ∀ r, r ∈ rs ↔ (∃ p, r ∈ s.queue.requests p) ∧ test r.record = true) :
    (s.stores.status.pending.filter test).Perm (rs.map IssuanceRequest.record) := by
  have hrecords : s.stores.status.records.Nodup :=
    StatusStore.nodup_records fun he => (h.tracked.held he).1
  have hpending : (s.stores.status.pending.filter test).Nodup := (hrecords.filter _).filter _
  have hwaiting : (rs.map IssuanceRequest.record).Nodup := by
    have hids : ((rs.map IssuanceRequest.record).map StatusRecord.request).Nodup := by
      rw [List.map_map]
      exact hd
    exact List.Pairwise.of_map StatusRecord.request (fun _ _ hne heq => hne (heq ▸ rfl)) hids
  rw [List.perm_ext_iff_of_nodup hpending hwaiting]
  intro record
  rw [List.mem_filter, h.mem_pending_iff, List.mem_map]
  constructor
  · rintro ⟨⟨p, r, hr, rfl⟩, htest⟩
    exact ⟨r, (hrs r).2 ⟨⟨p, hr⟩, htest⟩, rfl⟩
  · rintro ⟨r, hr, rfl⟩
    obtain ⟨⟨p, hp⟩, htest⟩ := (hrs r).1 hr
    exact ⟨⟨p, r, hp, rfl⟩, htest⟩

private theorem Sound.countP_pending (h : s.Sound requests coupons) (c : CampaignId) :
    s.stores.status.pending.countP (·.campaign = c) = (s.queue.line c).length := by
  have hd : ((s.queue.line c).map IssuanceRequest.id).Nodup :=
    List.Sublist.nodup (List.filter_sublist.map _) (h.tracked.once _)
  have hperm := h.pending_perm (fun record => record.campaign = c) hd fun r => by
    constructor
    · intro hr
      obtain ⟨hmem, hc⟩ := Queue.mem_requests_of_mem_line hr
      exact ⟨⟨_, hmem⟩, decide_eq_true hc⟩
    · rintro ⟨⟨p, hr⟩, hc⟩
      have hc : r.campaign = c := of_decide_eq_true hc
      have hp := (h.tracked.waiting hr).partition
      rw [hc] at hp
      exact List.mem_filter.2 ⟨hp ▸ hr, decide_eq_true hc⟩
  rw [List.countP_eq_length_filter, hperm.length_eq, List.length_map]

section Lanes

variable (h : s.Sound requests coupons) (hc : s.queue.Counted)

include h hc

theorem Sound.depth_eq (c : CampaignId) :
    s.queue.depth c = s.stores.status.pending.countP (·.campaign = c) := by
  rw [Queue.depth, hc c, h.countP_pending]

theorem Sound.inFlight_eq (c : CampaignId) :
    s.queue.inFlight c = s.stores.status.pending.countP (·.campaign = c) := by
  rw [Queue.inFlight, hc c, h.countP_pending]
  rfl

private theorem Sound.lane_of_pending {record : StatusRecord} (hr : record ∈ s.stores.status.pending) :
    record.campaign ∈ s.queue.lanes.keys := by
  have hpos : 0 < s.stores.status.pending.countP (·.campaign = record.campaign) :=
    List.countP_pos_iff.2 ⟨record, hr, decide_eq_true rfl⟩
  rw [← h.depth_eq hc] at hpos
  apply Classical.byContradiction
  intro hn
  have hnone := Table.get?_eq_none_iff.2 hn
  simp [Queue.depth, Queue.lane, Table.getD, hnone, Lane.idle] at hpos

/-- What is counted lane by lane, each lane counting its pending records, is all of them. -/
theorem Sound.totalBy_lanes {count : Lane → Nat}
    (hcount : ∀ c, count (s.queue.lane c) = s.stores.status.pending.countP (·.campaign = c)) :
    totalBy count s.queue.lanes.values = s.stores.status.pending.length := by
  rw [s.queue.lanes.totalBy_values count .idle]
  refine (totalBy_congr fun c _ => hcount c).trans ?_
  exact totalBy_countP_key StatusRecord.campaign s.queue.lanes.distinct
    fun _ hr => h.lane_of_pending hc hr

theorem Sound.totalDepth_eq : s.queue.totalDepth = s.stores.status.pending.length :=
  h.totalBy_lanes hc (h.depth_eq hc)

theorem Sound.totalInFlight_eq : s.queue.totalInFlight = s.stores.status.pending.length :=
  h.totalBy_lanes hc (h.inFlight_eq hc)

end Lanes

theorem Move.counted (hmove : Move s e s') (h : s.Sound requests coupons) (hc : s.queue.Counted) :
    s'.queue.Counted := by
  cases hmove with
  | queued _ _ hqueue => exact hc.enqueue hqueue
  | served ha hm =>
    exact hc.serve ha hm (h.tracked.waiting (Stores.Tracked.mem_requests_head hm)).partition
  | dismissed ha hm => exact hc.dismiss h.orderly ha hm
  | stopSent => exact hc.sendStop _
  | _ => exact hc

theorem Move.staffed (hmove : Move s e s') (hs : s.queue.Staffed) : s'.queue.Staffed := by
  cases hmove with
  | queued _ _ hqueue => exact hs.enqueue hqueue
  | served ha hm => exact hs.serve ha hm
  | dismissed ha hm => exact hs.dismiss ha hm
  | stopSent => exact hs.sendStop _
  | _ => exact hs

private theorem Sound.takes_first (h : s.Sound requests coupons) (hs : s.queue.Staffed)
    {rest : List IssuanceRequest} (hr : s.queue.requests p = r :: rest)
    (minted : Except Refusal CouponId) :
    (s.queue.channel p).attended = true ∧ s.takes (.turn p minted) = some r := by
  obtain ⟨rs, markers, hm, -⟩ := h.orderly p
  have hrs : s.queue.requests p = rs := Channel.requests_of_line hm
  rw [hr] at hrs
  subst hrs
  have hattended : (s.queue.channel p).attended = true := by
    cases ha : (s.queue.channel p).attended with
    | true => rfl
    | false =>
      have hempty := hs p ha
      rw [hm] at hempty
      cases hempty
  exact ⟨hattended, takes_of_head hattended hm minted⟩

/-- A turn of its worker brings a request one place forward, or takes it if it is the first. -/
theorem Move.place (hmove : Move s e s') (h : s.Sound requests coupons) (hs : s.queue.Staffed)
    (hr : (s.queue.requests p)[i]? = some r) :
    s.takes e = some r ∨ (e.isTurnOf p).toNat ≤ i ∧
      (s'.queue.requests p)[i - (e.isTurnOf p).toNat]? = some r := by
  obtain ⟨arrivals, hline, -⟩ := hmove.requests_append h p
  have hlt : i < (s.queue.requests p).length := (List.getElem?_eq_some_iff.1 hr).1
  cases hturn : e.isTurnOf p with
  | true =>
    obtain ⟨minted, rfl⟩ := Event.eq_turn_of_isTurnOf hturn
    cases hq : s.queue.requests p with
    | nil => rw [hq] at hlt; cases hlt
    | cons first rest =>
      have htakes := (h.takes_first hs hq minted).2
      have hfirst : first ∈ s.queue.requests p := by rw [hq]; exact List.mem_cons_self
      have hp := (h.tracked.waiting hfirst).partition
      rw [hq, htakes] at hline
      have hrest : rest ++ arrivals = s'.queue.requests p := by simpa [hp] using hline
      rw [hq] at hr
      cases i with
      | zero => exact .inl (htakes.trans hr)
      | succ j =>
        have hj : rest[j]? = some r := hr
        refine .inr ⟨Nat.le_add_left 1 j, ?_⟩
        show (s'.queue.requests p)[j]? = some r
        rw [← hrest, List.getElem?_append_left (List.getElem?_eq_some_iff.1 hj).1]
        exact hj
  | false =>
    have hnone : (s.takes e).toList.filter (fun x => s.queue.partitionOf x.campaign = p) = [] := by
      rw [List.filter_eq_nil_iff]
      intro x hx hp
      obtain ⟨p', minted, -, -, rfl, hmem, -, -⟩ := hmove.served_of_takes (Option.mem_toList.1 hx)
      have hp' := (h.tracked.waiting hmem).partition
      rw [of_decide_eq_true hp] at hp'
      subst hp'
      simp [Event.isTurnOf] at hturn
    rw [hnone, List.nil_append] at hline
    refine .inr ⟨Nat.zero_le i, ?_⟩
    show (s'.queue.requests p)[i]? = some r
    rw [← hline, List.getElem?_append_left hlt]
    exact hr

end Service

namespace Run

variable (run : Run)

theorem counted (n : Nat) : (run.after n).queue.Counted := by
  apply always (P := fun s => s.queue.Counted)
  · exact Queue.counted_create (Service.create_eq_ok run.created).1
  · exact fun he hcounted => (run.move he).counted (run.sound _) hcounted

theorem staffed (n : Nat) : (run.after n).queue.Staffed := by
  apply always (P := fun s => s.queue.Staffed)
  · exact Queue.staffed_create (Service.create_eq_ok run.created).1
  · exact fun he hstaffed => (run.move he).staffed hstaffed

/-- How many turns the worker of partition `p` takes from one moment to a later one. -/
def turns (p m n : Nat) : Nat := ((run.events.take n).drop m).countP (Event.isTurnOf p)

variable {run} {p m n i : Nat} {r : IssuanceRequest}

theorem turns_self : run.turns p m m = 0 := by simp [turns]

theorem turns_succ {e : Event} (hmn : m ≤ n) (he : run.events[n]? = some e) :
    run.turns p m (n + 1) = run.turns p m n + (e.isTurnOf p).toNat := by
  have hlen : m ≤ (run.events.take n).length := by
    have := (List.getElem?_eq_some_iff.1 he).1
    rw [List.length_take]
    omega
  rw [turns, List.take_add_one, he, List.drop_append_of_le_length hlen, List.countP_append, turns]
  cases h : e.isTurnOf p <;> simp [h]

theorem turns_succ_of_none (he : run.events[n]? = none) :
    run.turns p m (n + 1) = run.turns p m n := by
  simp [turns, List.take_add_one, he]

/-- A request that waits comes forward with each turn of its worker until it is taken. -/
theorem taken_or_waits (hmn : m ≤ n) (hr : ((run.after m).queue.requests p)[i]? = some r) :
    (∃ k, m ≤ k ∧ k < n ∧ run.taken k = some r) ∨
      run.turns p m n ≤ i ∧ ((run.after n).queue.requests p)[i - run.turns p m n]? = some r := by
  induction hmn with
  | refl => exact .inr ⟨by rw [turns_self]; exact Nat.zero_le i, by rw [turns_self]; exact hr⟩
  | @step n hmn ih =>
    rcases ih with ⟨k, hmk, hkn, htaken⟩ | ⟨hle, hplace⟩
    · exact .inl ⟨k, hmk, Nat.lt_succ_of_lt hkn, htaken⟩
    cases he : run.events[n]? with
    | none =>
      rw [turns_succ_of_none he, after_succ_of_none he]
      exact .inr ⟨hle, hplace⟩
    | some e =>
      rw [turns_succ hmn he]
      rcases (run.move he).place (run.sound n) (run.staffed n) hplace with htakes | ⟨hle', hnext⟩
      · exact .inl ⟨n, hmn, Nat.lt_succ_self n, (taken_of_some he).trans htakes⟩
      · rw [Nat.sub_sub] at hnext
        exact .inr ⟨by omega, hnext⟩

private theorem ended_of_taken (htaken : run.taken n = some r) :
    ∃ record, (run.after (n + 1)).status r.id = .ok record ∧ record.state.isTerminal = true := by
  obtain ⟨minted, stores, resolution, hturn⟩ := turn_of_taken htaken
  obtain ⟨p, hnext⟩ := hturn.next
  refine ⟨r.record.resolved resolution (run.after n).now, ?_, ?_⟩
  · rw [hnext]
    exact Service.status_conclude ..
  · rw [StatusRecord.resolved_state, Resolution.isTerminal_state]

variable (run) in
/-- In every state of a run, a request waits in a line exactly when its record is pending, with the
same campaign, requester and time of submission. No request waits twice, and no record is
processing. So for every campaign the depth of the queue and the number of requests in flight are
the number of its pending records, and the same holds of the whole. A request that waits has a
worker, who takes it once the worker has had as many turns as there are requests up to it; its
record can be moved on then, and it ends. -/
theorem no_drift (n : Nat) :
    (∀ p r, r ∈ (run.after n).queue.requests p → (run.after n).stores.status.held? r.id =
      some ⟨.pending r.id r.campaign r.requester r.submittedAt, none⟩) ∧
    (∀ id e, (run.after n).stores.status.held? id = some e → e.record.state ≠ .processing ∧
      (e.record.state = .pending → ∃ p, ∃ r ∈ (run.after n).queue.requests p, r.id = id ∧
        e.record = .pending r.id r.campaign r.requester r.submittedAt)) ∧
    ((run.after n).queue.waiting.map IssuanceRequest.id).Nodup ∧
    (∀ c, (run.after n).queue.depth c =
        (run.after n).stores.status.pending.countP (·.campaign = c) ∧
      (run.after n).queue.inFlight c =
        (run.after n).stores.status.pending.countP (·.campaign = c)) ∧
    (run.after n).systemStatus.queueDepth = (run.after n).stores.status.pending.length ∧
    (run.after n).systemStatus.inFlight = (run.after n).stores.status.pending.length ∧
    (∀ p i r, ((run.after n).queue.requests p)[i]? = some r →
      ((run.after n).queue.channel p).attended = true ∧
      ∀ m, n ≤ m → i < run.turns p n m → ∃ k, n ≤ k ∧ k < m ∧ run.taken k = some r ∧
        ∃ record, (run.after (k + 1)).status r.id = .ok record ∧
          record.state.isTerminal = true) ∧
    ∀ r, run.taken n = some r → ∃ moved, (run.after n).stores.status.advance (run.after n).now r.id
      .processing = .ok moved := by
  have h := run.sound n
  refine ⟨fun p r hr => (h.tracked.waiting hr).held, ?_, h.nodup_waiting, fun c => ?_, ?_, ?_, ?_, ?_⟩
  · intro id e he
    constructor
    · intro hprocessing
      obtain ⟨p, r, -, rfl, -⟩ := h.waiting_of_held he (by rw [hprocessing]; rfl)
      cases hprocessing
    · intro hpending
      obtain ⟨p, r, hr, rfl, hid⟩ := h.waiting_of_held he (by rw [hpending]; rfl)
      exact ⟨p, r, hr, hid, rfl⟩
  · exact ⟨h.depth_eq (run.counted n) c, h.inFlight_eq (run.counted n) c⟩
  · exact h.totalDepth_eq (run.counted n)
  · exact h.totalInFlight_eq (run.counted n)
  · intro p i r hr
    constructor
    · cases hq : (run.after n).queue.requests p with
      | nil => rw [hq] at hr; cases hr
      | cons first rest => exact (h.takes_first (run.staffed n) hq (.error .shuttingDown)).1
    · intro m hnm hturns
      rcases taken_or_waits hnm hr with ⟨k, hnk, hkm, htaken⟩ | ⟨hle, -⟩
      · exact ⟨k, hnk, hkm, htaken, ended_of_taken htaken⟩
      · omega
  · intro r htaken
    obtain ⟨minted, stores, resolution, hturn⟩ := turn_of_taken htaken
    obtain ⟨p, hr⟩ := hturn.waits
    exact ⟨_, StatusStore.advance_of_held? (h.tracked.waiting hr).held rfl rfl⟩

/-- Two requests wait while an hour passes; the second is still in line when the service is stopped. -/
def stoppedEarly : Run :=
  small [.issue ⟨1⟩ ⟨1⟩ (.ok ⟨"a"⟩), .issue ⟨2⟩ ⟨1⟩ (.ok ⟨"b"⟩), .wait 3600001, .sweep,
    .turn 0 (.ok ⟨"x"⟩), .close, .cancel, .sendStop 0, .turn 0 (.ok ⟨"y"⟩)] (by decide) (by decide)

theorem no_drift_stoppedEarly :
    ((stoppedEarly.after 2).queue.requests 0)[1]? = some ⟨⟨"b"⟩, ⟨1⟩, ⟨2⟩, 0⟩ ∧
    1 < stoppedEarly.turns 0 2 9 ∧
    (∃ k, 2 ≤ k ∧ k < 9 ∧ stoppedEarly.taken k = some ⟨⟨"b"⟩, ⟨1⟩, ⟨2⟩, 0⟩) ∧
    stoppedEarly.taken 8 = some ⟨⟨"b"⟩, ⟨1⟩, ⟨2⟩, 0⟩ ∧
    (stoppedEarly.after 8).stores.status.held? ⟨"b"⟩ =
      some ⟨.pending ⟨"b"⟩ ⟨1⟩ ⟨2⟩ 0, none⟩ ∧
    (∃ moved, (stoppedEarly.after 8).stores.status.advance (stoppedEarly.after 8).now ⟨"b"⟩
      .processing = .ok moved) ∧
    (stoppedEarly.after 2).systemStatus.queueDepth = 2 := by
  have hplace : ((stoppedEarly.after 2).queue.requests 0)[1]? = some ⟨⟨"b"⟩, ⟨1⟩, ⟨2⟩, 0⟩ := by rfl
  have hturns : 1 < stoppedEarly.turns 0 2 9 := by decide
  have htaken : stoppedEarly.taken 8 = some ⟨⟨"b"⟩, ⟨1⟩, ⟨2⟩, 0⟩ := by rfl
  obtain ⟨-, -, -, -, hdepth, -, hlater, -⟩ := stoppedEarly.no_drift 2
  obtain ⟨hwaiting, -, -, -, -, -, -, hmoved⟩ := stoppedEarly.no_drift 8
  obtain ⟨k, hk, hk', hb, -⟩ := (hlater 0 1 _ hplace).2 9 (by decide) hturns
  exact ⟨hplace, hturns, ⟨k, hk, hk', hb⟩, htaken, hwaiting 0 _ (List.mem_of_getElem? (i := 0) (by rfl)),
    hmoved _ htaken, hdepth.trans (by rfl)⟩

end Run
end CouponIssuance
