import CouponIssuance.Proofs.Service.Effect
import CouponIssuance.Proofs.Service.Records
/-!
# Requests in line, and their ends

Requests leave their line in the order in which they came, one in each turn of the worker, and how a
request ends is then recorded for good: its record is shown as it is until it is forgotten, and no
coupon comes later.
-/
namespace CouponIssuance

namespace Service

variable {s s' : Service} {e : Event} {requests : List RequestId} {coupons : List CouponId}
  {p : Nat} {r : IssuanceRequest}

theorem Move.partitions (hmove : Move s e s') : s'.queue.partitions = s.queue.partitions := by
  cases hmove with
  | queued _ _ hqueue => exact Queue.partitions_enqueue hqueue
  | served ha hm => exact Queue.partitions_serve ha hm
  | dismissed ha hm => exact Queue.partitions_dismiss ha hm
  | stopSent => exact Queue.partitions_sendStop ..
  | _ => rfl

theorem Move.requests_append (hmove : Move s e s') (h : s.Sound requests coupons) (p : Nat) :
    ∃ arrivals : List IssuanceRequest,
      s.queue.requests p ++ arrivals =
        (s.takes e).toList.filter (fun r => s.queue.partitionOf r.campaign = p) ++
          s'.queue.requests p ∧
      (arrivals.map IssuanceRequest.id).Sublist e.request?.toList := by
  cases hmove with
  | idle htakes => exact ⟨[], by simp [htakes], List.nil_sublist _⟩
  | @queued o c id queue _ _ hqueue =>
    refine ⟨if s.queue.partitionOf c = p then [⟨id, c, o, s.now⟩] else [], ?_, ?_⟩
    · exact (Queue.requests_enqueue hqueue p).symm
    · split
      · exact List.Sublist.refl _
      · exact List.nil_sublist _
  | @served p' minted r rest stores resolution ha hm =>
    have hpartition := (h.tracked.waiting (Stores.Tracked.mem_requests_head hm)).partition
    refine ⟨[], ?_, List.nil_sublist _⟩
    rw [takes_of_head ha hm, List.append_nil, Queue.requests_serve ha hm]
    by_cases hp : p' = p <;> simp [hpartition, hp] <;> rfl
  | dismissed ha hm =>
    refine ⟨[], ?_, List.nil_sublist _⟩
    rw [takes_of_marker ha hm, List.append_nil]
    exact (Queue.requests_dismiss h.orderly ha hm p).symm
  | stopSent =>
    refine ⟨[], ?_, List.nil_sublist _⟩
    rw [List.append_nil]
    exact (Queue.requests_sendStop ..).symm
  | _ => exact ⟨[], List.append_nil _, List.nil_sublist _⟩

/-- A request goes on waiting unless a worker takes it, and then its end can be seen. -/
theorem Move.waits (hmove : Move s e s') (h : s.Sound requests coupons)
    (hr : r ∈ s.queue.requests p) :
    r ∈ s'.queue.requests p ∨
      ∃ resolution, s'.status r.id = .ok (r.record.resolved resolution s.now) := by
  obtain ⟨arrivals, hline, -⟩ := hmove.requests_append h p
  have hmem := hline ▸ List.mem_append_left arrivals hr
  rcases List.mem_append.1 hmem with htaken | hrest
  · have htakes : s.takes e = some r := Option.mem_toList.1 (List.mem_filter.1 htaken).1
    obtain ⟨p', _, stores, resolution, -, -, -, rfl⟩ := hmove.served_of_takes htakes
    exact .inr ⟨resolution, status_conclude p' r stores resolution⟩
  · exact .inl hrest

private theorem filter_campaign (q : Queue) (c : CampaignId) (rs : List IssuanceRequest) :
    (rs.filter fun r => q.partitionOf r.campaign = q.partitionOf c).filter (·.campaign = c) =
      rs.filter (·.campaign = c) := by
  rw [List.filter_filter]
  apply List.filter_congr
  intro r _
  by_cases hc : r.campaign = c <;> simp [hc]

private theorem Move.line_append (hmove : Move s e s') (h : s.Sound requests coupons) (c : CampaignId) :
    ∃ arrivals : List IssuanceRequest,
      s.queue.line c ++ arrivals =
        (s.takes e).toList.filter (·.campaign = c) ++ s'.queue.line c ∧
      (arrivals.map IssuanceRequest.id).Sublist e.request?.toList := by
  obtain ⟨arrivals, hline, hnames⟩ := hmove.requests_append h (s.queue.partitionOf c)
  refine ⟨arrivals.filter (·.campaign = c), ?_, ?_⟩
  · have := congrArg (List.filter (·.campaign = c)) hline
    rw [List.filter_append, List.filter_append, filter_campaign] at this
    rw [Queue.line, Queue.line, Queue.partitionOf_congr hmove.partitions]
    exact this
  · exact (List.filter_sublist.map _).trans hnames

private theorem Move.record_kept (hmove : Move s e s') (h : s.Sound requests coupons)
    (hfresh : ∀ id, e.request? = some id → id ∉ requests) {id : RequestId} (hid : id ∈ requests)
    {record : StatusRecord} (hend : record.state.isTerminal = true)
    (hkept : ∀ held, s.stores.status.held? id = some held → held.record = record) :
    ∀ held, s'.stores.status.held? id = some held → held.record = record := by
  intro held hheld
  rcases h.origin hmove hfresh hid hheld with hbefore | ⟨r, resolution, hwaited, -⟩
  · exact hkept held hbefore
  · -- the request that is taken was pending, so it is another one
    have hpending := hkept _ hwaited
    rw [← hpending] at hend
    cases hend

end Service

namespace Run

variable {run : Run} {i k m n : Nat} {c : CampaignId} {x : IssuanceRequest}

theorem taken_of_some {e : Event} (he : run.events[n]? = some e) :
    run.taken n = (run.after n).takes e := by
  simp [taken, he]

private theorem taken_of_none (he : run.events[n]? = none) : run.taken n = none := by
  simp [taken, he]

variable (run) in
/-- The requests of a campaign that workers take from one moment to a later one, in their order. -/
def served (c : CampaignId) (m n : Nat) : List IssuanceRequest :=
  ((List.range' m (n - m)).filterMap run.taken).filter (·.campaign = c)

theorem served_self : run.served c m m = [] := by simp [served]

theorem served_succ (hmn : m ≤ n) : run.served c m (n + 1) =
    run.served c m n ++ (run.taken n).toList.filter (·.campaign = c) := by
  have hrange : List.range' m (n + 1 - m) = List.range' m (n - m) ++ [n] := by
    have hlast : m + (n - m) = n := by omega
    rw [Nat.succ_sub hmn, List.range'_1_concat, hlast]
  rw [served, hrange, List.filterMap_append, List.filter_append, served]
  cases hx : run.taken n <;> simp [hx]

variable (run c) in
/-- First in, first out: what stands in line and what comes to it is what is taken off it and what
stands in it then, in that order. -/
theorem line_append_arrivals (hmn : m ≤ n) :
    ∃ arrivals : List IssuanceRequest,
      (run.after m).queue.line c ++ arrivals = run.served c m n ++ (run.after n).queue.line c ∧
      (run.requestNames m ++ arrivals.map IssuanceRequest.id).Sublist (run.requestNames n) := by
  induction hmn with
  | refl => exact ⟨[], by simp [served_self], by simp⟩
  | @step n hmn ih =>
    obtain ⟨arrivals, hline, hnames⟩ := ih
    cases he : run.events[n]? with
    | none =>
      refine ⟨arrivals, ?_, ?_⟩
      · rw [served_succ hmn, taken_of_none he, after_succ_of_none he]
        simpa using hline
      · rw [requestNames_succ_of_none he]
        exact hnames
    | some e =>
      obtain ⟨more, hmore, hnew⟩ := (run.move he).line_append (run.sound n) c
      refine ⟨arrivals ++ more, ?_, ?_⟩
      · rw [served_succ hmn, taken_of_some he, ← List.append_assoc, hline, List.append_assoc, hmore,
          List.append_assoc]
      · rw [requestNames_succ he, List.map_append, ← List.append_assoc]
        exact hnames.append hnew

variable (run) in
theorem line_in_order (n : Nat) (c : CampaignId) :
    (((run.after n).queue.line c).map IssuanceRequest.id).Sublist (run.requestNames n) := by
  obtain ⟨arrivals, hline, hnames⟩ := line_append_arrivals run c (Nat.zero_le n)
  have hstart : (run.after 0).queue.line c = [] := by
    rw [Queue.line, after_zero, run.new.idle, List.filter_nil]
  rw [hstart, List.nil_append] at hline
  rw [requestNames_zero, List.nil_append, hline, List.map_append] at hnames
  exact (List.sublist_append_right _ _).trans hnames

private theorem record_final (hik : i ≤ k) {id : RequestId} {held : StatusEntry}
    (hheld : (run.after i).stores.status.held? id = some held)
    (hend : held.record.state.isTerminal = true) :
    ∀ later, (run.after k).stores.status.held? id = some later → later.record = held.record := by
  have hnamed : id ∈ run.requestNames i := (run.sound i).named.record hheld
  apply along (P := fun s => ∀ later, s.stores.status.held? id = some later →
    later.record = held.record) hik
  · intro later hlater
    rw [hheld] at hlater
    cases hlater
    rfl
  · intro n e hin _ he hkept
    have hid := named_of_le hin hnamed
    exact (run.move he).record_kept (run.sound n) (fun _ => request_fresh he) hid hend hkept

private theorem unwon_for_good (hik : i ≤ k) {id : RequestId} {held : StatusEntry}
    (hheld : (run.after i).stores.status.held? id = some held)
    (hend : held.record.state.isTerminal = true) (hlost : held.record.state ≠ .issued) :
    ∀ j l, (run.after k).stores.coupons.coupons.get? j = some l → l.request ≠ id := by
  apply along (P := fun s => ∀ j l, s.stores.coupons.coupons.get? j = some l → l.request ≠ id) hik
  · rintro j l hl rfl
    exact hlost ((run.sound i).tracked.settled hl hheld).1
  · intro n e hin _ he hunwon j l hl
    rcases (effect he).held_of (run.sound n).book hl with ⟨l', hl', halike⟩ | ⟨r, htakes, hr⟩
    · rw [halike.request]
      exact hunwon j l' hl'
    · -- the coupon is of a request that waited, so its record had not ended
      rintro rfl
      obtain ⟨p, hwaits⟩ := (run.move he).waits_of_takes htakes
      have hpending := ((run.sound n).tracked.waiting hwaits).held
      have hsame := record_final hin hheld hend _ (hr ▸ hpending)
      rw [← hsame] at hend
      cases hend

variable (run) in
/-- A worker takes `x` off its line in one of the events from `m` to `n`, and it ends so. Its
record can be seen then, and no other is shown of it later. -/
def Ends (m n : Nat) (x : IssuanceRequest) (resolution : Resolution) : Prop :=
  ∃ i, m ≤ i ∧ i < n ∧ run.taken i = some x ∧
    (run.after (i + 1)).status x.id = .ok (x.record.resolved resolution (run.after i).now) ∧
    ∀ k record, i < k → (run.after k).status x.id = .ok record →
      record = x.record.resolved resolution (run.after i).now

theorem Ends.mono {n' : Nat} {resolution : Resolution} (h : run.Ends m n x resolution)
    (hn : n ≤ n') : run.Ends m n' x resolution := by
  obtain ⟨i, hmi, hin, hrest⟩ := h
  exact ⟨i, hmi, Nat.lt_of_lt_of_le hin hn, hrest⟩

private theorem Ends.state_eq_of_le {i j : Nat} {resolution resolution' : Resolution} (hij : i ≤ j)
    (hfinal : ∀ k record, i < k → (run.after k).status x.id = .ok record →
      record = x.record.resolved resolution (run.after i).now)
    (hseen : (run.after (j + 1)).status x.id =
      .ok (x.record.resolved resolution' (run.after j).now)) :
    resolution'.state = resolution.state := by
  have hsame := hfinal (j + 1) _ (Nat.lt_succ_of_le hij) hseen
  have hstate := congrArg StatusRecord.state hsame
  rw [StatusRecord.resolved_state, StatusRecord.resolved_state] at hstate
  exact hstate

theorem Ends.state_eq {resolution resolution' : Resolution} (h : run.Ends m n x resolution)
    (h' : run.Ends m n x resolution') : resolution.state = resolution'.state := by
  obtain ⟨i, -, -, -, hseen, hfinal⟩ := h
  obtain ⟨j, -, -, -, hseen', hfinal'⟩ := h'
  rcases Nat.le_total i j with hij | hji
  · exact (Ends.state_eq_of_le hij hfinal hseen').symm
  · exact Ends.state_eq_of_le hji hfinal' hseen

variable (run) in
/-- In event `n` a worker takes `x` off its line, and it ends so. -/
structure Turn (n : Nat) (x : IssuanceRequest) (minted : Except Refusal CouponId) (stores : Stores)
    (resolution : Resolution) : Prop where
  taken : run.taken n = some x
  event : ∃ p, run.events[n]? = some (.turn p minted)
  waits : ∃ p, x ∈ (run.after n).queue.requests p
  outcome : (run.after n).Outcome x minted stores resolution
  next : ∃ p, run.after (n + 1) = (run.after n).conclude p x stores resolution

theorem turn_of_taken (htaken : run.taken n = some x) :
    ∃ minted stores resolution, run.Turn n x minted stores resolution := by
  obtain ⟨e, he, htakes⟩ := Option.bind_eq_some_iff.1 htaken
  obtain ⟨p, minted, stores, resolution, rfl, hwaits, houtcome, hnext⟩ :=
    (run.move he).served_of_takes htakes
  exact ⟨minted, stores, resolution, htaken, ⟨p, he⟩, ⟨p, hwaits⟩, houtcome, ⟨p, hnext⟩⟩

section Turn

variable {minted : Except Refusal CouponId} {stores : Stores} {resolution : Resolution}

theorem Turn.held (h : run.Turn n x minted stores resolution) :
    (run.after (n + 1)).stores.status.held? x.id =
      some ⟨x.record.resolved resolution (run.after n).now, some (run.after n).now⟩ := by
  obtain ⟨p, hnext⟩ := h.next
  rw [hnext]
  exact Service.held?_conclude ..

theorem Turn.snapshot (h : run.Turn n x minted stores resolution) (c : CampaignId) :
    (run.after (n + 1)).stores.ledger.snapshot c = stores.ledger.snapshot c := by
  obtain ⟨p, hnext⟩ := h.next
  rw [hnext]
  rfl

theorem Turn.ends (h : run.Turn n x minted stores resolution) (hmn : m ≤ n) :
    run.Ends m (n + 1) x resolution := by
  refine ⟨n, hmn, Nat.lt_succ_self n, h.taken, ?_, ?_⟩
  · obtain ⟨p, hnext⟩ := h.next
    rw [hnext]
    exact Service.status_conclude ..
  · intro k record hk hseen
    obtain ⟨later, hlater, -, rfl⟩ := StatusStore.get_eq_some_iff.1 (Service.status_eq_ok_iff.1 hseen)
    exact record_final hk h.held (by simp) later hlater

end Turn

theorem Ends.held {resolution : Resolution} (h : run.Ends m n x resolution) :
    ∃ i, i < n ∧ ∃ held, (run.after (i + 1)).stores.status.held? x.id = some held ∧
      held.record = x.record.resolved resolution (run.after i).now := by
  obtain ⟨i, -, hin, -, hseen, -⟩ := h
  obtain ⟨held, hheld, -, hrecord⟩ :=
    StatusStore.get_eq_some_iff.1 (Service.status_eq_ok_iff.1 hseen)
  exact ⟨i, hin, held, hheld, hrecord⟩

theorem Ends.won {id : CouponId} (h : run.Ends m n x (.issued id)) :
    ∃ k, (run.after n).stores.coupons.coupons.get? id = some k ∧
      k.owner = x.requester ∧ k.campaign = x.campaign ∧ k.request = x.id := by
  obtain ⟨i, hin, held, hheld, hrecord⟩ := h.held
  have hissued : held.record.state = .issued := by rw [hrecord]; rfl
  obtain ⟨hid, k, hk⟩ := (run.sound (i + 1)).won_of_issued hheld hissued
  have hname : k.id = id := by
    have htold := hk.told
    rw [hrecord] at htold
    exact (Option.some.inj htold).symm
  obtain ⟨l, hl, halike⟩ := held_of_le hin hk.held
  refine ⟨l, hname ▸ hl, halike.owner.trans (hk.owner.trans ?_),
    halike.campaign.trans (hk.campaign.trans ?_), halike.request.trans (hk.request.trans hid)⟩
  · rw [hrecord, StatusRecord.resolved_requester]
    rfl
  · rw [hrecord, StatusRecord.resolved_campaign]
    rfl

theorem Ends.unwon {resolution : Resolution} (h : run.Ends m n x resolution)
    (hlost : resolution.state ≠ .issued) :
    ∀ id k, (run.after n).stores.coupons.coupons.get? id = some k → k.request ≠ x.id := by
  obtain ⟨i, hin, held, hheld, hrecord⟩ := h.held
  have hstate : held.record.state = resolution.state := by
    rw [hrecord, StatusRecord.resolved_state]
  exact unwon_for_good hin hheld (by rw [hstate, Resolution.isTerminal_state])
    (by rw [hstate]; exact hlost)

end Run
end CouponIssuance
