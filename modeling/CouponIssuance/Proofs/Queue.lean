import CouponIssuance.Queue
/-!
# The lines of the queue

What the operations of the queue do to the requests that wait. An accepted request goes to the end
of the line of its campaign's partition, a worker takes the first, and a stop marker changes no
request's place. Lines are in order: requests first, then stop markers, which come only after
admission has ended.
-/
namespace CouponIssuance

/-- The requests in a line, first to last. -/
def Channel.requests (c : Channel) : List IssuanceRequest :=
  c.messages.filterMap fun
    | .issue r => some r
    | .stop _ => none

private theorem Channel.requests_push_issue (c : Channel) (r : IssuanceRequest) :
    (c.push (.issue r)).requests = c.requests ++ [r] := by
  simp [requests, push]

private theorem Channel.requests_push_stop (c : Channel) (marker : Nat) :
    (c.push (.stop marker)).requests = c.requests := by
  simp [requests, push]

theorem Channel.requests_of_line {c : Channel} {rs : List IssuanceRequest} {markers : List Nat}
    (h : c.messages = rs.map Message.issue ++ markers.map Message.stop) : c.requests = rs := by
  rw [requests, h, List.filterMap_append, List.filterMap_map, List.filterMap_map]
  have hmarkers : markers.filterMap
      ((fun m => match m with | .issue r => some r | .stop _ => none) ∘ Message.stop) = [] :=
    List.filterMap_eq_nil_iff.2 fun _ _ => rfl
  rw [hmarkers, List.append_nil]
  exact List.filterMap_some

namespace Queue

/-- The requests that wait in a partition, first to last. -/
def requests (q : Queue) (p : Nat) : List IssuanceRequest := (q.channel p).requests

/-- The requests of a campaign that wait, first to last. -/
def line (q : Queue) (c : CampaignId) : List IssuanceRequest :=
  (q.requests (q.partitionOf c)).filter (·.campaign = c)

/-- The requests that wait in all lines together. -/
def waiting (q : Queue) : List IssuanceRequest := (List.range q.partitions).flatMap q.requests

/-- Requests stand before stop markers, and there are markers only after admission has ended. -/
def Orderly (q : Queue) : Prop :=
  ∀ p, ∃ (rs : List IssuanceRequest) (markers : List Nat),
    (q.channel p).messages = rs.map Message.issue ++ markers.map Message.stop ∧
    (q.closed = false → markers = [])

private theorem partitions_setChannel (q : Queue) (p : Nat) (c : Channel) :
    (q.setChannel p c).partitions = q.partitions := by
  simp [partitions, setChannel]

theorem channel_setChannel {q : Queue} {p : Nat} (hp : p < q.partitions) (c : Channel) (p' : Nat) :
    (q.setChannel p c).channel p' = if p = p' then c else q.channel p' := by
  have hlen : p < q.channels.length := hp
  simp only [channel, setChannel]
  by_cases h : p = p'
  · subst h
    simp [List.getElem?_set_self hlen]
  · simp [List.getElem?_set_ne h, h]

theorem lt_partitions_of_attended {q : Queue} {p : Nat} (h : (q.channel p).attended = true) :
    p < q.partitions := by
  apply Classical.byContradiction
  intro hn
  have hnone : q.channels[p]? = none := List.getElem?_eq_none (Nat.le_of_not_lt hn)
  simp [channel, hnone] at h

private theorem lt_partitions_of_mem {q : Queue} {p : Nat} {r : IssuanceRequest} (h : r ∈ q.requests p) :
    p < q.partitions := by
  apply Classical.byContradiction
  intro hn
  have hnone : q.channels[p]? = none := List.getElem?_eq_none (Nat.le_of_not_lt hn)
  simp [requests, channel, hnone, Channel.requests] at h

theorem mem_waiting_iff {q : Queue} {r : IssuanceRequest} :
    r ∈ q.waiting ↔ ∃ p, r ∈ q.requests p := by
  rw [waiting, List.mem_flatMap]
  constructor
  · rintro ⟨p, -, hr⟩
    exact ⟨p, hr⟩
  · rintro ⟨p, hr⟩
    exact ⟨p, List.mem_range.2 (lt_partitions_of_mem hr), hr⟩

theorem partitionOf_congr {q q' : Queue} (h : q'.partitions = q.partitions) (c : CampaignId) :
    q'.partitionOf c = q.partitionOf c := by
  simp only [partitionOf, h]

theorem isFull_eq_false_iff {q : Queue} {p : Nat} :
    q.isFull p = false ↔ (q.channel p).messages.length < q.limits.buffer := by
  rw [isFull, decide_eq_false_iff_not, Nat.not_le]

theorem enqueue_eq_ok {q q' : Queue} {r : IssuanceRequest} (h : q.enqueue r = .ok q') :
    q.closed = false ∧ (q.channel (q.partitionOf r.campaign)).attended = true ∧
    q' = (q.setChannel (q.partitionOf r.campaign)
      ((q.channel (q.partitionOf r.campaign)).push (.issue r))).setLane r.campaign
        { q.lane r.campaign with queued := (q.lane r.campaign).queued + 1 } := by
  dsimp only [enqueue] at h
  split at h
  · cases h
  · next hc =>
    split at h
    · cases h
    · split at h
      · cases h
      · next ha =>
        split at h
        · cases h
        · cases h
          exact ⟨by simpa using hc, by simpa using ha, rfl⟩

theorem enqueue_eq_error {q : Queue} {r : IssuanceRequest} {why : Refusal}
    (h : q.enqueue r = .error why) :
    why = .shuttingDown ∧
      (q.closed = true ∨ (q.channel (q.partitionOf r.campaign)).attended = false) ∨
    why = q.overloaded s!"campaign {r.campaign} has {q.limits.maxDepth} queued requests" ∧
      q.limits.maxDepth ≤ q.depth r.campaign ∨
    why = q.overloaded s!"partition {q.partitionOf r.campaign} is full" ∧
      q.isFull (q.partitionOf r.campaign) = true := by
  dsimp only [enqueue] at h
  split at h
  · next hclosed =>
    cases h
    exact .inl ⟨rfl, .inl hclosed⟩
  · split at h
    · next hdeep =>
      cases h
      exact .inr (.inl ⟨rfl, hdeep⟩)
    · split at h
      · next hgone =>
        cases h
        exact .inl ⟨rfl, .inr (by simpa using hgone)⟩
      · split at h
        · next hfull =>
          cases h
          exact .inr (.inr ⟨rfl, hfull⟩)
        · cases h

theorem enqueue_isOk_iff {q : Queue} {r : IssuanceRequest} : (∃ q', q.enqueue r = .ok q') ↔
    q.closed = false ∧ q.depth r.campaign < q.limits.maxDepth ∧
    (q.channel (q.partitionOf r.campaign)).attended = true ∧
    q.isFull (q.partitionOf r.campaign) = false := by
  rw [depth, ← Nat.not_le]
  cases hclosed : q.closed <;> cases ha : (q.channel (q.partitionOf r.campaign)).attended <;>
    cases hfull : q.isFull (q.partitionOf r.campaign) <;>
      by_cases hdeep : q.limits.maxDepth ≤ (q.lane r.campaign).queued <;>
        simp [enqueue, hclosed, ha, hfull, hdeep]

section Enqueue

variable {q q' : Queue} {r : IssuanceRequest}

theorem channel_enqueue (h : q.enqueue r = .ok q') (p : Nat) :
    q'.channel p = if q.partitionOf r.campaign = p then (q.channel p).push (.issue r)
      else q.channel p := by
  obtain ⟨-, ha, rfl⟩ := enqueue_eq_ok h
  show (q.setChannel _ _).channel p = _
  rw [channel_setChannel (lt_partitions_of_attended ha)]
  split
  · next hp => rw [hp]
  · rfl

theorem partitions_enqueue (h : q.enqueue r = .ok q') : q'.partitions = q.partitions := by
  obtain ⟨-, -, rfl⟩ := enqueue_eq_ok h
  exact partitions_setChannel ..

theorem closed_enqueue (h : q.enqueue r = .ok q') : q'.closed = q.closed := by
  obtain ⟨-, -, rfl⟩ := enqueue_eq_ok h
  rfl

theorem requests_enqueue (h : q.enqueue r = .ok q') (p : Nat) :
    q'.requests p = q.requests p ++ if q.partitionOf r.campaign = p then [r] else [] := by
  simp only [requests, channel_enqueue h]
  split
  · exact Channel.requests_push_issue ..
  · simp

theorem Orderly.enqueue (ho : q.Orderly) (h : q.enqueue r = .ok q') : q'.Orderly := by
  intro p
  obtain ⟨rs, markers, hm, hclosed⟩ := ho p
  rw [channel_enqueue h, closed_enqueue h]
  split
  · have hnone := hclosed (enqueue_eq_ok h).1
    refine ⟨rs ++ [r], [], ?_, fun _ => rfl⟩
    simp [Channel.push, hm, hnone]
  · exact ⟨rs, markers, hm, hclosed⟩

end Enqueue

/-! ## Taking a message off a line -/

/-- The queue after a worker has taken a request and is done with it. -/
def serve (q : Queue) (p : Nat) (r : IssuanceRequest) : Queue := (q.dequeue p).1.release r.campaign

section Serve

variable {q : Queue} {p : Nat} {r : IssuanceRequest} {rest : List Message}

theorem dequeue_request (ha : (q.channel p).attended = true)
    (hm : (q.channel p).messages = .issue r :: rest) :
    q.dequeue p = ((q.setChannel p { q.channel p with messages := rest }).setLane r.campaign
      ⟨(q.lane r.campaign).queued - 1, (q.lane r.campaign).processing + 1⟩, .request r) := by
  simp [dequeue, ha, hm]

theorem channel_dequeue (ha : (q.channel p).attended = true)
    (hm : (q.channel p).messages = .issue r :: rest) (p' : Nat) :
    (q.dequeue p).1.channel p' = if p = p' then { q.channel p with messages := rest }
      else q.channel p' := by
  rw [dequeue_request ha hm]
  exact channel_setChannel (lt_partitions_of_attended ha) ..

theorem partitions_dequeue (ha : (q.channel p).attended = true)
    (hm : (q.channel p).messages = .issue r :: rest) :
    (q.dequeue p).1.partitions = q.partitions := by
  rw [dequeue_request ha hm]
  exact partitions_setChannel ..

theorem requests_dequeue (ha : (q.channel p).attended = true)
    (hm : (q.channel p).messages = .issue r :: rest) (p' : Nat) :
    q.requests p' = (if p = p' then [r] else []) ++ (q.dequeue p).1.requests p' := by
  simp only [requests, channel_dequeue ha hm]
  by_cases hp : p = p'
  · subst hp
    simp [Channel.requests, hm]
  · simp [hp]

theorem channel_serve (ha : (q.channel p).attended = true)
    (hm : (q.channel p).messages = .issue r :: rest) (p' : Nat) :
    (q.serve p r).channel p' = if p = p' then { q.channel p with messages := rest }
      else q.channel p' :=
  channel_dequeue ha hm p'

theorem partitions_serve (ha : (q.channel p).attended = true)
    (hm : (q.channel p).messages = .issue r :: rest) :
    (q.serve p r).partitions = q.partitions :=
  partitions_dequeue ha hm

theorem closed_serve (ha : (q.channel p).attended = true)
    (hm : (q.channel p).messages = .issue r :: rest) : (q.serve p r).closed = q.closed := by
  rw [serve, dequeue_request ha hm]
  rfl

theorem requests_serve (ha : (q.channel p).attended = true)
    (hm : (q.channel p).messages = .issue r :: rest) (p' : Nat) :
    q.requests p' = (if p = p' then [r] else []) ++ (q.serve p r).requests p' :=
  requests_dequeue ha hm p'

theorem mem_requests_serve (ha : (q.channel p).attended = true)
    (hm : (q.channel p).messages = .issue r :: rest) {r' : IssuanceRequest} {p' : Nat}
    (hr : r' ∈ q.requests p') (hid : r'.id ≠ r.id) : r' ∈ (q.serve p r).requests p' := by
  rw [requests_serve ha hm, List.mem_append] at hr
  rcases hr with hhead | hrest
  · split at hhead
    · rw [List.mem_singleton] at hhead
      exact absurd (congrArg _ hhead) hid
    · cases hhead
  · exact hrest

theorem Orderly.serve (ho : q.Orderly) (ha : (q.channel p).attended = true)
    (hm : (q.channel p).messages = .issue r :: rest) : (q.serve p r).Orderly := by
  intro p'
  obtain ⟨rs, markers, hs, hclosed⟩ := ho p'
  rw [channel_serve ha hm, closed_serve ha hm]
  split
  · next hp =>
    subst hp
    cases rs with
    | nil =>
      rw [hm] at hs
      cases markers with
      | nil => simp at hs
      | cons m markers => simp at hs
    | cons r' rs =>
      rw [hm] at hs
      simp only [List.map_cons, List.cons_append, List.cons.injEq] at hs
      exact ⟨rs, markers, hs.2, hclosed⟩
  · exact ⟨rs, markers, hs, hclosed⟩

end Serve

/-! ## Stop markers -/

/-- The queue after the worker of a partition has taken a stop marker: it acknowledges and leaves.
-/
def dismiss (q : Queue) (p marker : Nat) : Queue :=
  ((q.dequeue p).1.acknowledge marker).1.abandon p

theorem channel_acknowledge (q : Queue) (marker p : Nat) :
    (q.acknowledge marker).1.channel p = q.channel p := by
  unfold acknowledge
  split <;> rfl

private theorem partitions_acknowledge (q : Queue) (marker : Nat) :
    (q.acknowledge marker).1.partitions = q.partitions := by
  unfold acknowledge
  split <;> rfl

private theorem closed_acknowledge (q : Queue) (marker : Nat) :
    (q.acknowledge marker).1.closed = q.closed := by
  unfold acknowledge
  split <;> rfl

section Dismiss

variable {q : Queue} {p marker : Nat} {rest : List Message}

theorem dequeue_stop (ha : (q.channel p).attended = true)
    (hm : (q.channel p).messages = .stop marker :: rest) :
    q.dequeue p = (q.setChannel p { q.channel p with messages := rest }, .stop marker) := by
  simp [dequeue, ha, hm]

theorem dequeue_eq_request {r : IssuanceRequest} (h : (q.dequeue p).2 = .request r) :
    (q.channel p).attended = true ∧ ∃ rest, (q.channel p).messages = .issue r :: rest := by
  cases ha : (q.channel p).attended with
  | false => simp [dequeue, ha] at h
  | true =>
    cases hm : (q.channel p).messages with
    | nil => cases hr : q.released <;> simp [dequeue, ha, hm, hr] at h
    | cons first rest =>
      cases first with
      | stop marker =>
        rw [dequeue_stop ha hm] at h
        cases h
      | issue r' =>
        rw [dequeue_request ha hm] at h
        cases h
        exact ⟨rfl, rest, rfl⟩

theorem channel_dequeue_stop (ha : (q.channel p).attended = true)
    (hm : (q.channel p).messages = .stop marker :: rest) (p' : Nat) :
    (q.dequeue p).1.channel p' = if p = p' then { q.channel p with messages := rest }
      else q.channel p' := by
  rw [dequeue_stop ha hm]
  exact channel_setChannel (lt_partitions_of_attended ha) ..

theorem partitions_dequeue_stop (ha : (q.channel p).attended = true)
    (hm : (q.channel p).messages = .stop marker :: rest) :
    (q.dequeue p).1.partitions = q.partitions := by
  rw [dequeue_stop ha hm]
  exact partitions_setChannel ..

theorem requests_dequeue_stop (ha : (q.channel p).attended = true)
    (hm : (q.channel p).messages = .stop marker :: rest) (p' : Nat) :
    (q.dequeue p).1.requests p' = q.requests p' := by
  rw [dequeue_stop ha hm, requests, channel_setChannel (lt_partitions_of_attended ha), requests]
  split
  · next hp => simp [← hp, Channel.requests, hm]
  · rfl

theorem partitions_dismiss (ha : (q.channel p).attended = true)
    (hm : (q.channel p).messages = .stop marker :: rest) :
    (q.dismiss p marker).partitions = q.partitions := by
  rw [dismiss, dequeue_stop ha hm]
  show (setChannel _ _ _).partitions = _
  rw [partitions_setChannel, partitions_acknowledge, partitions_setChannel]

theorem channel_dismiss (ha : (q.channel p).attended = true)
    (hm : (q.channel p).messages = .stop marker :: rest) (p' : Nat) :
    (q.dismiss p marker).channel p' = if p = p' then ⟨[], false⟩ else q.channel p' := by
  have hp := lt_partitions_of_attended ha
  rw [dismiss, dequeue_stop ha hm]
  show (setChannel _ _ _).channel p' = _
  rw [channel_setChannel (by rw [partitions_acknowledge, partitions_setChannel]; exact hp),
    channel_acknowledge, channel_setChannel hp]
  split <;> rfl

theorem closed_dismiss (ha : (q.channel p).attended = true)
    (hm : (q.channel p).messages = .stop marker :: rest) :
    (q.dismiss p marker).closed = q.closed := by
  rw [dismiss, dequeue_stop ha hm]
  exact closed_acknowledge ..

/-- No request is lost when a worker leaves, since none stands behind a stop marker. -/
theorem requests_dismiss (ho : q.Orderly) (ha : (q.channel p).attended = true)
    (hm : (q.channel p).messages = .stop marker :: rest) (p' : Nat) :
    (q.dismiss p marker).requests p' = q.requests p' := by
  simp only [requests, channel_dismiss ha hm]
  split
  · next hp =>
    subst hp
    obtain ⟨rs, markers, hs, -⟩ := ho p
    cases rs with
    | nil => exact (Channel.requests_of_line hs).symm
    | cons r rs =>
      rw [hm] at hs
      simp at hs
  · rfl

theorem Orderly.dismiss (ho : q.Orderly) (ha : (q.channel p).attended = true)
    (hm : (q.channel p).messages = .stop marker :: rest) : (q.dismiss p marker).Orderly := by
  intro p'
  rw [channel_dismiss ha hm, closed_dismiss ha hm]
  split
  · exact ⟨[], [], rfl, fun _ => rfl⟩
  · exact ho p'

end Dismiss

section SendStop

variable (q : Queue) (p : Nat)

variable {q p} in
theorem sendStop_of_room (ha : (q.channel p).attended = true) (hroom : q.isFull p = false) :
    q.sendStop p = ({ q.setChannel p ((q.channel p).push (.stop q.marks.length)) with
      marks := q.marks ++ [.waiting] }, .placed q.marks.length) := by
  simp [sendStop, ha, hroom]

variable {q p} in
theorem sendStop_of_full (ha : (q.channel p).attended = true) (hfull : q.isFull p = true) :
    q.sendStop p = (q, .blocked) := by
  simp [sendStop, ha, hfull]

theorem sendStop_cases : (q.sendStop p).1 = q ∨ (q.channel p).attended = true ∧
    (q.sendStop p).1 = { q.setChannel p ((q.channel p).push (.stop q.marks.length)) with
      marks := q.marks ++ [.waiting] } := by
  dsimp only [sendStop]
  split
  · exact .inl rfl
  · next ha =>
    split
    · exact .inl rfl
    · exact .inr ⟨by simpa using ha, rfl⟩

theorem partitions_sendStop : (q.sendStop p).1.partitions = q.partitions := by
  rcases sendStop_cases q p with h | ⟨-, h⟩ <;> rw [h]
  exact partitions_setChannel ..

theorem closed_sendStop : (q.sendStop p).1.closed = q.closed := by
  rcases sendStop_cases q p with h | ⟨-, h⟩ <;> rw [h]
  rfl

variable {q p} in
theorem channel_placed {m : Nat} (ha : (q.channel p).attended = true)
    (h : (q.sendStop p).1 = { q.setChannel p ((q.channel p).push (.stop m)) with
      marks := q.marks ++ [.waiting] }) (p' : Nat) :
    (q.sendStop p).1.channel p' =
      if p = p' then (q.channel p).push (.stop m) else q.channel p' := by
  rw [h]
  exact channel_setChannel (lt_partitions_of_attended ha) ..

theorem channel_sendStop (p' : Nat) : (q.sendStop p).1.channel p' = q.channel p' ∨
    (q.sendStop p).1.channel p' = (q.channel p').push (.stop q.marks.length) := by
  rcases sendStop_cases q p with h | ⟨ha, h⟩
  · exact .inl (by rw [h])
  · rw [channel_placed ha h]
    split
    · next hp => exact .inr (by rw [hp])
    · exact .inl rfl

theorem requests_sendStop (p' : Nat) : (q.sendStop p).1.requests p' = q.requests p' := by
  simp only [requests]
  rcases channel_sendStop q p p' with h | h <;> rw [h]
  exact Channel.requests_push_stop ..

variable {q}

theorem Orderly.sendStop (ho : q.Orderly) (hc : q.closed = true) : (q.sendStop p).1.Orderly := by
  intro p'
  obtain ⟨rs, markers, hs, hclosed⟩ := ho p'
  rw [closed_sendStop]
  rcases channel_sendStop q p p' with h | h <;> rw [h]
  · exact ⟨rs, markers, hs, hclosed⟩
  · refine ⟨rs, markers ++ [q.marks.length], ?_, fun h => ?_⟩
    · simp [Channel.push, hs]
    · rw [hc] at h; cases h

end SendStop

theorem create_cases {partitions : Nat} {limits : QueueLimits} (hp : 0 < partitions)
    (hb : 0 < limits.buffer) :
    (QueueLimits.largestBuffer < limits.buffer ∧ create partitions limits = .error .bufferTooLarge) ∨
    ∃ q, create partitions limits = .ok q := by
  have hsome : limits.buffer ≠ 0 := Nat.pos_iff_ne_zero.1 hb
  by_cases hlarge : QueueLimits.largestBuffer < limits.buffer
  · left
    exact ⟨hlarge, by simp [create, hp, hsome, hlarge]⟩
  · right
    simp [create, hp, hsome, hlarge]

theorem create_eq_ok {partitions : Nat} {limits : QueueLimits} {q : Queue}
    (h : create partitions limits = .ok q) :
    q.limits = limits ∧ q.channels = List.replicate partitions .empty ∧ q.lanes = Table.empty ∧
      q.closed = false ∧ q.released = false := by
  unfold create at h
  split at h
  · split at h
    · cases h
    · split at h
      · cases h
      · cases h
        exact ⟨rfl, rfl, rfl, rfl, rfl⟩
  · cases h

theorem channel_create {partitions : Nat} {limits : QueueLimits} {q : Queue}
    (h : create partitions limits = .ok q) (p : Nat) : (q.channel p).messages = [] := by
  obtain ⟨-, hchannels, -⟩ := create_eq_ok h
  rw [channel, hchannels, List.getElem?_replicate]
  split <;> rfl

theorem orderly_create {partitions : Nat} {limits : QueueLimits} {q : Queue}
    (h : create partitions limits = .ok q) : q.Orderly := fun p =>
  ⟨[], [], channel_create h p, fun _ => rfl⟩

theorem requests_create {partitions : Nat} {limits : QueueLimits} {q : Queue}
    (h : create partitions limits = .ok q) (p : Nat) : q.requests p = [] := by
  simp [requests, Channel.requests, channel_create h]

end Queue
end CouponIssuance
