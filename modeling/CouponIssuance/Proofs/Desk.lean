import CouponIssuance.Proofs.Tally
/-!
# The queue as plain lists

Seen from outside, the queue is one bounded list of messages for each partition: what is accepted goes
to the end of one of them, what is taken is the first of one, and nothing else happens to them. Who
takes a request holds it as long as he likes. All that the queue counts can be read off the lists and
the requests that are held.
-/
namespace CouponIssuance

/-- A queue, and the requests that were taken and not let go of. -/
structure Desk where
  queue : Queue
  claims : List IssuanceRequest

namespace Desk

/-- A call on the queue, or that a request in hand is let go of. It is named by its place. -/
inductive Act where
  | enqueue (r : IssuanceRequest)
  | dequeue (p : Nat)
  | close
  | sendStop (p : Nat)
  | whenIdle (c : CampaignId)
  | release (i : Nat)

/-- What a call does. A stop marker for which there is no room is given up. Work that is done while a
campaign is idle is not done to the queue. -/
def step (s : Desk) : Act → Desk
  | .enqueue r =>
    match s.queue.enqueue r with
    | .ok queue => { s with queue := queue }
    | .error _ => s
  | .dequeue p =>
    match s.queue.dequeue p with
    | (queue, .request r) => ⟨queue, s.claims ++ [r]⟩
    | (queue, _) => { s with queue := queue }
  | .close => { s with queue := s.queue.close }
  | .sendStop p => { s with queue := (s.queue.sendStop p).1 }
  | .whenIdle _ => s
  | .release i =>
    match s.claims[i]? with
    | some r => ⟨s.queue.release r.campaign, s.claims.eraseIdx i⟩
    | none => s

/-- The message that a call puts in a line, by what the caller is told. -/
def sends? (s : Desk) (p : Nat) : Act → Option Message
  | .enqueue r =>
    if (s.queue.enqueue r).isOk ∧ s.queue.partitionOf r.campaign = p then some (.issue r) else none
  | .sendStop p' =>
    match (s.queue.sendStop p').2 with
    | .placed marker => if p' = p then some (.stop marker) else none
    | _ => none
  | _ => none

/-- The message that a call takes from a line, by what the caller gets. -/
def receives? (s : Desk) (p : Nat) : Act → Option Message
  | .dequeue p' =>
    match (s.queue.dequeue p').2 with
    | .request r => if p' = p then some (.issue r) else none
    | .stop marker => if p' = p then some (.stop marker) else none
    | _ => none
  | _ => none

def run (s : Desk) (acts : List Act) : Desk := acts.foldl step s

/-- What is put in a line, call by call. -/
def sent (p : Nat) : Desk → List Act → List Message
  | _, [] => []
  | s, a :: acts => (s.sends? p a).toList ++ sent p (s.step a) acts

/-- What is taken from a line, call by call. -/
def received (p : Nat) : Desk → List Act → List Message
  | _, [] => []
  | s, a :: acts => (s.receives? p a).toList ++ received p (s.step a) acts

/-- How many requests of a campaign stand in the lines. -/
def waiting (s : Desk) (c : CampaignId) : Nat := s.queue.waiting.countP (·.campaign = c)

/-- How many requests of a campaign are in hand. -/
def claimed (s : Desk) (c : CampaignId) : Nat := s.claims.countP (·.campaign = c)

/-- What a consumer gets of the first message in its line. -/
def handed : Option Message → Dequeued
  | some (.issue r) => .request r
  | some (.stop marker) => .stop marker
  | none => .empty

/-- What a call comes to. -/
inductive Moved (s : Desk) : Act → Desk → Prop
  | idle {a} (hsends : ∀ p, s.sends? p a = none) (hreceives : ∀ p, s.receives? p a = none)
      (hopen : a ≠ .close) : Moved s a s
  | enqueued {r queue} (hqueue : s.queue.enqueue r = .ok queue) :
      Moved s (.enqueue r) { s with queue := queue }
  | taken {p r rest} (hattended : (s.queue.channel p).attended = true)
      (hhead : (s.queue.channel p).messages = .issue r :: rest) :
      Moved s (.dequeue p) ⟨(s.queue.dequeue p).1, s.claims ++ [r]⟩
  | passed {p marker rest} (hattended : (s.queue.channel p).attended = true)
      (hhead : (s.queue.channel p).messages = .stop marker :: rest) :
      Moved s (.dequeue p) { s with queue := (s.queue.dequeue p).1 }
  | closed : Moved s .close { s with queue := s.queue.close }
  | placed {p} (hattended : (s.queue.channel p).attended = true)
      (hroom : s.queue.isFull p = false) :
      Moved s (.sendStop p) { s with queue := (s.queue.sendStop p).1 }
  | released {i r} (hclaim : s.claims[i]? = some r) :
      Moved s (.release i) ⟨s.queue.release r.campaign, s.claims.eraseIdx i⟩

theorem step_moved (s : Desk) (a : Act) : Moved s a (s.step a) := by
  cases a with
  | enqueue r =>
    simp only [step]
    cases hqueue : s.queue.enqueue r with
    | error why =>
      refine .idle (fun p => ?_) (fun p => rfl) (by simp)
      simp [sends?, hqueue, Except.isOk, Except.toBool]
    | ok queue => exact .enqueued hqueue
  | dequeue p =>
    cases ha : (s.queue.channel p).attended with
    | false =>
      have hnone : s.queue.dequeue p = (s.queue, .unattended) := by simp [Queue.dequeue, ha]
      simp only [step, hnone]
      exact .idle (fun _ => rfl) (fun _ => by simp [receives?, hnone]) (by simp)
    | true =>
      cases hm : (s.queue.channel p).messages with
      | nil =>
        have hnone : s.queue.dequeue p =
            (s.queue, if s.queue.released then .closed else .empty) := by
          simp [Queue.dequeue, ha, hm]
        cases hreleased : s.queue.released <;> simp only [hreleased] at hnone <;>
          simp only [step, hnone] <;>
            exact .idle (fun _ => rfl) (fun _ => by simp [receives?, hnone]) (by simp)
      | cons m rest =>
        cases m with
        | issue r =>
          have hstep : s.step (.dequeue p) = ⟨(s.queue.dequeue p).1, s.claims ++ [r]⟩ := by
            simp only [step, Queue.dequeue_request ha hm]
          rw [hstep]
          exact .taken ha hm
        | stop marker =>
          have hstep : s.step (.dequeue p) = { s with queue := (s.queue.dequeue p).1 } := by
            simp only [step, Queue.dequeue_stop ha hm]
          rw [hstep]
          exact .passed ha hm
  | close => exact .closed
  | sendStop p =>
    cases ha : (s.queue.channel p).attended with
    | false =>
      have hstep : s.step (.sendStop p) = s := by simp [step, Queue.sendStop, ha]
      rw [hstep]
      exact .idle (fun _ => by simp [sends?, Queue.sendStop, ha]) (fun _ => rfl) (by simp)
    | true =>
      cases hfull : s.queue.isFull p with
      | false => exact .placed ha hfull
      | true =>
        have hblocked := Queue.sendStop_of_full ha hfull
        have hstep : s.step (.sendStop p) = s := by simp only [step, hblocked]
        rw [hstep]
        exact .idle (fun _ => by simp [sends?, hblocked]) (fun _ => rfl) (by simp)
  | whenIdle c => exact .idle (fun _ => rfl) (fun _ => rfl) (by simp)
  | release i =>
    cases hclaim : s.claims[i]? with
    | none =>
      simp only [step, hclaim]
      exact .idle (fun _ => rfl) (fun _ => rfl) (by simp)
    | some r =>
      simp only [step, hclaim]
      exact .released hclaim

variable {s s' : Desk} {a : Act} {partitions : Nat} {limits : QueueLimits}

/-- What a call takes is the first of a line, and what it puts there comes last. -/
theorem Moved.messages (hmove : Moved s a s') (p : Nat) :
    (s.receives? p a).toList ++ (s'.queue.channel p).messages =
      (s.queue.channel p).messages ++ (s.sends? p a).toList := by
  cases hmove with
  | idle hsends hreceives =>
    rw [hsends, hreceives, Option.toList_none, List.append_nil]
    rfl
  | @enqueued r queue hqueue =>
    have hok : (s.queue.enqueue r).isOk = true := by rw [hqueue]; rfl
    simp only [receives?, sends?, hok, true_and, Queue.channel_enqueue hqueue]
    split <;> simp [Channel.push]
  | @taken p' r rest ha hm =>
    have hreceives : s.receives? p (.dequeue p') = if p' = p then some (.issue r) else none := by
      simp only [receives?, Queue.dequeue_request ha hm]
    rw [hreceives, Queue.channel_dequeue ha hm]
    by_cases hp : p' = p
    · subst hp
      simp [sends?, hm]
    · simp [sends?, hp]
  | @passed p' marker rest ha hm =>
    have hreceives : s.receives? p (.dequeue p') = if p' = p then some (.stop marker) else none := by
      simp only [receives?, Queue.dequeue_stop ha hm]
    rw [hreceives, Queue.channel_dequeue_stop ha hm]
    by_cases hp : p' = p
    · subst hp
      simp [sends?, hm]
    · simp [sends?, hp]
  | closed => exact (List.append_nil _).symm
  | @placed p' ha hroom =>
    have hplaced := Queue.sendStop_of_room ha hroom
    have hsends : s.sends? p (.sendStop p') =
        if p' = p then some (.stop s.queue.marks.length) else none := by
      simp only [sends?, hplaced]
    rw [hsends, Queue.channel_placed ha (congrArg Prod.fst hplaced)]
    by_cases hp : p' = p
    · subst hp
      simp [receives?, Channel.push]
    · simp [receives?, hp]
  | released => exact (List.append_nil _).symm

/-- First in, first out: what was taken from a line and what stands in it still is what stood in it
and what was put there, in that order. -/
private theorem received_append (p : Nat) (acts : List Act) (s : Desk) :
    received p s acts ++ ((s.run acts).queue.channel p).messages =
      (s.queue.channel p).messages ++ sent p s acts := by
  induction acts generalizing s with
  | nil => exact (List.append_nil _).symm
  | cons a acts ih =>
    have hfirst := (s.step_moved a).messages p
    show ((s.receives? p a).toList ++ received p (s.step a) acts) ++
      (((s.step a).run acts).queue.channel p).messages = _
    rw [List.append_assoc, ih (s.step a), ← List.append_assoc, hfirst, List.append_assoc]
    rfl

/-- The queue has its consumers, keeps to its limits, and counts what waits and what is in hand. -/
structure Sound (s : Desk) (partitions : Nat) (limits : QueueLimits) : Prop where
  sized : s.queue.partitions = partitions
  limited : s.queue.limits = limits
  unreleased : s.queue.released = false
  staffed : ∀ p, p < partitions → (s.queue.channel p).attended = true
  room : ∀ p, (s.queue.channel p).messages.length ≤ limits.buffer
  shallow : ∀ c, s.queue.depth c ≤ limits.maxDepth
  tallied : s.queue.Tallied s.claimed

private theorem Sound.of_line (h : s.Sound partitions limits) {queue : Queue} {claims : List IssuanceRequest}
    {p : Nat} {line : Channel} (hpartitions : queue.partitions = s.queue.partitions)
    (hsame : queue.limits = s.queue.limits ∧ queue.released = s.queue.released)
    (hchannel : ∀ p', queue.channel p' = if p = p' then line else s.queue.channel p')
    (hattended : line.attended = true) (hroom : line.messages.length ≤ limits.buffer)
    (hshallow : ∀ c, queue.depth c ≤ limits.maxDepth)
    (htallied : queue.Tallied (⟨queue, claims⟩ : Desk).claimed) :
    Sound ⟨queue, claims⟩ partitions limits where
  sized := hpartitions.trans h.sized
  limited := hsame.1.trans h.limited
  unreleased := hsame.2.trans h.unreleased
  staffed p' hp' := by
    rw [hchannel]
    split
    · exact hattended
    · exact h.staffed p' hp'
  room p' := by
    rw [hchannel]
    split
    · exact hroom
    · exact h.room p'
  shallow := hshallow
  tallied := htallied

private theorem Sound.room_of_rest (h : s.Sound partitions limits) {p : Nat} {first : Message}
    {rest : List Message} (hm : (s.queue.channel p).messages = first :: rest) :
    rest.length ≤ limits.buffer := by
  have hbefore := h.room p
  rw [hm] at hbefore
  exact Nat.le_of_succ_le hbefore

private theorem Sound.room_of_push (h : s.Sound partitions limits) {p : Nat}
    (hfull : s.queue.isFull p = false) (m : Message) :
    ((s.queue.channel p).push m).messages.length ≤ limits.buffer := by
  rw [Queue.isFull_eq_false_iff, h.limited] at hfull
  rw [Channel.push, List.length_append]
  exact hfull

theorem Moved.sound (hmove : Moved s a s') (h : s.Sound partitions limits) :
    s'.Sound partitions limits := by
  cases hmove with
  | idle => exact h
  | @enqueued r queue hqueue =>
    obtain ⟨-, hdeep, ha, hfull⟩ := Queue.enqueue_isOk_iff.1 ⟨queue, hqueue⟩
    obtain ⟨-, -, heq⟩ := Queue.enqueue_eq_ok hqueue
    have hline (p : Nat) : queue.channel p = if s.queue.partitionOf r.campaign = p then
        (s.queue.channel (s.queue.partitionOf r.campaign)).push (.issue r)
        else s.queue.channel p := by
      rw [Queue.channel_enqueue hqueue]
      split
      · next hp => rw [hp]
      · rfl
    apply h.of_line (Queue.partitions_enqueue hqueue) (by rw [heq]; exact ⟨rfl, rfl⟩) hline ha
      (h.room_of_push hfull _) ?_ (h.tallied.enqueue hqueue)
    intro c
    rw [Queue.depth, Queue.lane_enqueue hqueue]
    split
    · next hc =>
      rw [h.limited] at hdeep
      exact hc ▸ hdeep
    · exact h.shallow c
  | @taken p r rest ha hm =>
    have heq := congrArg Prod.fst (Queue.dequeue_request ha hm)
    apply h.of_line (Queue.partitions_dequeue ha hm) (by rw [heq]; exact ⟨rfl, rfl⟩)
      (Queue.channel_dequeue ha hm) ha (h.room_of_rest hm)
    · intro c
      rw [Queue.depth, Queue.lane_dequeue ha hm]
      split
      · exact Nat.le_trans (Nat.sub_le _ 1) (h.shallow c)
      · exact h.shallow c
    · apply h.tallied.dequeue ha hm
      intro c
      simp [claimed, List.countP_append, List.countP_singleton]
  | @passed p marker rest ha hm =>
    have heq := congrArg Prod.fst (Queue.dequeue_stop ha hm)
    apply h.of_line (Queue.partitions_dequeue_stop ha hm) (by rw [heq]; exact ⟨rfl, rfl⟩)
      (Queue.channel_dequeue_stop ha hm) ha (h.room_of_rest hm) ?_ (h.tallied.dequeue_stop ha hm)
    intro c
    rw [heq]
    exact h.shallow c
  | closed =>
    exact ⟨h.sized, h.limited, h.unreleased, h.staffed, h.room, h.shallow,
      h.tallied.of_requests (fun _ => rfl) rfl fun _ => rfl⟩
  | @placed p ha hfull =>
    have hplaced := congrArg Prod.fst (Queue.sendStop_of_room ha hfull)
    apply h.of_line (Queue.partitions_sendStop s.queue p) (by rw [hplaced]; exact ⟨rfl, rfl⟩)
      (Queue.channel_placed ha hplaced) ha (h.room_of_push hfull _) ?_ (h.tallied.sendStop p)
    intro c
    rw [Queue.depth, Queue.lane, Queue.lanes_sendStop]
    exact h.shallow c
  | @released i r hclaim =>
    refine ⟨h.sized, h.limited, h.unreleased, h.staffed, h.room, ?_, ?_⟩
    · intro c
      rw [Queue.depth, Queue.lane_release]
      split
      · next hc => exact hc ▸ h.shallow c
      · exact h.shallow c
    · apply h.tallied.release
      intro c
      simpa [claimed] using countP_eraseIdx hclaim (·.campaign = c)

theorem Sound.run (h : s.Sound partitions limits) (acts : List Act) :
    (s.run acts).Sound partitions limits := by
  induction acts generalizing s with
  | nil => exact h
  | cons a acts ih => exact ih ((s.step_moved a).sound h)

theorem sound_open {queue : Queue} (h : Queue.create partitions limits = .ok queue) :
    Sound ⟨queue, []⟩ partitions limits := by
  obtain ⟨hlimits, hchannels, hlanes, -, hreleased⟩ := Queue.create_eq_ok h
  refine ⟨?_, hlimits, hreleased, ?_, ?_, ?_, Queue.tallied_create h⟩
  · show queue.channels.length = partitions
    rw [hchannels, List.length_replicate]
  · intro p hp
    show (queue.channel p).attended = true
    rw [Queue.channel, hchannels, List.getElem?_replicate, if_pos hp]
    rfl
  · intro p
    show (queue.channel p).messages.length ≤ limits.buffer
    rw [Queue.channel_create h]
    exact Nat.zero_le _
  · intro c
    show (queue.lane c).queued ≤ limits.maxDepth
    rw [Queue.counted_create h, Queue.line, Queue.requests_create h]
    exact Nat.zero_le _

private theorem Moved.closed_iff (hmove : Moved s a s') :
    s'.queue.closed = true ↔ s.queue.closed = true ∨ a = .close := by
  cases hmove with
  | idle _ _ hopen => simp [hopen]
  | enqueued hqueue => simp [Queue.closed_enqueue hqueue]
  | taken ha hm => simp [Queue.dequeue_request ha hm, Queue.setLane, Queue.setChannel]
  | passed ha hm => simp [Queue.dequeue_stop ha hm, Queue.setChannel]
  | closed => simp [Queue.close]
  | placed => simp [Queue.closed_sendStop]
  | released => simp [Queue.release, Queue.setLane]

private theorem closed_run_iff (s : Desk) (acts : List Act) :
    (s.run acts).queue.closed = true ↔ s.queue.closed = true ∨ .close ∈ acts := by
  induction acts generalizing s with
  | nil => simp [run]
  | cons a acts ih =>
    have hfirst := (s.step_moved a).closed_iff
    show ((s.step a).run acts).queue.closed = true ↔ _
    rw [ih (s.step a), hfirst, List.mem_cons, or_assoc, @eq_comm _ a]

/-! ## What callers are told -/

section Calls

variable (h : s.Sound partitions limits) {p : Nat}

include h

private theorem Sound.dequeue_eq (hp : p < partitions) :
    (s.queue.dequeue p).2 = handed (s.queue.channel p).messages.head? := by
  have ha := h.staffed p hp
  cases hm : (s.queue.channel p).messages with
  | nil => simp [Queue.dequeue, ha, hm, h.unreleased, handed]
  | cons m rest =>
    cases m with
    | issue r =>
      rw [Queue.dequeue_request ha hm]
      rfl
    | stop marker =>
      rw [Queue.dequeue_stop ha hm]
      rfl

theorem Sound.enqueue_isOk_iff (r : IssuanceRequest) : (∃ queue, s.queue.enqueue r = .ok queue) ↔
    s.queue.closed = false ∧ s.waiting r.campaign < limits.maxDepth ∧
      (s.queue.channel (s.queue.partitionOf r.campaign)).messages.length < limits.buffer := by
  have hp := s.queue.partitionOf_lt r.campaign
  rw [h.sized] at hp
  rw [Queue.enqueue_isOk_iff, Queue.isFull_eq_false_iff, h.tallied.depth_eq, h.limited, waiting]
  simp [h.staffed _ hp]

private theorem Sound.depth_pos {r : IssuanceRequest} (htaken : (s.queue.dequeue p).2 = .request r) :
    0 < s.queue.depth r.campaign := by
  obtain ⟨-, rest, hm⟩ := Queue.dequeue_eq_request htaken
  rw [h.tallied.depth_eq, List.countP_pos_iff]
  refine ⟨r, Queue.mem_waiting_iff.2 ⟨p, ?_⟩, decide_eq_true rfl⟩
  simp [Queue.requests, Channel.requests, hm]

private theorem Sound.processing_pos {r : IssuanceRequest} (hr : r ∈ s.claims) :
    0 < (s.queue.lane r.campaign).processing := by
  rw [h.tallied.lanes]
  exact List.countP_pos_iff.2 ⟨r, hr, decide_eq_true rfl⟩

theorem Sound.sendStop_of_room (hp : p < partitions)
    (hroom : (s.queue.channel p).messages.length < limits.buffer) :
    ∃ marker, (s.queue.sendStop p).2 = .placed marker := by
  have hfull := Queue.isFull_eq_false_iff.2 (h.limited.symm ▸ hroom)
  exact ⟨_, congrArg Prod.snd (Queue.sendStop_of_room (h.staffed p hp) hfull)⟩

theorem Sound.sendStop_of_full (hp : p < partitions)
    (hfull : (s.queue.channel p).messages.length = limits.buffer) :
    s.queue.sendStop p = (s.queue, .blocked) := by
  apply Queue.sendStop_of_full (h.staffed p hp)
  rw [Queue.isFull, h.limited, hfull]
  exact decide_eq_true (Nat.le_refl _)

private theorem Sound.whenIdle_eq (c : CampaignId) : s.queue.whenIdle c () =
    if s.waiting c + s.claimed c = 0 then .ok () else .error (s.waiting c + s.claimed c) := by
  rw [Queue.whenIdle, h.tallied.inFlight_eq, waiting]

end Calls

/-- After any calls on a queue: what was taken from a partition and what stands there is what was
put there, in that order, within the room there is. The counts are those of the requests in the
partitions and in hand, and what is accepted, handed out or done when idle depends on nothing else.
-/
theorem bounded_fifo {partitions : Nat} {limits : QueueLimits} (hp : 0 < partitions)
    (hb : 0 < limits.buffer) :
    (QueueLimits.largestBuffer < limits.buffer ∧
      Queue.create partitions limits = .error .bufferTooLarge) ∨
    ∃ queue, Queue.create partitions limits = .ok queue ∧ ∀ acts s, run ⟨queue, []⟩ acts = s →
      (∀ c, s.queue.partitionOf c = c.value.toNat % partitions) ∧
      (∀ p, received p ⟨queue, []⟩ acts ++ (s.queue.channel p).messages =
          sent p ⟨queue, []⟩ acts ∧
        (s.queue.channel p).messages.length ≤ limits.buffer) ∧
      (∀ c, s.queue.depth c = s.waiting c ∧ s.queue.depth c ≤ limits.maxDepth ∧
        s.queue.inFlight c = s.queue.depth c + s.claimed c) ∧
      (∀ cs : List CampaignId, cs.Nodup → (∀ c, s.queue.inFlight c ≠ 0 → c ∈ cs) →
        s.queue.totalDepth = totalBy s.queue.depth cs ∧
        s.queue.totalInFlight = totalBy s.queue.inFlight cs) ∧
      (∀ p r, (s.queue.dequeue p).2 = .request r → 0 < s.queue.depth r.campaign) ∧
      (∀ r ∈ s.claims, 0 < (s.queue.lane r.campaign).processing) ∧
      (s.queue.closed = true ↔ .close ∈ acts) ∧
      (∀ r, (∃ queue', s.queue.enqueue r = .ok queue') ↔
        s.queue.closed = false ∧ s.waiting r.campaign < limits.maxDepth ∧
        (s.queue.channel (s.queue.partitionOf r.campaign)).messages.length < limits.buffer) ∧
      (∀ p, p < partitions →
        (s.queue.dequeue p).2 = handed (s.queue.channel p).messages.head?) ∧
      (∀ p, p < partitions →
        ((s.queue.channel p).messages.length < limits.buffer →
          ∃ marker, (s.queue.sendStop p).2 = .placed marker) ∧
        ((s.queue.channel p).messages.length = limits.buffer →
          s.queue.sendStop p = (s.queue, .blocked))) ∧
      ∀ c, s.queue.whenIdle c () =
        if s.waiting c + s.claimed c = 0 then .ok () else .error (s.waiting c + s.claimed c) := by
  rcases Queue.create_cases hp hb with hlarge | ⟨queue, hcreate⟩
  · exact .inl hlarge
  right
  refine ⟨queue, hcreate, ?_⟩
  intro acts s hs
  have h : s.Sound partitions limits := hs ▸ (sound_open hcreate).run acts
  have hempty (p : Nat) : (queue.channel p).messages = [] := Queue.channel_create hcreate p
  have hopen : queue.closed = false := (Queue.create_eq_ok hcreate).2.2.2.1
  refine ⟨?_, ?_, ?_, ?_, ?_, ?_, ?_, ?_, ?_, ?_, ?_⟩
  · intro c
    rw [Queue.partitionOf, h.sized]
  · intro p
    have hfifo := received_append p acts ⟨queue, []⟩
    rw [hs, hempty, List.nil_append] at hfifo
    exact ⟨hfifo, h.room p⟩
  · intro c
    have hdepth := h.tallied.depth_eq c
    refine ⟨hdepth, h.shallow c, ?_⟩
    rw [hdepth]
    exact h.tallied.inFlight_eq c
  · exact fun cs hd hcs => s.queue.totals_eq hd hcs
  · exact fun p r htaken => h.depth_pos htaken
  · exact fun r hr => h.processing_pos hr
  · rw [← hs, closed_run_iff, hopen]
    simp
  · exact h.enqueue_isOk_iff
  · exact fun p hp => h.dequeue_eq hp
  · exact fun p hp => ⟨h.sendStop_of_room hp, h.sendStop_of_full hp⟩
  · exact h.whenIdle_eq

/-- Two campaigns share a partition with room for two messages. A third request finds no room until the
first is taken; a stop marker finds none until the second is taken. -/
def shared : List Act :=
  [.enqueue ⟨⟨"a"⟩, ⟨1⟩, ⟨1⟩, 0⟩, .enqueue ⟨⟨"b"⟩, ⟨3⟩, ⟨1⟩, 0⟩, .enqueue ⟨⟨"c"⟩, ⟨1⟩, ⟨2⟩, 0⟩,
    .dequeue 1, .enqueue ⟨⟨"d"⟩, ⟨1⟩, ⟨3⟩, 0⟩, .sendStop 1, .dequeue 1, .sendStop 1, .close,
    .whenIdle ⟨3⟩, .release 0]

theorem bounded_fifo_shared : ∃ queue, Queue.create 2 ⟨2, 1, 1, 1000⟩ = .ok queue ∧
    received 1 ⟨queue, []⟩ shared ++ ((run ⟨queue, []⟩ shared).queue.channel 1).messages =
      [.issue ⟨⟨"a"⟩, ⟨1⟩, ⟨1⟩, 0⟩, .issue ⟨⟨"b"⟩, ⟨3⟩, ⟨1⟩, 0⟩, .issue ⟨⟨"d"⟩, ⟨1⟩, ⟨3⟩, 0⟩, .stop 0] ∧
    (run ⟨queue, []⟩ shared).queue.depth ⟨1⟩ = 1 ∧
    (run ⟨queue, []⟩ shared).queue.inFlight ⟨3⟩ = 1 ∧
    (run ⟨queue, []⟩ shared).queue.sendStop 1 = ((run ⟨queue, []⟩ shared).queue, .blocked) := by
  have hp : 0 < 2 := by decide
  have hb : 0 < (⟨2, 1, 1, 1000⟩ : QueueLimits).buffer := by decide
  obtain ⟨queue, hcreate, hall⟩ :=
    (bounded_fifo hp hb).resolve_left fun hlarge => absurd hlarge.1 (by decide)
  obtain ⟨-, hfifo, hcounts, -, -, -, -, -, -, hstop, -⟩ := hall shared _ rfl
  cases hcreate
  refine ⟨_, rfl, (hfifo 1).1.trans (by rfl), (hcounts ⟨1⟩).1.trans (by rfl),
    (hcounts ⟨3⟩).2.2.trans (by rfl), (hstop 1 (by decide)).2 (by rfl)⟩

end Desk
end CouponIssuance
