import CouponIssuance.Proofs.Queue
/-!
# Lanes and workers of the lines

The lane of a campaign counts the requests of the campaign that stand in line, and nothing else,
since a request that is taken is dealt with in one turn. A line that has lost its worker is empty.
-/
namespace CouponIssuance.Queue

/-- Each lane counts what waits in its line, and nothing is handed out. -/
def Counted (q : Queue) : Prop := ∀ c, q.lane c = ⟨(q.line c).length, 0⟩

/-- A worker leaves nothing behind. -/
def Staffed (q : Queue) : Prop :=
  ∀ p, (q.channel p).attended = false → (q.channel p).messages = []

private theorem lane_setLane (q : Queue) (c c' : CampaignId) (l : Lane) :
    (q.setLane c l).lane c' = if c = c' then l else q.lane c' := by
  simp only [lane, setLane, Table.getD, Table.get?_insert]
  split <;> rfl

theorem line_congr {q q' : Queue} (hp : q'.partitions = q.partitions)
    (hr : ∀ p, q'.requests p = q.requests p) (c : CampaignId) : q'.line c = q.line c := by
  rw [line, line, partitionOf_congr hp, hr]

theorem Counted.of_requests {q q' : Queue} (h : q.Counted) (hl : q'.lanes = q.lanes)
    (hp : q'.partitions = q.partitions) (hr : ∀ p, q'.requests p = q.requests p) : q'.Counted := by
  intro c
  have hlane : q'.lane c = q.lane c := by rw [lane, lane, hl]
  rw [hlane, line_congr hp hr]
  exact h c

private theorem Staffed.of_channels {q q' : Queue} (h : q.Staffed)
    (hc : ∀ p, q'.channel p = q.channel p ∨ (q'.channel p).attended = true ∨
      (q'.channel p).messages = []) : q'.Staffed := by
  intro p hp
  rcases hc p with hsame | hattended | hempty
  · rw [hsame] at hp ⊢
    exact h p hp
  · rw [hattended] at hp
    cases hp
  · exact hempty

theorem mem_requests_of_mem_line {q : Queue} {c : CampaignId} {r : IssuanceRequest}
    (h : r ∈ q.line c) : r ∈ q.requests (q.partitionOf c) ∧ r.campaign = c := by
  obtain ⟨hr, hc⟩ := List.mem_filter.1 h
  exact ⟨hr, of_decide_eq_true hc⟩

private theorem countP_flatMap_range {α : Type} {f : Nat → List α} {test : α → Bool} {k : Nat}
    (h : ∀ i, i ≠ k → (f i).countP test = 0) (n : Nat) : ((List.range n).flatMap f).countP test =
      if k < n then (f k).countP test else 0 := by
  induction n with
  | zero => rfl
  | succ n ih =>
    rw [List.range_succ, List.flatMap_append, List.countP_append, ih, List.flatMap_singleton]
    by_cases hn : n = k
    · subst hn
      simp
    · rw [h n hn, Nat.add_zero]
      have hiff : k < n ↔ k < n + 1 := by omega
      simp only [hiff]

theorem countP_waiting {q : Queue}
    (hplaced : ∀ {p r}, r ∈ q.requests p → q.partitionOf r.campaign = p) (c : CampaignId) :
    q.waiting.countP (·.campaign = c) = (q.line c).length := by
  have hothers : ∀ p, p ≠ q.partitionOf c → (q.requests p).countP (·.campaign = c) = 0 := by
    intro p hp
    rw [List.countP_eq_zero]
    intro r hr hc
    exact hp (of_decide_eq_true hc ▸ (hplaced hr).symm)
  rw [waiting, countP_flatMap_range hothers, if_pos (q.partitionOf_lt c), line,
    List.countP_eq_length_filter]

section Enqueue

variable {q q' : Queue} {r : IssuanceRequest}

theorem lane_enqueue (h : q.enqueue r = .ok q') (c : CampaignId) :
    q'.lane c = if r.campaign = c then { q.lane c with queued := (q.lane c).queued + 1 }
      else q.lane c := by
  obtain ⟨-, -, rfl⟩ := enqueue_eq_ok h
  rw [lane_setLane]
  split
  · next hc => rw [hc]
  · rfl

theorem line_enqueue (h : q.enqueue r = .ok q') (c : CampaignId) :
    q'.line c = q.line c ++ if r.campaign = c then [r] else [] := by
  rw [line, partitionOf_congr (partitions_enqueue h), requests_enqueue h, List.filter_append, line]
  by_cases hc : r.campaign = c
  · simp [hc]
  · rw [if_neg hc]
    split <;> simp [hc]

theorem Counted.enqueue (hq : q.Counted) (h : q.enqueue r = .ok q') : q'.Counted := by
  intro c
  rw [lane_enqueue h, line_enqueue h, hq c]
  by_cases hc : r.campaign = c
  · simp [hc]
  · simp [hc]

theorem Staffed.enqueue (hq : q.Staffed) (h : q.enqueue r = .ok q') : q'.Staffed := by
  apply hq.of_channels
  intro p
  rw [channel_enqueue h]
  split
  · next hp =>
    have ha : (q.channel p).attended = true := hp ▸ (enqueue_eq_ok h).2.1
    exact .inr (.inl ha)
  · exact .inl rfl

end Enqueue

section Take

variable {q : Queue} {p : Nat} {r : IssuanceRequest} {rest : List Message} {marker : Nat}

theorem lane_release (q : Queue) (c c' : CampaignId) : (q.release c).lane c' =
    if c = c' then { q.lane c with processing := (q.lane c).processing - 1 } else q.lane c' :=
  lane_setLane ..

theorem lane_dequeue (ha : (q.channel p).attended = true)
    (hm : (q.channel p).messages = .issue r :: rest) (c : CampaignId) :
    (q.dequeue p).1.lane c = if r.campaign = c then
      ⟨(q.lane c).queued - 1, (q.lane c).processing + 1⟩ else q.lane c := by
  rw [dequeue_request ha hm, lane_setLane]
  split
  · next hc => rw [hc]
  · rfl

private theorem lane_serve (ha : (q.channel p).attended = true)
    (hm : (q.channel p).messages = .issue r :: rest) (c : CampaignId) :
    (q.serve p r).lane c = if r.campaign = c then { q.lane c with queued := (q.lane c).queued - 1 }
      else q.lane c := by
  rw [serve, lane_release, lane_dequeue ha hm, lane_dequeue ha hm, if_pos rfl]
  split
  · next hc => rw [hc, Nat.add_sub_cancel]
  · rfl

theorem line_dequeue (ha : (q.channel p).attended = true)
    (hm : (q.channel p).messages = .issue r :: rest) (hp : q.partitionOf r.campaign = p)
    (c : CampaignId) :
    q.line c = (if r.campaign = c then [r] else []) ++ (q.dequeue p).1.line c := by
  rw [line, requests_dequeue ha hm, List.filter_append, line,
    partitionOf_congr (partitions_dequeue ha hm)]
  by_cases hc : r.campaign = c
  · simp [← hc, hp]
  · rw [if_neg hc]
    split <;> simp [hc]

private theorem line_serve (ha : (q.channel p).attended = true)
    (hm : (q.channel p).messages = .issue r :: rest) (hp : q.partitionOf r.campaign = p)
    (c : CampaignId) : q.line c = (if r.campaign = c then [r] else []) ++ (q.serve p r).line c :=
  line_dequeue ha hm hp c

theorem Counted.serve (hq : q.Counted) (ha : (q.channel p).attended = true)
    (hm : (q.channel p).messages = .issue r :: rest) (hp : q.partitionOf r.campaign = p) :
    (q.serve p r).Counted := by
  intro c
  have hline := line_serve ha hm hp c
  rw [lane_serve ha hm, hq c, hline]
  by_cases hc : r.campaign = c
  · simp [hc]
  · simp [hc]

theorem Staffed.serve (hq : q.Staffed) (ha : (q.channel p).attended = true)
    (hm : (q.channel p).messages = .issue r :: rest) : (q.serve p r).Staffed := by
  apply hq.of_channels
  intro p'
  rw [channel_serve ha hm]
  split
  · exact .inr (.inl ha)
  · exact .inl rfl

private theorem lanes_dismiss (ha : (q.channel p).attended = true)
    (hm : (q.channel p).messages = .stop marker :: rest) : (q.dismiss p marker).lanes = q.lanes := by
  rw [dismiss, dequeue_stop ha hm, abandon]
  show (acknowledge _ marker).1.lanes = q.lanes
  unfold acknowledge
  split <;> rfl

theorem Counted.dismiss (hq : q.Counted) (ho : q.Orderly) (ha : (q.channel p).attended = true)
    (hm : (q.channel p).messages = .stop marker :: rest) : (q.dismiss p marker).Counted :=
  hq.of_requests (lanes_dismiss ha hm) (partitions_dismiss ha hm) (requests_dismiss ho ha hm)

theorem Staffed.dismiss (hq : q.Staffed) (ha : (q.channel p).attended = true)
    (hm : (q.channel p).messages = .stop marker :: rest) : (q.dismiss p marker).Staffed := by
  apply hq.of_channels
  intro p'
  rw [channel_dismiss ha hm]
  split
  · exact .inr (.inr rfl)
  · exact .inl rfl

end Take

theorem lanes_sendStop (q : Queue) (p : Nat) : (q.sendStop p).1.lanes = q.lanes := by
  rcases sendStop_cases q p with h | ⟨-, h⟩ <;> rw [h]
  rfl

theorem Counted.sendStop {q : Queue} (hq : q.Counted) (p : Nat) : (q.sendStop p).1.Counted :=
  hq.of_requests (lanes_sendStop q p) (partitions_sendStop q p) (requests_sendStop q p)

theorem Staffed.sendStop {q : Queue} (hq : q.Staffed) (p : Nat) : (q.sendStop p).1.Staffed := by
  rcases sendStop_cases q p with h | ⟨ha, h⟩
  · rw [h]
    exact hq
  · apply hq.of_channels
    intro p'
    rw [channel_placed ha h]
    split
    · exact .inr (.inl ha)
    · exact .inl rfl

section Create

variable {partitions : Nat} {limits : QueueLimits} {q : Queue}

private theorem lanes_create (h : create partitions limits = .ok q) : q.lanes = Table.empty :=
  (create_eq_ok h).2.2.1

theorem counted_create (h : create partitions limits = .ok q) : q.Counted := by
  intro c
  have hlane : q.lane c = .idle := by rw [lane, lanes_create h]; rfl
  rw [hlane, line, requests_create h]
  rfl

theorem staffed_create (h : create partitions limits = .ok q) : q.Staffed :=
  fun p _ => channel_create h p

end Create
end CouponIssuance.Queue
