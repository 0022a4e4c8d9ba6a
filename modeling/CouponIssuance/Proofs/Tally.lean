import Mathlib.Data.List.Perm.Basic
import CouponIssuance.Proofs.Lanes
import CouponIssuance.Proofs.Table.Listing
/-!
# The tally of the queue

While every request waits in the line of its campaign, and every lane counts the requests in its line
and those in hand, the counts that the lanes keep are those of plain lists. Whatever is done to the
queue keeps them so, if what is in hand changes with it.
-/
namespace CouponIssuance

theorem countP_eraseIdx {α : Type} {l : List α} {i : Nat} {a : α} (h : l[i]? = some a)
    (test : α → Bool) : (l.eraseIdx i).countP test + (if test a then 1 else 0) = l.countP test := by
  obtain ⟨hi, rfl⟩ := List.getElem?_eq_some_iff.1 h
  have hperm : (l[i] :: l.eraseIdx i).Perm l := List.getElem_cons_eraseIdx_perm hi
  rw [← hperm.countP_eq test, List.countP_cons]

namespace Queue

/-- Each request waits in the line of its campaign, and each lane counts what waits there and what is
in hand. -/
structure Tallied (q : Queue) (inHand : CampaignId → Nat) : Prop where
  placed : ∀ {p r}, r ∈ q.requests p → q.partitionOf r.campaign = p
  lanes : ∀ c, q.lane c = ⟨(q.line c).length, inHand c⟩

variable {q q' : Queue} {inHand inHand' : CampaignId → Nat} {p marker : Nat} {c : CampaignId}
  {r : IssuanceRequest} {rest : List Message}

theorem Tallied.depth_eq (h : q.Tallied inHand) (c : CampaignId) :
    q.depth c = q.waiting.countP (·.campaign = c) := by
  rw [depth, h.lanes, countP_waiting h.placed]

theorem Tallied.inFlight_eq (h : q.Tallied inHand) (c : CampaignId) :
    q.inFlight c = q.waiting.countP (·.campaign = c) + inHand c := by
  rw [inFlight, h.lanes, countP_waiting h.placed]
  rfl

theorem totalBy_lanes (q : Queue) {count : Lane → Nat} (hidle : count .idle = 0)
    {cs : List CampaignId} (hd : cs.Nodup) (hcs : ∀ c, count (q.lane c) ≠ 0 → c ∈ cs) :
    totalBy count q.lanes.values = totalBy (fun c => count (q.lane c)) cs := by
  rw [q.lanes.totalBy_values count .idle]
  apply totalBy_eq_of_support _ q.lanes.distinct hd
  intro c hc
  refine ⟨fun _ => hcs c hc, fun _ => ?_⟩
  apply Classical.byContradiction
  intro hnew
  have hnone : q.lanes.getD c .idle = .idle := by
    rw [Table.getD, Table.get?_eq_none_iff.2 hnew]
    rfl
  exact hc ((congrArg count hnone).trans hidle)

theorem totals_eq (q : Queue) {cs : List CampaignId} (hd : cs.Nodup)
    (hcs : ∀ c, q.inFlight c ≠ 0 → c ∈ cs) :
    q.totalDepth = totalBy q.depth cs ∧ q.totalInFlight = totalBy q.inFlight cs := by
  constructor
  · apply q.totalBy_lanes rfl hd
    intro c hc
    apply hcs c
    rw [inFlight, Lane.inFlight]
    omega
  · exact q.totalBy_lanes rfl hd hcs

theorem Tallied.of_requests (h : q.Tallied inHand) (hl : ∀ c, q'.lane c = q.lane c)
    (hp : q'.partitions = q.partitions) (hr : ∀ p, q'.requests p = q.requests p) :
    q'.Tallied inHand where
  placed := by
    intro p r hm
    rw [partitionOf_congr hp]
    exact h.placed (hr p ▸ hm)
  lanes c := by
    rw [hl, line_congr hp hr]
    exact h.lanes c

theorem Tallied.enqueue (h : q.Tallied inHand) (hq : q.enqueue r = .ok q') : q'.Tallied inHand where
  placed := by
    intro p r' hm
    rw [partitionOf_congr (partitions_enqueue hq)]
    rw [requests_enqueue hq, List.mem_append] at hm
    rcases hm with hm | hm
    · exact h.placed hm
    · split at hm
      · next hp => rwa [List.mem_singleton.1 hm]
      · cases hm
  lanes c := by
    rw [lane_enqueue hq, line_enqueue hq, h.lanes c]
    by_cases hc : r.campaign = c <;> simp [hc]

theorem Tallied.dequeue (h : q.Tallied inHand) (ha : (q.channel p).attended = true)
    (hm : (q.channel p).messages = .issue r :: rest)
    (hand : ∀ c, inHand' c = inHand c + if r.campaign = c then 1 else 0) :
    (q.dequeue p).1.Tallied inHand' := by
  have hrequests := requests_dequeue ha hm
  have hp : q.partitionOf r.campaign = p := by
    apply h.placed
    rw [hrequests, if_pos rfl]
    exact List.mem_append_left _ (List.mem_singleton_self r)
  constructor
  · intro p' r' hm'
    rw [partitionOf_congr (partitions_dequeue ha hm)]
    exact h.placed (by rw [hrequests]; exact List.mem_append_right _ hm')
  · intro c
    have hline := line_dequeue ha hm hp c
    rw [lane_dequeue ha hm, h.lanes c, hline, hand]
    by_cases hc : r.campaign = c <;> simp [hc]

theorem Tallied.dequeue_stop (h : q.Tallied inHand) (ha : (q.channel p).attended = true)
    (hm : (q.channel p).messages = .stop marker :: rest) : (q.dequeue p).1.Tallied inHand := by
  apply h.of_requests (fun c => ?_) (partitions_dequeue_stop ha hm) (requests_dequeue_stop ha hm)
  rw [Queue.dequeue_stop ha hm]
  rfl

theorem Tallied.release (h : q.Tallied inHand)
    (hand : ∀ c', inHand' c' + (if c = c' then 1 else 0) = inHand c') :
    (q.release c).Tallied inHand' where
  placed := h.placed
  lanes c' := by
    have hline : (q.release c).line c' = q.line c' := rfl
    have hcount := hand c'
    rw [lane_release, hline, h.lanes, h.lanes]
    split
    · next hc =>
      subst hc
      rw [if_pos rfl] at hcount
      rw [← hcount, Nat.add_sub_cancel]
    · next hc =>
      rw [if_neg hc] at hcount
      rw [← hcount, Nat.add_zero]

theorem Tallied.sendStop (h : q.Tallied inHand) (p : Nat) : (q.sendStop p).1.Tallied inHand := by
  apply h.of_requests (fun c => ?_) (partitions_sendStop q p) (requests_sendStop q p)
  rw [lane, lane, lanes_sendStop]

theorem tallied_create {partitions : Nat} {limits : QueueLimits}
    (h : create partitions limits = .ok q) : q.Tallied fun _ => 0 where
  placed := by
    intro p r hr
    rw [requests_create h] at hr
    cases hr
  lanes := counted_create h

end Queue
end CouponIssuance
