import CouponIssuance.Proofs.NoDrift
/-!
# Stop markers on their way

A stop marker stands in one line from when it is placed until the worker of the line leaves, and
until then its sender hears nothing. The worker leaves when it comes to the first marker of its line,
so after as many turns as messages stood there.
-/
namespace CouponIssuance

theorem Channel.mem_markers_iff {c : Channel} {m : Nat} :
    m ∈ c.markers ↔ .stop m ∈ c.messages := by
  rw [markers, List.mem_filterMap]
  constructor
  · rintro ⟨message, hmem, heq⟩
    cases message with
    | issue r => cases heq
    | stop m' =>
      cases heq
      exact hmem
  · exact fun hmem => ⟨.stop m, hmem, rfl⟩

private theorem Channel.getElem?_push {c : Channel} {i : Nat} {x y : Message}
    (h : c.messages[i]? = some x) : (c.push y).messages[i]? = some x := by
  rw [push, List.getElem?_append_left (List.getElem?_eq_some_iff.1 h).1]
  exact h

namespace Queue

/-- All workers have left. -/
def Deserted (q : Queue) : Prop := ∀ p, (q.channel p).attended = false

/-- The markers in the lines are among those that were given a number. -/
def Numbered (q : Queue) : Prop :=
  ∀ p m, .stop m ∈ (q.channel p).messages → m < q.marks.length

/-- Marker `m` was sent to the worker of partition `p`. Either it still waits in the line, or its
sender has heard of it and the worker has left. -/
structure Sent (q : Queue) (p m : Nat) : Prop where
  numbered : m < q.marks.length
  place : ∀ p', .stop m ∈ (q.channel p').messages → p' = p
  waits_or_heard : q.mark m = .waiting ∧ .stop m ∈ (q.channel p).messages ∨
    q.mark m ≠ .waiting ∧ (q.channel p).attended = false

/-- How markers fare in a move of the queue: a new one gets a new number, and an old one stays where
it is, unless the worker of its line leaves. -/
structure Onward (q q' : Queue) : Prop where
  numbers : q.marks.length ≤ q'.marks.length
  left : ∀ {p}, (q.channel p).attended = false → (q'.channel p).attended = false
  came : ∀ {p m}, .stop m ∈ (q'.channel p).messages →
    .stop m ∈ (q.channel p).messages ∨ q.marks.length ≤ m ∧ m < q'.marks.length
  stays_or_goes : ∀ {m}, m < q.marks.length →
    (q'.mark m = q.mark m ∧
      ∀ p, .stop m ∈ (q.channel p).messages → .stop m ∈ (q'.channel p).messages) ∨
    ∃ p, .stop m ∈ (q.channel p).messages ∧ q'.mark m ≠ .waiting ∧ (q'.channel p).attended = false

section Onward

variable {q q' : Queue} {p m : Nat}

theorem Numbered.onward (h : q.Numbered) (ho : q.Onward q') : q'.Numbered := by
  intro p m hm
  rcases ho.came hm with hold | ⟨-, hnew⟩
  · exact Nat.lt_of_lt_of_le (h p m hold) ho.numbers
  · exact hnew

theorem Sent.onward (h : q.Sent p m) (ho : q.Onward q') : q'.Sent p m where
  numbered := Nat.lt_of_lt_of_le h.numbered ho.numbers
  place p' hm := by
    rcases ho.came hm with hold | ⟨hnew, -⟩
    · exact h.place p' hold
    · exact absurd h.numbered (Nat.not_lt.2 hnew)
  waits_or_heard := by
    rcases ho.stays_or_goes h.numbered with ⟨hmark, hstays⟩ | ⟨p', hplace, hheard, hleft⟩
    · rw [hmark]
      rcases h.waits_or_heard with ⟨hwaits, hin⟩ | ⟨hheard, hleft⟩
      · exact .inl ⟨hwaits, hstays p hin⟩
      · exact .inr ⟨hheard, ho.left hleft⟩
    · rw [h.place p' hplace] at hleft
      exact .inr ⟨hheard, hleft⟩

private theorem Onward.of_marks (hmarks : q'.marks = q.marks)
    (hattended : ∀ p, (q'.channel p).attended = (q.channel p).attended)
    (hmessages : ∀ p m, .stop m ∈ (q'.channel p).messages ↔ .stop m ∈ (q.channel p).messages) :
    q.Onward q' where
  numbers := Nat.le_of_eq (congrArg List.length hmarks.symm)
  left {p} h := by rw [hattended]; exact h
  came h := .inl ((hmessages _ _).1 h)
  stays_or_goes {m} _ := by
    have hmark : q'.mark m = q.mark m := by rw [mark, mark, hmarks]
    exact .inl ⟨hmark, fun p h => (hmessages p m).2 h⟩

theorem Onward.enqueue {r : IssuanceRequest} (h : q.enqueue r = .ok q') : q.Onward q' := by
  have hmarks : q'.marks = q.marks := by
    obtain ⟨-, -, rfl⟩ := enqueue_eq_ok h
    rfl
  apply Onward.of_marks hmarks
  · intro p
    rw [channel_enqueue h]
    split
    · next hp => rw [← hp]; rfl
    · rfl
  · intro p m
    rw [channel_enqueue h]
    split
    · next hp => simp [← hp, Channel.push]
    · rfl

theorem Onward.serve {r : IssuanceRequest} {rest : List Message}
    (ha : (q.channel p).attended = true) (hm : (q.channel p).messages = .issue r :: rest) :
    q.Onward (q.serve p r) := by
  have hmarks : (q.serve p r).marks = q.marks := by
    rw [Queue.serve, dequeue_request ha hm]
    rfl
  apply Onward.of_marks hmarks
  · intro p'
    rw [channel_serve ha hm]
    split
    · next hp => rw [← hp]
    · rfl
  · intro p' m
    rw [channel_serve ha hm]
    split
    · next hp => simp [← hp, hm]
    · rfl

end Onward

section Dismiss

variable {q : Queue} {p marker : Nat} {rest : List Message}

private theorem getElem?_foldl_set (ms : List Mark) (lost : List Nat) (m : Nat) :
    (lost.foldl (fun ms m => ms.set m .gone) ms)[m]?.getD .gone =
      if m ∈ lost then .gone else ms[m]?.getD .gone := by
  induction lost generalizing ms with
  | nil => rfl
  | cons first rest ih =>
    rw [List.foldl_cons, ih]
    by_cases hrest : m ∈ rest
    · simp [hrest]
    · by_cases hm : first = m
      · subst hm
        by_cases hlt : first < ms.length <;> simp [hrest, hlt]
      · simp [hrest, Ne.symm hm, List.getElem?_set_ne hm]

private theorem length_foldl_set (ms : List Mark) (lost : List Nat) :
    (lost.foldl (fun ms m => ms.set m .gone) ms).length = ms.length := by
  induction lost generalizing ms with
  | nil => rfl
  | cons first rest ih => rw [List.foldl_cons, ih, List.length_set]

private theorem mark_acknowledge (q : Queue) (marker m : Nat) : (q.acknowledge marker).1.mark m =
    if m = marker ∧ q.mark marker = .waiting then .acknowledged else q.mark m := by
  unfold acknowledge
  by_cases hwaits : q.mark marker = .waiting
  · simp only [hwaits, if_true, and_true]
    have hlt : marker < q.marks.length := by
      apply Classical.byContradiction
      intro hn
      have hnone : q.marks[marker]? = none := List.getElem?_eq_none (Nat.le_of_not_lt hn)
      simp [mark, hnone] at hwaits
    by_cases hm : m = marker
    · subst hm
      simp [mark, hlt]
    · simp [mark, hm, List.getElem?_set_ne (Ne.symm hm)]
  · simp [hwaits]

private theorem length_marks_acknowledge (q : Queue) (marker : Nat) :
    (q.acknowledge marker).1.marks.length = q.marks.length := by
  unfold acknowledge
  split
  · exact List.length_set
  · rfl

private theorem length_marks_dismiss (ha : (q.channel p).attended = true)
    (hm : (q.channel p).messages = .stop marker :: rest) :
    (q.dismiss p marker).marks.length = q.marks.length := by
  rw [dismiss, dequeue_stop ha hm]
  exact (length_foldl_set ..).trans (length_marks_acknowledge ..)

/-- The worker acknowledges the marker it has come to; those behind it are lost. -/
theorem mark_dismiss (ha : (q.channel p).attended = true)
    (hm : (q.channel p).messages = .stop marker :: rest) (m : Nat) :
    (q.dismiss p marker).mark m = if .stop m ∈ rest then .gone
      else if m = marker ∧ q.mark marker = .waiting then .acknowledged else q.mark m := by
  have hlost : (((q.dequeue p).1.acknowledge marker).1.channel p).messages = rest := by
    rw [channel_acknowledge, dequeue_stop ha hm,
      channel_setChannel (lt_partitions_of_attended ha), if_pos rfl]
  have hmark : ((q.dequeue p).1.acknowledge marker).1.mark m =
      if m = marker ∧ q.mark marker = .waiting then .acknowledged else q.mark m := by
    rw [mark_acknowledge, dequeue_stop ha hm]
    rfl
  rw [← hmark]
  show (List.foldl _ _ _)[m]?.getD Mark.gone = _
  rw [getElem?_foldl_set]
  simp only [Channel.mem_markers_iff, hlost]
  rfl

theorem Onward.dismiss (ha : (q.channel p).attended = true)
    (hm : (q.channel p).messages = .stop marker :: rest) : q.Onward (q.dismiss p marker) where
  numbers := Nat.le_of_eq (length_marks_dismiss ha hm).symm
  left {p'} h := by
    rw [channel_dismiss ha hm]
    split
    · rfl
    · exact h
  came {p' m} h := by
    rw [channel_dismiss ha hm] at h
    split at h
    · cases h
    · exact .inl h
  stays_or_goes {m} _ := by
    rw [mark_dismiss ha hm]
    by_cases hin : .stop m ∈ (q.channel p).messages
    · refine .inr ⟨p, hin, ?_, by rw [channel_dismiss ha hm, if_pos rfl]⟩
      rw [hm, List.mem_cons] at hin
      rcases hin with heq | hrest
      · cases heq
        split
        · exact nofun
        · split
          · exact nofun
          · next hheard => exact fun hwaits => hheard ⟨rfl, hwaits⟩
      · rw [if_pos hrest]
        exact nofun
    · refine .inl ⟨?_, fun p' h => ?_⟩
      · rw [hm, List.mem_cons, not_or] at hin
        rw [if_neg hin.2, if_neg fun h => hin.1 (by rw [h.1])]
      · have hp : p ≠ p' := by
          rintro rfl
          exact hin h
        rw [channel_dismiss ha hm, if_neg hp]
        exact h

end Dismiss

section SendStop

variable {q : Queue} {p m : Nat}

theorem sendStop_eq_placed (h : (q.sendStop p).2 = .placed m) :
    (q.channel p).attended = true ∧ m = q.marks.length ∧
      (q.sendStop p).1 = { q.setChannel p ((q.channel p).push (.stop m)) with
        marks := q.marks ++ [.waiting] } := by
  dsimp only [sendStop] at h ⊢
  split at h
  · cases h
  · next ha =>
    split at h
    · cases h
    · next hroom =>
      cases h
      rw [if_neg ha, if_neg hroom]
      exact ⟨by simpa using ha, rfl, rfl⟩

theorem attended_of_sendStop_eq_refused {why : Refusal} (h : (q.sendStop p).2 = .refused why) :
    (q.channel p).attended = false := by
  dsimp only [sendStop] at h
  split at h
  · next ha => simpa using ha
  · split at h <;> cases h

theorem sendStop_of_left (ha : (q.channel p).attended = false) : q.sendStop p =
    (q, .refused (.internal s!"partition {p} consumer closed: channel closed")) := by
  simp [sendStop, ha]

variable (q p) in
theorem Onward.sendStop : q.Onward (q.sendStop p).1 := by
  rcases sendStop_cases q p with h | ⟨ha, h⟩
  · rw [h]
    exact .of_marks rfl (fun _ => rfl) fun _ _ => Iff.rfl
  · have hchannel := channel_placed ha h
    have hmarks : (q.sendStop p).1.marks = q.marks ++ [.waiting] := by rw [h]
    constructor
    · rw [hmarks, List.length_append]
      exact Nat.le_add_right ..
    · intro p' hleft
      rw [hchannel]
      split
      · next hp => rw [hp]; exact hleft
      · exact hleft
    · intro p' m hin
      rw [hchannel] at hin
      split at hin
      · next hp =>
        rw [hp, Channel.push, List.mem_append, List.mem_singleton] at hin
        rcases hin with hold | hnew
        · exact .inl hold
        · cases hnew
          exact .inr ⟨Nat.le_refl _, by simp [hmarks]⟩
      · exact .inl hin
    · intro m hlt
      refine .inl ⟨by rw [mark, mark, hmarks, List.getElem?_append_left hlt], fun p' hin => ?_⟩
      rw [hchannel]
      split
      · next hp =>
        rw [hp]
        exact List.mem_append_left _ hin
      · exact hin

theorem sent_of_placed (hn : q.Numbered) (h : (q.sendStop p).2 = .placed m) :
    (q.sendStop p).1.Sent p m := by
  obtain ⟨ha, rfl, hq⟩ := sendStop_eq_placed h
  have hchannel := channel_placed ha hq
  have hmarks : (q.sendStop p).1.marks = q.marks ++ [.waiting] := by rw [hq]
  constructor
  · simp [hmarks]
  · intro p' hin
    rw [hchannel] at hin
    split at hin
    · next hp => exact hp.symm
    · exact absurd (hn p' _ hin) (Nat.lt_irrefl _)
  · refine .inl ⟨by simp [mark, hmarks], ?_⟩
    rw [hchannel, if_pos rfl]
    exact List.mem_append_right _ (List.mem_singleton.2 rfl)

end SendStop

private theorem numbered_create {partitions : Nat} {limits : QueueLimits} {q : Queue}
    (h : create partitions limits = .ok q) : q.Numbered := by
  intro p m hm
  rw [channel_create h] at hm
  cases hm

end Queue

namespace Service

variable {s s' : Service} {e : Event} {requests : List RequestId} {coupons : List CouponId}
  {p i m : Nat}

theorem Move.onward (hmove : Move s e s') : s.queue.Onward s'.queue := by
  cases hmove with
  | queued _ _ hqueue => exact .enqueue hqueue
  | served ha hm => exact .serve ha hm
  | dismissed ha hm => exact .dismiss ha hm
  | stopSent => exact .sendStop ..
  | _ => exact .of_marks rfl (fun _ => rfl) fun _ _ => Iff.rfl

theorem Move.closed_of_closed (hmove : Move s e s') (h : s.queue.closed = true) :
    s'.queue.closed = true := by
  cases hmove with
  | queued _ _ hqueue => exact (Queue.closed_enqueue hqueue).trans h
  | served ha hm => exact (Queue.closed_serve ha hm).trans h
  | dismissed ha hm => exact (Queue.closed_dismiss ha hm).trans h
  | stopSent => exact (Queue.closed_sendStop ..).trans h
  | closed => rfl
  | _ => exact h

theorem Move.cancelled_of_cancelled (hmove : Move s e s') (h : s.cancelled = true) :
    s'.cancelled = true := by
  cases hmove with
  | cancelled => rfl
  | _ => exact h

theorem left_of_marker {marker : Nat} {rest : List Message}
    (ha : (s.queue.channel p).attended = true)
    (hm : (s.queue.channel p).messages = .stop marker :: rest) (minted : Except Refusal CouponId) :
    ((s.turn p minted).queue.channel p).attended = false := by
  rw [turn_of_marker ha hm]
  show ((s.queue.dismiss p marker).channel p).attended = false
  rw [Queue.channel_dismiss ha hm, if_pos rfl]

private theorem Move.stays_put (hmove : Move s e s') (hturn : e.isTurnOf p = false) {x : Message}
    (hplace : (s.queue.channel p).messages[i]? = some x) :
    (s'.queue.channel p).messages[i]? = some x := by
  cases hmove with
  | queued _ _ hqueue =>
    show (Queue.channel _ p).messages[i]? = _
    rw [Queue.channel_enqueue hqueue]
    split
    · next hp => exact Channel.getElem?_push (hp ▸ hplace)
    · exact hplace
  | served ha hm =>
    show ((s.queue.serve _ _).channel p).messages[i]? = _
    rw [Queue.channel_serve ha hm, if_neg (of_decide_eq_false hturn)]
    exact hplace
  | dismissed ha hm =>
    show ((s.queue.dismiss _ _).channel p).messages[i]? = _
    rw [Queue.channel_dismiss ha hm, if_neg (of_decide_eq_false hturn)]
    exact hplace
  | @stopSent p' =>
    show ((s.queue.sendStop p').1.channel p).messages[i]? = _
    rcases Queue.channel_sendStop s.queue p' p with h | h <;> rw [h]
    · exact hplace
    · exact Channel.getElem?_push hplace
  | _ => exact hplace

private theorem Move.marker_place (hmove : Move s e (s.step e)) (ha : (s.queue.channel p).attended = true)
    (hplace : (s.queue.channel p).messages[i]? = some (.stop m)) :
    ((s.step e).queue.channel p).attended = false ∨ (e.isTurnOf p).toNat ≤ i ∧
      ((s.step e).queue.channel p).messages[i - (e.isTurnOf p).toNat]? = some (.stop m) := by
  cases hturn : e.isTurnOf p with
  | true =>
    obtain ⟨minted, rfl⟩ := Event.eq_turn_of_isTurnOf hturn
    cases hm : (s.queue.channel p).messages with
    | nil =>
      rw [hm] at hplace
      cases hplace
    | cons first rest =>
      cases first with
      | stop marker => exact .inl (left_of_marker ha hm minted)
      | issue r =>
        rw [hm] at hplace
        cases i with
        | zero => cases hplace
        | succ i =>
          have hqueue : (s.turn p minted).queue = s.queue.serve p r := by
            simp only [turn, Office.turn, Queue.serve, Queue.dequeue_request ha hm]
          refine .inr ⟨Nat.le_add_left 1 i, ?_⟩
          show ((s.turn p minted).queue.channel p).messages[i]? = _
          rw [hqueue, Queue.channel_serve ha hm, if_pos rfl]
          exact hplace
  | false => exact .inr ⟨Nat.zero_le i, hmove.stays_put hturn hplace⟩

end Service

namespace Run

variable {run : Run} {p i m n : Nat}

variable (run) in
theorem numbered (n : Nat) : (run.after n).queue.Numbered := by
  apply always (P := fun s => s.queue.Numbered)
  · exact Queue.numbered_create (Service.create_eq_ok run.created).1
  · exact fun he hnumbered => hnumbered.onward (run.move he).onward

theorem left_of_le (hmn : m ≤ n) (h : ((run.after m).queue.channel p).attended = false) :
    ((run.after n).queue.channel p).attended = false :=
  along (P := fun s => (s.queue.channel p).attended = false) hmn h
    fun _ _ he => (run.move he).onward.left

private theorem sent_of_le {marker : Nat} (hmn : m ≤ n) (h : (run.after m).queue.Sent p marker) :
    (run.after n).queue.Sent p marker :=
  along (P := fun s => s.queue.Sent p marker) hmn h
    fun _ _ he hsent => hsent.onward (run.move he).onward

/-- A marker comes forward with each turn of its worker until the worker leaves. -/
private theorem marker_waits_or_left {marker : Nat} (hmn : m ≤ n)
    (hplace : ((run.after m).queue.channel p).messages[i]? = some (.stop marker)) :
    ((run.after n).queue.channel p).attended = false ∨ run.turns p m n ≤ i ∧
      ((run.after n).queue.channel p).messages[i - run.turns p m n]? = some (.stop marker) := by
  induction hmn with
  | refl => exact .inr ⟨by rw [turns_self]; exact Nat.zero_le i, by rw [turns_self]; exact hplace⟩
  | @step n hmn ih =>
    rcases ih with hleft | ⟨hle, hnow⟩
    · exact .inl (left_of_le (Nat.le_succ n) hleft)
    cases ha : ((run.after n).queue.channel p).attended with
    | false => exact .inl (left_of_le (Nat.le_succ n) ha)
    | true =>
      cases he : run.events[n]? with
      | none =>
        rw [turns_succ_of_none he, after_succ_of_none he]
        exact .inr ⟨hle, hnow⟩
      | some e =>
        have hmove := run.move he
        rw [after_succ he] at hmove
        rw [turns_succ hmn he, after_succ he]
        rcases hmove.marker_place ha hnow with hleft | ⟨hle', hnext⟩
        · exact .inl hleft
        · rw [Nat.sub_sub] at hnext
          exact .inr ⟨by omega, hnext⟩

/-- A worker that is told to stop has left when it has had more turns than there were messages before
the marker, and then the sender has heard of it. -/
theorem heard_of_turns {marker : Nat} (hmn : m < n) (he : run.events[m]? = some (.sendStop p))
    (hcancelled : (run.after m).cancelled = true)
    (hplaced : ((run.after m).queue.sendStop p).2 = .placed marker)
    (hturns : ((run.after m).queue.channel p).messages.length < run.turns p (m + 1) n) :
    (run.after n).queue.mark marker ≠ .waiting := by
  have hqueue : (run.after (m + 1)).queue = ((run.after m).queue.sendStop p).1 := by
    rw [after_succ he]
    simp only [Service.step, hcancelled, if_true]
  have hsent : (run.after (m + 1)).queue.Sent p marker := by
    rw [hqueue]
    exact Queue.sent_of_placed (run.numbered m) hplaced
  obtain ⟨ha, -, hq⟩ := Queue.sendStop_eq_placed hplaced
  have hplace : ((run.after (m + 1)).queue.channel p).messages[
      ((run.after m).queue.channel p).messages.length]? = some (.stop marker) := by
    rw [hqueue, Queue.channel_placed ha hq, if_pos rfl]
    exact List.getElem?_concat_length ..
  have hleft : ((run.after n).queue.channel p).attended = false := by
    rcases marker_waits_or_left hmn hplace with hleft | ⟨hle, -⟩
    · exact hleft
    · exact absurd hturns (Nat.not_lt.2 hle)
  rcases (sent_of_le hmn hsent).waits_or_heard with ⟨-, hin⟩ | ⟨hheard, -⟩
  · rw [run.staffed n p hleft] at hin
    cases hin
  · exact hheard

end Run
end CouponIssuance
