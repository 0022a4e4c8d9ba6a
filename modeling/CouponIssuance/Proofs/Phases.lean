import CouponIssuance.Proofs.Stopping
import CouponIssuance.Shutdown
/-!
# The phases of a shutdown

A shutdown goes from phase to phase in a run while callers call, workers work and time passes. From phase to
phase it is known what has been done: when admission has ended, when work has been cancelled, and which
workers have been told to stop.
-/
namespace CouponIssuance

namespace Phase

/-- Admission has ended. -/
def Closed : Phase → Prop
  | .begun => False
  | _ => True

/-- Work has been cancelled. -/
def Cancelled : Phase → Prop
  | .begun | .draining .. | .cancelling => False
  | _ => True

/-- Which workers have been told to stop by then: a worker is accounted for as lost, or stands with a marker
that was sent to it. -/
def Heeded (q : Queue) : Phase → Prop
  | .telling p _ told lost => (∀ t ∈ told, q.Sent t.1 t.2) ∧
    ∀ i, i < p → i ∈ lost ∨ ∃ marker, (i, marker) ∈ told
  | .hearing _ told lost => (∀ t ∈ told, q.Sent t.1 t.2) ∧
    ∀ i, (q.channel i).attended = true → i ∈ lost ∨ ∃ marker, (i, marker) ∈ told
  | .finished lost => ∀ i, (q.channel i).attended = true → i ∈ lost
  | _ => True

theorem Heeded.onward {phase : Phase} {q q' : Queue} (h : phase.Heeded q) (ho : q.Onward q') :
    phase.Heeded q' := by
  have hattended {i : Nat} (hi : (q'.channel i).attended = true) : (q.channel i).attended = true := by
    cases ha : (q.channel i).attended with
    | true => rfl
    | false => exact (ho.left ha).symm.trans hi
  cases phase with
  | begun | draining | cancelling => trivial
  | telling => exact ⟨fun t ht => (h.1 t ht).onward ho, h.2⟩
  | hearing => exact ⟨fun t ht => (h.1 t ht).onward ho, fun i hi => h.2 i (hattended hi)⟩
  | finished => exact fun i hi => h i (hattended hi)

end Phase

namespace Service

/-- What a step of a shutdown comes to. -/
inductive Stop (s : Service) : Phase → Service → Phase → Prop
  | closed : Stop s .begun s.close
      (.draining (s.now + s.settings.shutdownTimeoutSecs.toNat * 1000) s.now)
  | drained {deadline check} : Stop s (.draining deadline check) s .cancelling
  | checked {deadline check} (hcheck : check ≤ s.now) (hbefore : s.now < deadline) :
      Stop s (.draining deadline check) s (.draining deadline (s.now + Phase.checkPeriod))
  | cancelled : Stop s .cancelling s.cancel (.telling 0 (s.now + Phase.patience) [] [])
  | told {p deadline told lost marker} (hp : p < s.queue.partitions)
      (hplaced : (s.queue.sendStop p).2 = .placed marker) :
      Stop s (.telling p deadline told lost) { s with queue := (s.queue.sendStop p).1 }
        (.telling (p + 1) (s.now + Phase.patience) (told ++ [(p, marker)]) lost)
  | lost {p deadline told lost} (hp : p < s.queue.partitions)
      (hnot : (s.queue.channel p).attended = false ∨ deadline ≤ s.now) :
      Stop s (.telling p deadline told lost) s
        (.telling (p + 1) (s.now + Phase.patience) told (lost ++ [p]))
  | toldAll {p deadline told lost} (hp : s.queue.partitions ≤ p) :
      Stop s (.telling p deadline told lost) s (.hearing (s.now + Phase.patience) told lost)
  | heard {deadline told lost} (hend : (∀ t ∈ told, s.queue.mark t.2 ≠ .waiting) ∨ deadline ≤ s.now) :
      Stop s (.hearing deadline told lost) s
        (.finished (lost ++ (told.filter fun t => s.queue.mark t.2 ≠ .acknowledged).map Prod.fst))

variable {s s' : Service} {phase next : Phase}

theorem stop_spec (h : s.stop phase = some (s', next)) : s.Stop phase s' next := by
  cases phase with
  | begun | cancelling =>
    cases h
    constructor
  | draining deadline check =>
    simp only [stop] at h
    split at h
    · cases h
      exact .drained
    · next hgoes =>
      split at h
      · next hcheck =>
        cases h
        refine .checked hcheck (Nat.lt_of_not_le fun hover => hgoes ?_)
        simp [hover]
      · cases h
  | telling p deadline told lost =>
    simp only [stop] at h
    split at h
    · next hp =>
      cases hsent : s.queue.sendStop p with
      | mk queue sent =>
        rw [hsent] at h
        cases sent with
        | placed marker =>
          cases h
          have htold : s.Stop (.telling p deadline told lost) _ _ :=
            .told hp (congrArg Prod.snd hsent)
          rwa [hsent] at htold
        | refused why =>
          cases h
          exact .lost hp (.inl (Queue.attended_of_sendStop_eq_refused (congrArg Prod.snd hsent)))
        | blocked =>
          dsimp only at h
          split at h
          · next hover =>
            cases h
            exact .lost hp (.inr hover)
          · cases h
    · next hp =>
      cases h
      exact .toldAll (Nat.le_of_not_lt hp)
  | hearing deadline told lost =>
    simp only [stop] at h
    split at h
    · next hend =>
      cases h
      exact .heard (by simpa using hend)
    · cases h
  | finished lost => cases h

/-- A step of a shutdown does nothing or is one of its events, which are never out of order. -/
theorem Stop.event (h : s.Stop phase s' next) (hclosed : phase.Closed → s.queue.closed = true)
    (hcancelled : phase.Cancelled → s.cancelled = true) :
    s' = s ∨ ∃ e, (e = .close ∨ e = .cancel ∨ ∃ p, e = .sendStop p) ∧ s.step e = s' := by
  cases h with
  | closed => exact .inr ⟨.close, .inl rfl, rfl⟩
  | cancelled => exact .inr ⟨.cancel, .inr (.inl rfl), if_pos (hclosed trivial)⟩
  | @told p => exact .inr ⟨.sendStop p, .inr (.inr ⟨p, rfl⟩), if_pos (hcancelled trivial)⟩
  | drained | checked | lost | toldAll | heard => exact .inl rfl

private theorem Stop.closed_after (h : s.Stop phase s' next) (hclosed : phase.Closed → s.queue.closed = true) :
    s'.queue.closed = true := by
  cases h with
  | closed => rfl
  | told => exact (Queue.closed_sendStop ..).trans (hclosed trivial)
  | drained | checked | cancelled | lost | toldAll | heard => exact hclosed trivial

private theorem Stop.cancelled_after (h : s.Stop phase s' next)
    (hcancelled : phase.Cancelled → s.cancelled = true) (hnext : next.Cancelled) :
    s'.cancelled = true := by
  cases h with
  | cancelled => rfl
  | told | lost | toldAll | heard => exact hcancelled trivial
  | closed | drained | checked => cases hnext

private theorem Stop.heeded (h : s.Stop phase s' next) (hn : s.queue.Numbered) (hphase : phase.Heeded s.queue) :
    next.Heeded s'.queue := by
  cases h with
  | closed | drained | checked => trivial
  | cancelled => exact ⟨fun t ht => absurd ht List.not_mem_nil, fun i hi => absurd hi (Nat.not_lt_zero i)⟩
  | @told p deadline told lost marker hp hplaced =>
    refine ⟨fun t ht => ?_, fun i hi => ?_⟩
    · rcases List.mem_append.1 ht with hold | hnew
      · exact (hphase.1 t hold).onward (.sendStop ..)
      · rw [List.mem_singleton.1 hnew]
        exact Queue.sent_of_placed hn hplaced
    · rcases Nat.lt_succ_iff_lt_or_eq.1 hi with hbefore | rfl
      · rcases hphase.2 i hbefore with hlost | ⟨marker', hmarker⟩
        · exact .inl hlost
        · exact .inr ⟨marker', List.mem_append_left _ hmarker⟩
      · exact .inr ⟨marker, List.mem_append_right _ (List.mem_singleton.2 rfl)⟩
  | @lost p =>
    refine ⟨hphase.1, fun i hi => ?_⟩
    rcases Nat.lt_succ_iff_lt_or_eq.1 hi with hbefore | rfl
    · exact (hphase.2 i hbefore).imp_left (List.mem_append_left _)
    · exact .inl (List.mem_append_right _ (List.mem_singleton.2 rfl))
  | toldAll hp =>
    exact ⟨hphase.1, fun i hi => hphase.2 i (Nat.lt_of_lt_of_le (Queue.lt_partitions_of_attended hi) hp)⟩
  | @heard deadline told lost =>
    intro i hi
    rcases hphase.2 i hi with hlost | ⟨marker, hmarker⟩
    · exact List.mem_append_left _ hlost
    · -- a worker that has acknowledged its marker has left
      refine List.mem_append_right _ (List.mem_map.2 ⟨(i, marker), List.mem_filter.2 ⟨hmarker, ?_⟩, rfl⟩)
      rcases (hphase.1 _ hmarker).waits_or_heard with ⟨hwaits, -⟩ | ⟨-, hleft⟩
      · simp [hwaits]
      · rw [hi] at hleft
        cases hleft

end Service

namespace Run

/-- How far a shutdown has come that began after `n` events of a run. Its own steps are those of `stop`.
Between two of them anything else may happen. -/
inductive Stops (run : Run) (n : Nat) : Nat → Phase → Prop
  | begun : Stops run n n .begun
  | others {m phase} (h : Stops run n m phase) : Stops run n (m + 1) phase
  | own {m phase next k} (h : Stops run n m phase) (hk : k = m ∨ k = m + 1)
      (hstop : (run.after m).stop phase = some (run.after k, next)) : Stops run n k next

variable {run run' : Run} {n m k : Nat} {phase next : Phase}

theorem closed_of_le (hmk : m ≤ k) (h : (run.after m).queue.closed = true) :
    (run.after k).queue.closed = true :=
  along (P := fun s => s.queue.closed = true) hmk h fun _ _ he => (run.move he).closed_of_closed

theorem cancelled_of_le (hmk : m ≤ k) (h : (run.after m).cancelled = true) :
    (run.after k).cancelled = true :=
  along (P := fun s => s.cancelled = true) hmk h fun _ _ he => (run.move he).cancelled_of_cancelled

namespace Stops

theorem stay (h : run.Stops n m phase) (hmk : m ≤ k) : run.Stops n k phase := by
  induction hmk with
  | refl => exact h
  | step _ ih => exact ih.others

/-- What has happened so far does not depend on what happens later. -/
theorem congr (h : run.Stops n m phase) (hsame : ∀ i, i ≤ m → run'.after i = run.after i) :
    run'.Stops n m phase := by
  induction h with
  | begun => exact .begun
  | others _ ih => exact .others (ih fun i hi => hsame i (Nat.le_succ_of_le hi))
  | @own m phase next k _ hk hstop ih =>
    have hmk : m ≤ k := by rcases hk with rfl | rfl <;> simp
    refine .own (ih fun i hi => hsame i (Nat.le_trans hi hmk)) hk ?_
    rw [hsame m hmk, hsame k (Nat.le_refl k)]
    exact hstop

theorem closed (h : run.Stops n m phase) (hphase : phase.Closed) :
    (run.after m).queue.closed = true := by
  induction h with
  | begun => cases hphase
  | others _ ih => exact closed_of_le (Nat.le_succ _) (ih hphase)
  | own _ _ hstop ih => exact (Service.stop_spec hstop).closed_after ih

theorem cancelled (h : run.Stops n m phase) (hphase : phase.Cancelled) :
    (run.after m).cancelled = true := by
  induction h with
  | begun => cases hphase
  | others _ ih => exact cancelled_of_le (Nat.le_succ _) (ih hphase)
  | own _ _ hstop ih => exact (Service.stop_spec hstop).cancelled_after ih hphase

private theorem heeded (h : run.Stops n m phase) : phase.Heeded (run.after m).queue := by
  induction h with
  | begun => trivial
  | @others m phase _ ih =>
    exact along (P := fun s => phase.Heeded s.queue) (Nat.le_succ m) ih
      fun _ _ he hheeded => hheeded.onward (run.move he).onward
  | own _ _ hstop ih => exact (Service.stop_spec hstop).heeded (run.numbered _) ih

/-- A shutdown that is over and has lost no worker has heard of all. -/
theorem deserted (h : run.Stops n m (.finished [])) (hmk : m ≤ k) : (run.after k).queue.Deserted := by
  intro p
  apply left_of_le hmk
  cases ha : ((run.after m).queue.channel p).attended with
  | false => rfl
  | true => exact absurd (h.heeded p ha) List.not_mem_nil

end Stops

end Run
end CouponIssuance
