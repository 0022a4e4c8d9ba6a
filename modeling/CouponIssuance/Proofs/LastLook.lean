import Mathlib.Algebra.GroupWithZero.Nat
import CouponIssuance.Proofs.Status.Action
import CouponIssuance.Proofs.Status.Agreement
import CouponIssuance.Proofs.Status.Watching
/-!
# What a wait answers

A waiter answers what it saw when it looked last. It looks at the start and whenever it is woken, so if its
wait ends on a look, the answer is the record as it then is. If its time is up instead, the answer may be
out of date: a record that was put anew without an end, moved on to a state that is no end, or removed
has woken nobody.
-/
namespace CouponIssuance

/-- The time a schedule takes. -/
def StatusStore.elapsed (others : StatusStore.Schedule) : Millis :=
  (others.map Prod.fst).sum

/-- Whether an action may change the record of a request without making it terminal. -/
def StatusAction.Slips (id : RequestId) : StatusAction → Prop
  | .put record => record.request = id ∧ record.state.isTerminal = false
  | .advance request next => request = id ∧ next.isTerminal = false
  | .remove request => request = id
  | _ => False

namespace StatusStore

/-- None of the actions wakes who waits for the record of `id`. -/
def Quiet (id : RequestId) (s : StatusStore) (now : Millis) : Schedule → Prop
  | [] => True
  | (delay, action) :: rest =>
    s.wakes (now + delay) id action = false ∧ Quiet id (s.act (now + delay) action).1 (now + delay) rest

section Kept

variable {s : StatusStore} {now : Millis} {id : RequestId} {e : StatusEntry}

private theorem not_overwrites_of_quiet {a : StatusAction} (hslips : ¬ a.Slips id)
    (hquiet : s.wakes now id a = false) : ¬ a.Overwrites id := by
  cases a with
  | put record =>
    intro hid
    have hend : record.state.isTerminal = true := by
      simpa [StatusAction.Slips, show record.request = id from hid] using hslips
    have hwakes : s.wakes now id (.put record) = true := by
      simp [wakes, settled?, hend, show record.request = id from hid]
    rw [hwakes] at hquiet
    cases hquiet
  | remove removed => exact hslips
  | get | advance | resolve | purge | count => exact fun hnone => hnone

private theorem held?_act_of_quiet {a : StatusAction} (hslips : ¬ a.Slips id)
    (hquiet : s.wakes now id a = false) (h : s.held? id = some e) (hopen : e.resolved = none) :
    (s.act now a).1.held? id = some e := by
  rcases act_cases now h (not_overwrites_of_quiet hslips hquiet) with hkept | ⟨next, hmoved⟩ | hexpired
  · exact hkept
  · cases hend : next.record.state.isTerminal with
    | true =>
      rw [hmoved.wakes hend] at hquiet
      cases hquiet
    | false =>
      rw [hmoved.named hend] at hslips
      exact absurd ⟨rfl, hend⟩ hslips
  · rw [StatusEntry.isExpired_of_unresolved hopen] at hexpired
    cases hexpired

private theorem held?_follow_of_quiet {missed : Schedule} (hslips : ∀ step ∈ missed, ¬ step.2.Slips id)
    (hquiet : s.Quiet id now missed) (h : s.held? id = some e) (hopen : e.resolved = none) :
    (s.follow now missed).1.held? id = some e := by
  induction missed generalizing s now with
  | nil => exact h
  | cons step missed ih =>
    obtain ⟨delay, action⟩ := step
    obtain ⟨hfirst, hrest⟩ := List.forall_mem_cons.1 hslips
    exact ih hrest hquiet.2 (held?_act_of_quiet hfirst hquiet.1 h hopen)

theorem Lasting.act (h : s.Lasting) (now : Millis) (a : StatusAction) : (s.act now a).1.Lasting :=
  ((h.agree_self now).act a).1.lasting

theorem Lasting.follow (h : s.Lasting) (now : Millis) (others : Schedule) :
    (s.follow now others).1.Lasting := by
  induction others generalizing s now with
  | nil => exact h
  | cons step others ih => exact ih (h.act (now + step.1) step.2) (now + step.1)

theorem lasting_create (hash : RequestId → Nat) (shards : Nat) (ttl : Millis) :
    (create hash shards ttl).Lasting := by
  intro id e h
  rw [held?_create] at h
  cases h

theorem Lasting.held?_of_live (h : s.Lasting) (hheld : s.held? id = some e)
    (hlive : e.record.state.isTerminal = false) : s.held? id = some ⟨e.record, none⟩ := by
  obtain ⟨record, resolved⟩ := e
  cases resolved with
  | none => exact hheld
  | some instant =>
    have hended : record.state.isTerminal = true := h id _ hheld rfl
    rw [hended] at hlive
    cases hlive

theorem Lasting.unresolved_of_get (h : s.Lasting) {record : StatusRecord}
    (hget : s.get now id = some record) (hlive : record.state.isTerminal = false) :
    s.held? id = some ⟨record, none⟩ := by
  obtain ⟨e, hheld, -, rfl⟩ := get_eq_some_iff.1 hget
  exact h.held?_of_live hheld hlive

end Kept

section LastLook

variable {id : RequestId} {deadline now : Millis} {s : StatusStore} {seen : StatusRecord}
  {woken : Bool} {others : Schedule} {waited : Waited}

/-- The others have done `missed`, which woke nobody, when the time was up, and had `rest` still to do. -/
structure Overslept (id : RequestId) (deadline : Millis) (s : StatusStore) (now : Millis)
    (others missed rest : Schedule) : Prop where
  split : others = missed ++ rest
  since : now + elapsed missed ≤ deadline
  before : ∀ delay action later, rest = (delay, action) :: later →
    deadline ≤ now + elapsed missed + delay
  quiet : s.Quiet id now missed

/-- Where a wait stands in the schedule of the others: it looked last after `first`, and it ended after
`missed`, when `rest` was still to come. What it answers it read at the last look, and what was missed
has not woken it. Unless the last look ended the wait, its time was up; and unless its time was up, it
ended since the record had ended or was gone. -/
structure LastLook (id : RequestId) (deadline : Millis) (s : StatusStore) (now : Millis)
    (others : Schedule) (waited : Waited) (first missed rest : Schedule) : Prop where
  split : others = first ++ missed ++ rest
  since : now + elapsed (first ++ missed) ≤ waited.endedAt
  before : ∀ delay action later, rest = (delay, action) :: later →
    waited.endedAt ≤ now + elapsed (first ++ missed) + delay
  bounded : waited.endedAt ≤ deadline
  read : waited.record = (s.follow now first).1.get (now + elapsed first) id
  quiet : (s.follow now first).1.Quiet id (now + elapsed first) missed
  ended : missed = [] ∧ waited.endedAt = now + elapsed first ∨
    waited.endedAt = deadline ∧
      ∃ record, waited.record = some record ∧ record.state.isTerminal = false
  early : waited.endedAt < deadline →
    ∀ record, waited.record = some record → record.state.isTerminal = true

private theorem elapsed_cons (now delay : Millis) (action : StatusAction) (rest : Schedule) :
    now + elapsed ((delay, action) :: rest) = now + delay + elapsed rest := by
  simp [elapsed, Nat.add_assoc]

theorem Overslept.cons {delay : Millis} {action : StatusAction} {missed rest : Schedule}
    (h : Overslept id deadline (s.act (now + delay) action).1 (now + delay) others missed rest)
    (hquiet : s.wakes (now + delay) id action = false) :
    Overslept id deadline s now ((delay, action) :: others) ((delay, action) :: missed) rest where
  split := congrArg _ h.split
  since := by rw [elapsed_cons]; exact h.since
  before := by rw [elapsed_cons]; exact h.before
  quiet := ⟨hquiet, h.quiet⟩

theorem LastLook.cons {delay : Millis} {action : StatusAction} {first missed rest : Schedule}
    (h : LastLook id deadline (s.act (now + delay) action).1 (now + delay) others waited first
      missed rest) :
    LastLook id deadline s now ((delay, action) :: others) waited ((delay, action) :: first) missed
      rest where
  split := congrArg _ h.split
  since := by rw [List.cons_append, elapsed_cons]; exact h.since
  before := by rw [List.cons_append, elapsed_cons]; exact h.before
  bounded := h.bounded
  read := by rw [elapsed_cons]; exact h.read
  quiet := by rw [elapsed_cons]; exact h.quiet
  ended := by rw [elapsed_cons]; exact h.ended
  early := h.early

private theorem Overslept.lastLook {missed rest : Schedule}
    (h : Overslept id deadline s now others missed rest) (hget : s.get now id = some seen)
    (hlive : seen.state.isTerminal = false) :
    LastLook id deadline s now others ⟨some seen, deadline⟩ [] missed rest where
  split := h.split
  since := h.since
  before := h.before
  bounded := Nat.le_refl deadline
  read := hget.symm
  quiet := h.quiet
  ended := .inr ⟨rfl, seen, rfl, hlive⟩
  early := fun hearly => absurd hearly (Nat.lt_irrefl deadline)

private theorem lastLook_at_once (hnow : now ≤ deadline)
    (hend : ∀ record, s.get now id = some record →
      record.state.isTerminal = true ∨ now = deadline) :
    LastLook id deadline s now others ⟨s.get now id, now⟩ [] [] others where
  split := rfl
  since := Nat.le_refl now
  before := fun delay _ _ _ => Nat.le_add_right now delay
  bounded := hnow
  read := rfl
  quiet := trivial
  ended := .inl ⟨rfl, rfl⟩
  early := fun hearly record hrecord => (hend record hrecord).resolve_right (Nat.ne_of_lt hearly)

/-- A waiter sleeps until its time is up, or looks on its way. -/
private theorem Watching.lastLook (h : Watching id deadline s now seen woken others waited) :
    (woken = false ∧ waited = ⟨some seen, deadline⟩ ∧
      ∃ missed rest, Overslept id deadline s now others missed rest) ∨
    ∃ first missed rest, LastLook id deadline s now others waited first missed rest := by
  induction h with
  | acted _ _ _ ih =>
    rcases ih with ⟨hasleep, hwaited, missed, rest, hslept⟩ | ⟨first, missed, rest, hlook⟩
    · -- if it is still asleep afterwards, the action has not woken it
      obtain ⟨hasleep, hquiet⟩ := Bool.or_eq_false_iff.1 hasleep
      exact .inl ⟨hasleep, hwaited, _, rest, hslept.cons hquiet⟩
    · exact .inr ⟨_, missed, rest, hlook.cons⟩
  | looked hget hlive _ _ ih =>
    rcases ih with ⟨-, rfl, missed, rest, hslept⟩ | hlater
    · -- it does not look again, so this was its last look
      exact .inr ⟨[], missed, rest, hslept.lastLook hget hlive⟩
    · exact .inr hlater
  | ended hend hnow => exact .inr ⟨[], [], _, lastLook_at_once hnow hend⟩
  | @late s now seen rest hnow hnext =>
    exact .inl ⟨rfl, rfl, [], rest, rfl, hnow, hnext, trivial⟩

private theorem Waits.lastLook {most : Millis} (h : Waits id s now most others waited) :
    ∃ first missed rest, LastLook id (now + most) s now others waited first missed rest := by
  cases h with
  | atOnce hend =>
    refine ⟨[], [], others, lastLook_at_once (Nat.le_add_right now most) fun record hrecord => ?_⟩
    exact .inl (hend record hrecord)
  | longer hget hlive hwatching =>
    rcases hwatching.lastLook with ⟨-, hwaited, missed, rest, hslept⟩ | hlater
    · exact ⟨[], missed, rest, hwaited ▸ hslept.lastLook hget hlive⟩
    · exact hlater

theorem follow_append (s : StatusStore) (now : Millis) (first later : Schedule) :
    (s.follow now (first ++ later)).1 =
      ((s.follow now first).1.follow (now + elapsed first) later).1 := by
  induction first generalizing s now with
  | nil => rfl
  | cons step first ih =>
    obtain ⟨delay, action⟩ := step
    rw [elapsed_cons]
    exact ih (s.act (now + delay) action).1 (now + delay)

/-- An answer is up to date unless the wait has missed that something was done to the record. -/
theorem LastLook.current {first missed rest : Schedule} (hs : s.Lasting)
    (h : LastLook id deadline s now others waited first missed rest)
    (hslips : ∀ step ∈ missed, ¬ step.2.Slips id) :
    waited.record = (s.follow now (first ++ missed)).1.get waited.endedAt id := by
  rcases h.ended with ⟨rfl, hended⟩ | ⟨-, record, hrecord, hlive⟩
  · rw [List.append_nil, hended]
    exact h.read
  · have hheld := (hs.follow now first).unresolved_of_get (h.read.symm.trans hrecord) hlive
    have hkept := held?_follow_of_quiet hslips h.quiet hheld rfl
    rw [hrecord, follow_append, get_of_unresolved hkept]

private theorem LastLook.missed_nil {first missed rest : Schedule}
    (h : LastLook id deadline s now others waited first missed rest)
    (hearly : waited.endedAt < deadline) : missed = [] := by
  rcases h.ended with ⟨hnone, -⟩ | ⟨hdeadline, -⟩
  · exact hnone
  · exact absurd hdeadline (Nat.ne_of_lt hearly)

/-- Take any store that calls have made of an empty one, and whatever others do while someone waits for the
record of `id`. However the wait goes, its answer is what `get` answered at the last look: at the start,
or when a record in the shard had become terminal since the look before. If the wait ends before its time
is up, the answer is the record as `get` answers it then. It is so as well if since the last look no
record without an end was put for `id`, and that of `id` was neither moved on to a state that is no end
nor removed. -/
theorem await_reads_last_look (hash : RequestId → Nat) (shards : Nat) (ttl start : Millis)
    (earlier : Schedule) (id : RequestId) (now most : Millis) (others : Schedule) :
    let s := ((create hash shards ttl).follow start earlier).1
    (∀ size, Waits id s now most others (s.await size id now most others)) ∧
    ∀ waited, Waits id s now most others waited →
      ∃ first missed rest, LastLook id (now + most) s now others waited first missed rest ∧
        (waited.endedAt < now + most ∨ (∀ step ∈ missed, ¬ step.2.Slips id) →
          waited.record = (s.follow now (first ++ missed)).1.get waited.endedAt id) := by
  intro s
  refine ⟨fun size => s.await_waits size id now most others, fun waited hwaits => ?_⟩
  obtain ⟨first, missed, rest, hlook⟩ := hwaits.lastLook
  have hs : s.Lasting := (lasting_create hash shards ttl).follow start earlier
  refine ⟨first, missed, rest, hlook, fun h => hlook.current hs ?_⟩
  rcases h with hearly | hslips
  · rw [hlook.missed_nil hearly]
    exact fun step hstep => absurd hstep List.not_mem_nil
  · exact hslips

theorem await_reads_last_look_wokenTwice :
    let s := ((create (fun _ => 0) 1 1000).follow 0 [(0, .put (.pending ⟨"a"⟩ ⟨1⟩ ⟨7⟩ 0)),
      (0, .put (.pending ⟨"b"⟩ ⟨1⟩ ⟨8⟩ 0))]).1
    let others : Schedule := [(5, .resolve ⟨"b"⟩ .soldOut), (5, .advance ⟨"a"⟩ .processing),
      (10, .resolve ⟨"a"⟩ .soldOut), (10, .remove ⟨"a"⟩)]
    let waited := s.await 128 ⟨"a"⟩ 0 50 others
    waited.endedAt = 20 ∧
    ∃ first missed rest, LastLook ⟨"a"⟩ 50 s 0 others waited first missed rest ∧
      waited.record = (s.follow 0 (first ++ missed)).1.get waited.endedAt ⟨"a"⟩ := by
  intro s others waited
  have hearly : waited.endedAt = 20 := by rfl
  obtain ⟨hwaits, hlooks⟩ := await_reads_last_look (fun _ => 0) 1 1000 0
    [(0, .put (.pending ⟨"a"⟩ ⟨1⟩ ⟨7⟩ 0)), (0, .put (.pending ⟨"b"⟩ ⟨1⟩ ⟨8⟩ 0))]
    ⟨"a"⟩ 0 50 others
  obtain ⟨first, missed, rest, hlook, hcurrent⟩ := hlooks waited (hwaits 128)
  exact ⟨hearly, first, missed, rest, hlook, hcurrent (.inl (by decide : 20 < 50))⟩

end LastLook

/-- A wait that nobody wakes answers the record as it stood at the start, though it has been moved on, or has
been removed, well before the time is up. -/
theorem await_out_of_date :
    let s := (create (fun _ => 0) 1 1000).put 0 (.pending ⟨"7"⟩ ⟨1⟩ ⟨2⟩ 5)
    let moved : Schedule := [(5, .advance ⟨"7"⟩ .processing)]
    let removed : Schedule := [(5, .remove ⟨"7"⟩)]
    s.await 128 ⟨"7"⟩ 0 50 moved = ⟨some (.pending ⟨"7"⟩ ⟨1⟩ ⟨2⟩ 5), 50⟩ ∧
    (s.follow 0 moved).1.get 50 ⟨"7"⟩ ≠ some (.pending ⟨"7"⟩ ⟨1⟩ ⟨2⟩ 5) ∧
    s.await 128 ⟨"7"⟩ 0 50 removed = ⟨some (.pending ⟨"7"⟩ ⟨1⟩ ⟨2⟩ 5), 50⟩ ∧
    (s.follow 0 removed).1.get 50 ⟨"7"⟩ = none := by
  intro s moved removed
  exact ⟨by rfl, by decide, by rfl, by rfl⟩

end StatusStore
end CouponIssuance
