import CouponIssuance.Proofs.Server.Waiting
/-!
# No end is missed

A waiter whose record becomes terminal before its time is up is told so at that very instant, however its
steps and those of others interleave. It signs up before it reads; who makes the record terminal writes
before it announces that; and until the waiter has been told nobody can change a record that is terminal.
If the record does not become terminal in time, the waiter may be woken as often as others in the shard
become terminal: it goes on waiting until its time is up, and no longer.
-/
namespace CouponIssuance

private theorem StatusStore.await_endedAt_le (s : StatusStore) (size : Nat) (id : RequestId) (now most : Millis)
    (others : Schedule) : (s.await size id now most others).endedAt ≤ now + most := by
  obtain ⟨n, last, hsteps, hleft⟩ := Scene.yields_of_waits (s.await_waits size id now most others)
  exact Scene.endedAt_le (Nat.le_add_right now most) hsteps hleft

private theorem Service.statusBy_le (s : Service) (size : Nat) (id : RequestId) (asked : Option Millis)
    (others : StatusStore.Schedule) : (s.statusBy size id asked others).2 ≤
      s.now + min (asked.getD 0) s.settings.maxStatusWaitMs.toNat := by
  rcases asked with - | wait
  · rw [statusBy_of_unasked (.inl rfl)]
    exact Nat.le_add_right ..
  · rcases Nat.eq_zero_or_pos wait with rfl | hasked
    · rw [statusBy_of_unasked (.inr rfl)]
      exact Nat.le_add_right ..
    · rw [statusBy_of_asked hasked]
      exact StatusStore.await_endedAt_le ..

namespace StatusStore

/-- What a wait of at most `most` for a record tells, if others do this to the records meanwhile: the end
of the record at the instant at which it ends, or a record of the request that has not ended when the time
is up. -/
structure Heeds (id : RequestId) (s : StatusStore) (now most : Millis) (others : Schedule)
    (waited : Waited) : Prop where
  inTime : ∀ instant ending, s.endOf? id now others = some (instant, ending) → instant < now + most →
    waited = ⟨some ending, instant⟩
  tooLate : (∀ instant ending, s.endOf? id now others = some (instant, ending) →
    now + most < instant) → waited.endedAt = now + most ∧
      ∃ last, waited.record = some last ∧ last.request = id ∧ last.state.isTerminal = false

private theorem heeds_of_steps {s : StatusStore} {id : RequestId} {now most : Millis} {others : Schedule}
    {record : StatusRecord} {n : Nat} {last : Scene} {waited : Waited}
    (hheld : s.held? id = some ⟨record, none⟩) (hname : record.request = id)
    (hlive : record.state.isTerminal = false) (hkeeps : ∀ step ∈ others, ¬ step.2.Overwrites id)
    (hsteps : Scene.Steps id (now + most) n (.start s now others) last)
    (hleft : last.waiter = .left waited) : Heeds id s now most others waited := by
  rcases (Scene.open_start hheld hname hlive hkeeps).steps hsteps hleft with
    ⟨instant, ending, hends, hintime, hwaited⟩ | ⟨hlate, hexpired⟩
  · refine ⟨fun instant' ending' hends' _ => ?_, fun hlate => ?_⟩
    · cases hends.symm.trans hends'
      exact hwaited
    · exact absurd (hlate instant ending hends) (Nat.not_lt.2 hintime)
  · exact ⟨fun instant ending hends hintime => absurd hintime (Nat.not_lt.2 (hlate instant ending hends)),
      fun _ => hexpired⟩

/-- Take any store that calls have made of an empty one, and whatever others do while someone waits for a
record in it, to the record itself nothing but to move it on. In whatever order the steps of all come, the
wait ends within its time, and it tells the end of the record at the very instant at which it comes; if
none comes in time, it ends when the time is up, neither earlier nor later. Whatever the size of its rounds,
`await` is one such order, and it is what a caller of the service is told who asks for a status and asks
to wait; who does not ask to wait is told at once. A running server answers so while the workers and the
sweeper do to the records what they do. -/
theorem await_misses_no_end (hash : RequestId → Nat) (shards : Nat) (ttl start : Millis)
    (earlier : Schedule) (id : RequestId) (now most : Millis) (others : Schedule) :
    let s := ((create hash shards ttl).follow start earlier).1
    (∀ n last, Scene.Steps id (now + most) n (.start s now others) last →
      n ≤ 5 * others.length + most + 3 ∧
      ((∀ waited, last.waiter ≠ .left waited) → ∃ next, Scene.Step id (now + most) last next) ∧
      ∀ waited, last.waiter = .left waited → waited.endedAt ≤ now + most ∧
        ∀ e, s.held? id = some e → e.record.state.isTerminal = false →
          (∀ step ∈ others, ¬ step.2.Overwrites id) → Heeds id s now most others waited) ∧
    (∀ size, ∃ n last, Scene.Steps id (now + most) n (.start s now others) last ∧
      last.waiter = .left (s.await size id now most others)) ∧
    (∀ (service : Service) (size : Nat) (asked : Option Millis),
      (asked = none ∨ asked = some 0 →
        service.statusBy size id asked others = (service.status id, service.now)) ∧
      ∀ wait, asked = some wait → 0 < wait →
        let limit := min wait service.settings.maxStatusWaitMs.toNat
        let waited := service.stores.status.await size id service.now limit others
        service.statusBy size id asked others =
          (waited.record.elim (.error (.requestNotFound id)) .ok, waited.endedAt) ∧
        waited.endedAt ≤ service.now + limit) ∧
    ∀ (server : Server) (asked : Option UInt64), server.service.stores.status = s →
      (asked = none ∨ asked = some 0 →
        server.status id asked = (server, server.service.status id)) ∧
      (server.status id asked).1.service.now ≤ server.service.now +
        min (asked.getD 0).toNat server.service.settings.maxStatusWaitMs.toNat ∧
      ∃ events, server.Answers id asked events (server.status id asked) := by
  intro s
  have hs : s.Lasting := (lasting_create hash shards ttl).follow start earlier
  have hk : s.Keyed := (keyed_create hash shards ttl).follow start earlier
  refine ⟨?_, ?_, ?_, ?_⟩
  · intro n last hsteps
    refine ⟨?_, Scene.exists_step last, fun waited hleft =>
      ⟨Scene.endedAt_le (Nat.le_add_right now most) hsteps hleft, ?_⟩⟩
    · have hlength := hsteps.length_le
      rwa [Scene.size_start] at hlength
    · intro e hheld hlive hkeeps
      exact heeds_of_steps (hs.held?_of_live hheld hlive) (hk id e hheld) hlive hkeeps hsteps hleft
  · exact fun size => Scene.yields_of_waits (s.await_waits size id now most others)
  · intro service size asked
    refine ⟨Service.statusBy_of_unasked, ?_⟩
    rintro wait rfl hasked
    exact ⟨Service.statusBy_of_asked hasked, await_endedAt_le ..⟩
  · intro server asked hstore
    obtain ⟨events, hanswers⟩ := server.answers_status (hstore ▸ hs) (hstore ▸ hk) id asked
    refine ⟨server.status_of_unasked id, ?_, events, hanswers⟩
    have hle := server.service.statusBy_le 0 id (asked.map UInt64.toNat)
      (server.service.schedule server.service.now events)
    rw [hanswers.told] at hle
    rcases asked with - | wait <;> exact hle

/-- Two requests in one shard: the first is asked for, and the second ends before it. -/
def endsAfterAnother : Schedule :=
  [(5, .resolve ⟨"b"⟩ .soldOut), (5, .advance ⟨"a"⟩ .processing), (10, .resolve ⟨"a"⟩ .soldOut),
    (0, .purge)]

theorem await_misses_no_end_endsAfterAnother :
    let s := ((create (fun _ => 0) 1 1000).follow 0 [(0, .put (.pending ⟨"a"⟩ ⟨1⟩ ⟨7⟩ 0)),
      (0, .put (.pending ⟨"b"⟩ ⟨1⟩ ⟨8⟩ 0))]).1
    (∀ n last waited, Scene.Steps ⟨"a"⟩ 50 n (.start s 0 endsAfterAnother) last →
      last.waiter = .left waited →
      waited = ⟨some ((StatusRecord.pending ⟨"a"⟩ ⟨1⟩ ⟨7⟩ 0).resolved .soldOut 20), 20⟩) ∧
    s.await 128 ⟨"a"⟩ 0 50 endsAfterAnother =
      ⟨some ((StatusRecord.pending ⟨"a"⟩ ⟨1⟩ ⟨7⟩ 0).resolved .soldOut 20), 20⟩ ∧
    (s.await 128 ⟨"a"⟩ 0 19 endsAfterAnother).endedAt = 19 := by
  intro s
  have hkeeps : ∀ step ∈ endsAfterAnother, ¬ step.2.Overwrites ⟨"a"⟩ := by
    simp [endsAfterAnother, StatusAction.Overwrites]
  have hends : s.endOf? ⟨"a"⟩ 0 endsAfterAnother =
      some (20, (StatusRecord.pending ⟨"a"⟩ ⟨1⟩ ⟨7⟩ 0).resolved .soldOut 20) := by rfl
  have hwaits (most : Millis) := await_misses_no_end (fun _ => 0) 1 1000 0
    [(0, .put (.pending ⟨"a"⟩ ⟨1⟩ ⟨7⟩ 0)), (0, .put (.pending ⟨"b"⟩ ⟨1⟩ ⟨8⟩ 0))] ⟨"a"⟩ 0 most
    endsAfterAnother
  have hheeds (most : Millis) {n : Nat} {last : Scene} {waited : Waited}
      (hsteps : Scene.Steps ⟨"a"⟩ (0 + most) n (.start s 0 endsAfterAnother) last)
      (hleft : last.waiter = .left waited) : Heeds ⟨"a"⟩ s 0 most endsAfterAnother waited :=
    (((hwaits most).1 n last hsteps).2.2 waited hleft).2 ⟨.pending ⟨"a"⟩ ⟨1⟩ ⟨7⟩ 0, none⟩ (by rfl)
      (by rfl) hkeeps
  refine ⟨fun n last waited hsteps hleft => (hheeds 50 hsteps hleft).inTime _ _ hends (by decide), ?_, ?_⟩
  · obtain ⟨n, last, hsteps, hleft⟩ := (hwaits 50).2.1 128
    exact (hheeds 50 hsteps hleft).inTime _ _ hends (by decide)
  · obtain ⟨n, last, hsteps, hleft⟩ := (hwaits 19).2.1 128
    refine ((hheeds 19 hsteps hleft).tooLate fun instant ending hlater => ?_).1
    cases hends.symm.trans hlater
    decide

end StatusStore
end CouponIssuance
