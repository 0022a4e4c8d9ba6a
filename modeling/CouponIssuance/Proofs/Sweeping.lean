import CouponIssuance.Proofs.RequestLife
import CouponIssuance.Proofs.Service.Answers
/-!
# Sweeping is invisible

A sweep takes the records that are not shown any more, and the tickets of requests without a record
that is shown. Neither is missed: whatever callers ask for later, they are answered as if there had
been no sweep.
-/
namespace CouponIssuance

namespace Service

variable {s : Service} {requests : List RequestId} {coupons : List CouponId} {id : RequestId}
  {e : StatusEntry}

private theorem Sound.held?_sweep (h : s.Sound requests coupons) :
    s.sweep.stores.status.held? id = some e ↔ s.stores.status.held? id = some e ∧
      ¬(e.record.state.isTerminal = true ∧
        ∃ t, e.resolved = some t ∧ t + s.stores.status.ttl < s.now) := by
  show (s.stores.status.purge s.now).1.held? id = some e ↔ _
  rw [StatusStore.held?_purge, Option.filter_eq_some_iff]
  refine and_congr_right fun hheld => ?_
  rw [Bool.not_eq_true', ← Bool.not_eq_true]
  apply not_congr
  obtain ⟨record, resolved⟩ := e
  cases resolved with
  | none => simp [StatusEntry.isExpired]
  | some t =>
    have hend := h.lasting id _ hheld rfl
    rw [StatusEntry.isExpired_iff]
    constructor
    · exact fun hlate => ⟨hend, t, rfl, hlate⟩
    · rintro ⟨-, t', ht, hlate⟩
      cases ht
      exact hlate

private theorem current_sweep {key : TicketKey} : s.sweep.stores.tickets.current key = some id ↔
    s.stores.tickets.current key = some id ∧ ∃ record, s.status id = .ok record := by
  show (s.stores.tickets.prune _).1.current key = some id ↔ _
  rw [TicketIndex.current_prune, Option.filter_eq_some_iff]
  refine and_congr_right fun _ => ?_
  have hget : (s.stores.status.purge s.now).1.get s.now id = s.stores.status.get s.now id :=
    congrArg (Option.map StatusEntry.record) (StatusStore.shown?_purge id)
  rw [StatusStore.contains, hget, Option.isSome_iff_exists]
  simp only [status_eq_ok_iff]

theorem Sound.sweep (h : s.Sound requests coupons) : s.sweep.Sound requests coupons := by
  have hswept := h.move .swept (by rintro _ ⟨⟩) (by rintro _ ⟨⟩)
  simpa [Event.request?, Event.coupon?] using hswept

end Service

namespace Run

/-- A sweep of a service makes no difference to what callers are told later: whatever happens, each
call is answered as if there had been no sweep, at once or after waiting, but for the number of
tracked requests. The sweep takes just the records that ended longer ago than records are kept, and
just the tickets of requests whose record is not shown, and so nothing of a request that has not
ended. -/
theorem sweep_unseen (run : Run) (n : Nat) :
    (∀ events later, Service.Fresh (run.requestNames n) (run.couponNames n) (events ++ later) →
      ((run.after n).follow events).SameAnswers ((run.after n).sweep.follow events) ∧
      ∀ size id asked,
        let s := (run.after n).follow events
        let t := (run.after n).sweep.follow events
        t.statusBy size id asked (t.schedule t.now later) =
          s.statusBy size id asked (s.schedule s.now later)) ∧
    (∀ id e, (run.after n).sweep.stores.status.held? id = some e ↔
      (run.after n).stores.status.held? id = some e ∧ ¬(e.record.state.isTerminal = true ∧
        ∃ t, e.resolved = some t ∧ t + run.settings.retention < (run.after n).now)) ∧
    (∀ key id, (run.after n).sweep.stores.tickets.current key = some id ↔
      (run.after n).stores.tickets.current key = some id ∧
        ∃ record, (run.after n).status id = .ok record) ∧
    ∀ id e, (run.after n).stores.status.held? id = some e →
      e.record.state = .pending ∨ e.record.state = .processing →
      (run.after n).sweep.stores.status.held? id = some e ∧
        ∀ key, (run.after n).stores.tickets.current key = some id →
          (run.after n).sweep.stores.tickets.current key = some id := by
  have hs := run.sound n
  refine ⟨?_, ?_, ?_, ?_⟩
  · intro events later hfresh
    obtain ⟨requests, coupons, htwin, hsound, hswept, hlater⟩ := hs.twin_sweep.follow hs hs.sweep hfresh
    exact ⟨htwin.sameAnswers, fun size id asked => htwin.statusBy hsound hswept hlater size id asked⟩
  · intro id e
    rw [hs.held?_sweep, run.ttl]
  · intro key id
    exact Service.current_sweep
  · intro id e hheld hlive
    have hopen : e.record.state.isTerminal = false := by
      rcases hlive with h | h <;> rw [h] <;> rfl
    refine ⟨hs.held?_sweep.2 ⟨hheld, fun hend => ?_⟩, fun key hticket => ?_⟩
    · rw [hopen] at hend
      cases hend.1
    · obtain ⟨p, r, hr, rfl, rfl⟩ := hs.waiting_of_held hheld hopen
      have hshown : (run.after n).stores.status.get (run.after n).now r.id = some r.record :=
        StatusStore.get_of_unresolved (hs.tracked.waiting hr).held
      exact Service.current_sweep.2 ⟨hticket, r.record, Service.status_eq_ok_iff.2 hshown⟩

/-- A request fails for want of a name, and its record is kept for too long. -/
def forgotten : Run :=
  small [.issue ⟨1⟩ ⟨1⟩ (.ok ⟨"a"⟩), .turn 0 (.error (.internal "no name")), .wait 3600001]
    (by decide) (by decide)

theorem sweep_unseen_forgotten :
    (∃ e, (forgotten.after 3).stores.status.held? ⟨"a"⟩ = some e ∧
      (forgotten.after 3).sweep.stores.status.held? ⟨"a"⟩ ≠ some e) ∧
    (forgotten.after 3).stores.tickets.current (⟨1⟩, ⟨1⟩) = some ⟨"a"⟩ ∧
    (forgotten.after 3).sweep.stores.tickets.current (⟨1⟩, ⟨1⟩) ≠ some ⟨"a"⟩ ∧
    ((forgotten.after 3).sweep.issue ⟨1⟩ ⟨1⟩ (.ok ⟨"b"⟩)).2 = .ok (.queued ⟨⟨"b"⟩, .pending, none⟩) ∧
    let t := (forgotten.after 3).sweep.follow [.issue ⟨1⟩ ⟨1⟩ (.ok ⟨"b"⟩)]
    t.statusBy 128 ⟨"b"⟩ (some 1000) (t.schedule t.now [.wait 10, .turn 0 (.ok ⟨"x"⟩)]) =
      (.ok ⟨⟨"b"⟩, ⟨1⟩, ⟨1⟩, .issued, some ⟨"x"⟩, none, 3600001, some 3600011⟩, 3600011) := by
  obtain ⟨hsame, hrecord, hticket, -⟩ := forgotten.sweep_unseen 3
  have hhidden : (forgotten.after 3).status ⟨"a"⟩ = .error (.requestNotFound ⟨"a"⟩) := by rfl
  have hissue := (hsame [] [] ⟨by decide, by decide⟩).1.issue ⟨1⟩ ⟨1⟩ (.ok ⟨"b"⟩)
  have hwait := (hsame [.issue ⟨1⟩ ⟨1⟩ (.ok ⟨"b"⟩)] [.wait 10, .turn 0 (.ok ⟨"x"⟩)]
    ⟨by decide, by decide⟩).2 128 ⟨"b"⟩ (some 1000)
  refine ⟨⟨_, by rfl, fun hheld => ?_⟩, by rfl, fun hheld => ?_, hissue.trans (by rfl),
    hwait.trans (by rfl)⟩
  · exact ((hrecord _ _).1 hheld).2 ⟨rfl, 0, rfl, by decide⟩
  · obtain ⟨-, record, hshown⟩ := (hticket _ _).1 hheld
    rw [hhidden] at hshown
    cases hshown

end Run
end CouponIssuance
