import CouponIssuance.Proofs.Service.Admission
import CouponIssuance.Proofs.Service.Serving
/-!
# One live ticket

A record that has not ended is that of a request that waits, and the ticket of its requester names
it. A request waits until a worker takes it, and then its end can be seen. So who was told to wait
and has seen no end yet is told the same again.
-/
namespace CouponIssuance.Run

variable {run : Run} {m n : Nat}

theorem waits_until_resolved (hmn : m ≤ n) {p : Nat} {r : IssuanceRequest}
    (hr : r ∈ (run.after m).queue.requests p)
    (hunresolved : ∀ i, m < i → i ≤ n → ∀ record, (run.after i).status r.id = .ok record →
      record.state.isTerminal = false) :
    r ∈ (run.after n).queue.requests p := by
  apply along (P := fun s => r ∈ s.queue.requests p) hmn hr
  intro k e hmk hkn he hbefore
  rcases (run.move he).waits (run.sound k) hbefore with hnext | ⟨resolution, hended⟩
  · exact hnext
  · have hlive := hunresolved (k + 1) (Nat.lt_succ_of_le hmk) hkn _ hended
    rw [StatusRecord.resolved_state, Resolution.isTerminal_state] at hlive
    cases hlive

variable (run) in
/-- In every state of a run, the ticket of a requester and a campaign names the one record of
theirs that is pending or processing, if there is one. So who was told to wait, and whose request
has not been seen to end since, is told the same when asking again while the campaign is open, and
nothing at all changes. -/
theorem one_live_ticket (n : Nat) :
    (∀ id e, (run.after n).stores.status.held? id = some e →
      e.record.state = .pending ∨ e.record.state = .processing →
      (run.after n).stores.tickets.current e.record.key = some id) ∧
    (∀ id id' e e', (run.after n).stores.status.held? id = some e →
      (run.after n).stores.status.held? id' = some e' →
      e.record.state = .pending ∨ e.record.state = .processing →
      e'.record.state = .pending ∨ e'.record.state = .processing →
      e.record.key = e'.record.key → id = id') ∧
    ∀ m o c minted t, m < n → run.events[m]? = some (.issue o c minted) →
      ((run.after m).issue o c minted).2 = .ok (.queued t) →
      (∀ i, m < i → i ≤ n → ∀ record, (run.after i).status t.request = .ok record →
        record.state.isTerminal = false) →
      (run.after n).Admits c → ∀ minted',
      (run.after n).issue o c minted' = (run.after n, .ok (.queued t)) := by
  have hticket : ∀ id e, (run.after n).stores.status.held? id = some e →
      e.record.state = .pending ∨ e.record.state = .processing →
      (run.after n).stores.tickets.current e.record.key = some id := by
    intro id e he hlive
    have hopen : e.record.state.isTerminal = false := by
      rcases hlive with h | h <;> rw [h] <;> rfl
    obtain ⟨p, r, hr, rfl, rfl⟩ := (run.sound n).waiting_of_held he hopen
    exact ((run.sound n).tracked.waiting hr).ticket
  refine ⟨hticket, ?_, ?_⟩
  · intro id id' e e' he he' hlive hlive' hkey
    have hnamed := hticket id e he hlive
    rw [hkey, hticket id' e' he' hlive'] at hnamed
    exact (Option.some.inj hnamed).symm
  · intro m o c minted t hmn he hqueued hunresolved hadmits minted'
    obtain ⟨p, r, hr, hkey, rfl⟩ := (run.sound m).queued_waits hqueued
    obtain ⟨rfl, rfl⟩ := Prod.mk.inj hkey
    have hafter : r ∈ (run.after (m + 1)).queue.requests p := by
      rw [after_succ he]
      exact hr
    have hstill := waits_until_resolved hmn hafter fun i hi hn => hunresolved i (by omega) hn
    exact (run.sound n).issue_of_waiting hstill hadmits minted'

/-- A request waits while another comes in, an hour passes and the sweeper runs twice. -/
def heldUp : Run :=
  small [.issue ⟨1⟩ ⟨1⟩ (.ok ⟨"a"⟩), .sweep, .issue ⟨2⟩ ⟨1⟩ (.ok ⟨"b"⟩), .wait 3600001, .sweep]
    (by decide) (by decide)

theorem one_live_ticket_heldUp :
    (heldUp.after 5).stores.tickets.current (⟨1⟩, ⟨1⟩) = some ⟨"a"⟩ ∧
    (heldUp.after 5).issue ⟨1⟩ ⟨1⟩ (.ok ⟨"c"⟩) =
      (heldUp.after 5, .ok (.queued ⟨⟨"a"⟩, .pending, none⟩)) := by
  have hadmits : (heldUp.after 5).Admits ⟨1⟩ := ⟨by rfl, _, by rfl, by rfl⟩
  obtain ⟨hticket, -, hsame⟩ := heldUp.one_live_ticket 5
  refine ⟨hticket ⟨"a"⟩ ⟨.pending ⟨"a"⟩ ⟨1⟩ ⟨1⟩ 0, none⟩ (by rfl) (.inl rfl), ?_⟩
  refine hsame 0 ⟨1⟩ ⟨1⟩ (.ok ⟨"a"⟩) ⟨⟨"a"⟩, .pending, none⟩ (by decide) (by rfl) (by rfl) ?_ hadmits _
  intro i hi hn record hrecord
  have hpending : (heldUp.after i).status ⟨"a"⟩ = .ok (.pending ⟨"a"⟩ ⟨1⟩ ⟨1⟩ 0) := by
    match i, hi, hn with
    | 1, _, _ => rfl
    | 2, _, _ => rfl
    | 3, _, _ => rfl
    | 4, _, _ => rfl
    | 5, _, _ => rfl
  rw [hpending] at hrecord
  cases hrecord
  rfl

end CouponIssuance.Run
