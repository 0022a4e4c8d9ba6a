import CouponIssuance.Status.Store
import CouponIssuance.TicketIndex
import CouponIssuance.Proofs.Table.Writing
/-!
# Records and tickets through their views

What the operations of the status store and of the ticket index do to the entry of one request and
to the ticket of one requester.
-/
namespace CouponIssuance

theorem RequestState.eq_issued {s : RequestState} (hend : s.isTerminal = true)
    (hblocks : s.blocksReadmission = true) : s = .issued := by
  cases s with
  | issued => rfl
  | pending => cases hend
  | processing => cases hend
  | soldOut => cases hblocks
  | failed => cases hblocks

namespace Resolution

@[simp] theorem isTerminal_state (r : Resolution) : r.state.isTerminal = true := by
  cases r <;> rfl

private theorem canAdvanceTo_state {s : RequestState} (h : s.isTerminal = false) (r : Resolution) :
    s.canAdvanceTo r.state = true := by
  cases s <;> cases r <;> first | rfl | cases h

end Resolution

namespace StatusRecord

variable (r : StatusRecord) (resolution : Resolution) (now : Millis)

@[simp] theorem resolved_request : (r.resolved resolution now).request = r.request := by
  cases resolution <;> rfl

@[simp] theorem resolved_campaign : (r.resolved resolution now).campaign = r.campaign := by
  cases resolution <;> rfl

@[simp] theorem resolved_requester : (r.resolved resolution now).requester = r.requester := by
  cases resolution <;> rfl

@[simp] theorem resolved_state : (r.resolved resolution now).state = resolution.state := by
  cases resolution <;> rfl

@[simp] theorem resolved_requestedAt : (r.resolved resolution now).requestedAt = r.requestedAt := by
  cases resolution <;> rfl

@[simp] theorem resolved_resolvedAt : (r.resolved resolution now).resolvedAt = some now := by
  cases resolution <;> rfl

theorem resolved_of_state (state : RequestState) :
    ({ r with state := state } : StatusRecord).resolved resolution now = r.resolved resolution now := by
  cases resolution <;> rfl

end StatusRecord

namespace StatusEntry

theorem isExpired_of_unresolved {e : StatusEntry} (h : e.resolved = none) (ttl now : Millis) :
    e.isExpired ttl now = false := by
  simp [isExpired, h]

theorem isExpired_at_once (r : StatusRecord) (ttl now : Millis) :
    (⟨r, some now⟩ : StatusEntry).isExpired ttl now = false := by
  simp [isExpired]

theorem isExpired_iff {r : StatusRecord} {t ttl now : Millis} :
    (⟨r, some t⟩ : StatusEntry).isExpired ttl now = true ↔ t + ttl < now := by
  rw [isExpired, Option.any_some, decide_eq_true_eq]
  exact Nat.lt_sub_iff_add_lt'

theorem isExpired_mono {e : StatusEntry} {ttl now later : Millis} (hle : now ≤ later)
    (h : e.isExpired ttl now = true) : e.isExpired ttl later = true := by
  obtain ⟨record, resolved⟩ := e
  cases resolved with
  | none => exact h
  | some t =>
    rw [isExpired_iff] at h ⊢
    exact Nat.lt_of_lt_of_le h hle

end StatusEntry

namespace StatusStore

variable (s : StatusStore) (now : Millis)

@[simp] theorem held?_create (hash : RequestId → Nat) (shards : Nat) (ttl : Millis)
    (id : RequestId) : (create hash shards ttl).held? id = none := Sharded.get?_create ..

@[simp] theorem held?_put (r : StatusRecord) (id : RequestId) :
    (s.put now r).held? id = if r.request = id then
      some ⟨r, if r.state.isTerminal then some now else none⟩ else s.held? id :=
  Sharded.get?_insert ..

@[simp] theorem held?_purge (id : RequestId) :
    (s.purge now).1.held? id = (s.held? id).filter fun e => !e.isExpired s.ttl now :=
  Sharded.get?_filter ..

variable {s}

/-- A record put under a new name and removed again leaves nothing behind. -/
theorem remove_put {r : StatusRecord} (h : s.held? r.request = none) :
    ((s.put now r).remove r.request).1 = s := by
  have hn : s.entries.contains r.request = false := by
    simp only [held?] at h
    simp [Sharded.contains, h]
  simp only [put, remove, Sharded.erase_insert_of_not_contains hn]

variable {now}

theorem get_eq_some_iff {id : RequestId} {r : StatusRecord} : s.get now id = some r ↔
    ∃ e, s.held? id = some e ∧ e.isExpired s.ttl now = false ∧ e.record = r := by
  simp only [get, Option.map_eq_some_iff, Option.filter_eq_some_iff]
  constructor
  · rintro ⟨e, ⟨he, hx⟩, hr⟩
    exact ⟨e, he, by simpa using hx, hr⟩
  · rintro ⟨e, he, hx, hr⟩
    exact ⟨e, ⟨he, by simpa using hx⟩, hr⟩

theorem get_of_held? {id : RequestId} {e : StatusEntry} (h : s.held? id = some e) :
    s.get now id = if e.isExpired s.ttl now then none else some e.record := by
  rw [get, h]
  cases hexpired : e.isExpired s.ttl now <;> simp only [Option.filter, hexpired] <;> rfl

theorem get_of_unresolved {id : RequestId} {r : StatusRecord} (h : s.held? id = some ⟨r, none⟩) :
    s.get now id = some r :=
  get_eq_some_iff.2 ⟨_, h, StatusEntry.isExpired_of_unresolved rfl .., rfl⟩

section Transition

variable {id : RequestId} {e : StatusEntry} {next : RequestState}
  {change : StatusRecord → StatusRecord}

theorem transition_of_advance (h : s.held? id = some e)
    (hadvance : e.record.state.canAdvanceTo next = true) :
    s.transition now id next change = .ok ({ s with
      entries := s.entries.insert id ⟨change { e.record with state := next },
        if next.isTerminal then some now else e.resolved⟩ },
      change { e.record with state := next }) := by
  simp only [transition, h, hadvance, if_true]

theorem transition_of_stay (h : s.held? id = some e)
    (hstay : e.record.state.canAdvanceTo next = false) :
    s.transition now id next change = .error (.invalidTransition id e.record.state next) := by
  simp only [transition, h, hstay, Bool.false_eq_true, if_false]

theorem transition_of_unheld (h : s.held? id = none) :
    s.transition now id next change = .error (.requestNotFound id) := by
  simp only [transition, h]

theorem transition_eq_ok {moved : StatusStore × StatusRecord}
    (h : s.transition now id next change = .ok moved) :
    ∃ e, s.held? id = some e ∧ e.record.state.canAdvanceTo next = true ∧
      moved = ({ s with
        entries := s.entries.insert id ⟨change { e.record with state := next },
          if next.isTerminal then some now else e.resolved⟩ },
        change { e.record with state := next }) := by
  cases hheld : s.held? id with
  | none =>
    rw [transition_of_unheld hheld] at h
    cases h
  | some e =>
    cases hadvance : e.record.state.canAdvanceTo next with
    | false =>
      rw [transition_of_stay hheld hadvance] at h
      cases h
    | true =>
      rw [transition_of_advance hheld hadvance] at h
      exact ⟨e, rfl, hadvance, (Except.ok.inj h).symm⟩

/-- A transition moves on what is held for one request. -/
theorem held?_of_transition {s' : StatusStore} {record : StatusRecord}
    (h : s.transition now id next change = .ok (s', record)) :
    ∃ e, s.held? id = some e ∧ e.record.state.canAdvanceTo next = true ∧
      record = change { e.record with state := next } ∧
      ∀ other, s'.held? other = if id = other then
        some ⟨record, if next.isTerminal then some now else e.resolved⟩ else s.held? other := by
  obtain ⟨e, he, hadvance, hmoved⟩ := transition_eq_ok h
  obtain ⟨rfl, rfl⟩ := Prod.mk.inj hmoved
  exact ⟨e, he, hadvance, rfl, fun other => Sharded.get?_insert ..⟩

theorem advance_of_held? (h : s.held? id = some e)
    (hc : e.record.state.canAdvanceTo next = true) (hn : next.isTerminal = false) :
    s.advance now id next = .ok ({ s with
      entries := s.entries.insert id ⟨{ e.record with state := next }, e.resolved⟩ },
      { e.record with state := next }) := by
  rw [advance, transition_of_advance h hc, hn]
  rfl

theorem resolve_of_held? (h : s.held? id = some e) (hn : e.record.state.isTerminal = false)
    (resolution : Resolution) :
    s.resolve now id resolution = .ok ({ s with
      entries := s.entries.insert id ⟨e.record.resolved resolution now, some now⟩ },
      e.record.resolved resolution now) := by
  have hc := Resolution.canAdvanceTo_state hn resolution
  simp only [resolve, transition_of_advance h hc, Resolution.isTerminal_state, if_true,
    StatusRecord.resolved_of_state]

end Transition

end StatusStore

namespace TicketIndex

variable (t : TicketIndex)

@[simp] theorem current_create (hash : TicketKey → Nat) (shards : Nat) (k : TicketKey) :
    (create hash shards).current k = none := Sharded.get?_create ..

@[simp] theorem current_set (k k' : TicketKey) (id : RequestId) :
    (t.set k id).current k' = if k = k' then some id else t.current k' := Sharded.get?_insert ..

@[simp] theorem current_prune (keep : RequestId → Bool) (k : TicketKey) :
    (t.prune keep).1.current k = (t.current k).filter keep := Sharded.get?_filter ..

/-- A ticket set and cleared again is gone, and so is the one it replaced. -/
@[simp] theorem current_clear_set (k k' : TicketKey) (id : RequestId) :
    ((t.set k id).clear k id).current k' = if k = k' then none else t.current k' := by
  have hk : (t.set k id).current k = some id := by simp
  simp only [clear, hk, if_true]
  have := Sharded.get?_erase (t.set k id).tickets k k'
  show ((t.set k id).tickets.erase k).get? k' = _
  rw [this]
  by_cases h : k = k'
  · simp [h]
  · have hset := current_set t k k' id
    simp only [h, if_false] at hset ⊢
    exact hset

end TicketIndex
end CouponIssuance
