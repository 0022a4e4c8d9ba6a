import CouponIssuance.Proofs.Status
import CouponIssuance.Proofs.Table.Merging
import CouponIssuance.Status.Wait
/-!
# Sharding is not seen

What the status store and the ticket index answer does not depend on how their keys are spread. Both are
compared with one table: a table of records, with the instants at which they ended, and a table of
tickets. Whatever is asked of them, call after call, the sharded ones and the tables answer alike, and
they go on to hold the same.
-/
namespace CouponIssuance

section Converse

variable {σ τ α β : Type}

/-- Makes several calls, each with the time since the one before: what they lead to, and the answers. -/
def converse (step : σ → Millis → α → σ × β) (s : σ) (now : Millis) :
    List (Millis × α) → σ × List β
  | [] => (s, [])
  | (delay, call) :: rest =>
    let (s, answer) := step s (now + delay) call
    let (s, answers) := converse step s (now + delay) rest
    (s, answer :: answers)

private theorem converse_alike {step : σ → Millis → α → σ × β} {step' : τ → Millis → α → τ × β}
    {Matches : σ → τ → Prop}
    (alike : ∀ s t, Matches s t → ∀ now call,
      Matches (step s now call).1 (step' t now call).1 ∧ (step s now call).2 = (step' t now call).2)
    {s : σ} {t : τ} (h : Matches s t) (now : Millis) (calls : List (Millis × α)) :
    Matches (converse step s now calls).1 (converse step' t now calls).1 ∧
      (converse step s now calls).2 = (converse step' t now calls).2 := by
  induction calls generalizing s t now with
  | nil => exact ⟨h, rfl⟩
  | cons call rest ih =>
    obtain ⟨delay, call⟩ := call
    obtain ⟨hnext, hanswer⟩ := alike s t h (now + delay) call
    obtain ⟨hafter, hanswers⟩ := ih hnext (now + delay)
    refine ⟨hafter, ?_⟩
    simp only [converse, hanswer, hanswers]

end Converse

/-- What can be asked of a status store: an action, or whether a record is shown. -/
inductive StatusCall where
  | act (action : StatusAction)
  | contains (request : RequestId)

inductive StatusAnswer where
  | reply (reply : StatusReply)
  | contained (shown : Bool)

def StatusStore.answer (s : StatusStore) (now : Millis) : StatusCall → StatusStore × StatusAnswer
  | .act action =>
    let (s, reply) := s.act now action
    (s, .reply reply)
  | .contains id => (s, .contained (s.contains now id))

/-- All records in one table, each with the instant it ended, and how long they are kept then. -/
structure RecordTable where
  entries : Table RequestId StatusEntry
  ttl : Millis

namespace RecordTable

/-- The record of a request, unless it is unknown or ended longer ago than records are kept. -/
def shown (t : RecordTable) (now : Millis) (id : RequestId) : Option StatusRecord :=
  match t.entries.get? id with
  | none => none
  | some e => if e.isExpired t.ttl now then none else some e.record

/-- Moves a held record on to `next`, as changed by `change`, if it can get there. -/
def move (t : RecordTable) (now : Millis) (id : RequestId) (next : RequestState)
    (change : StatusRecord → StatusRecord) : RecordTable × Except Refusal StatusRecord :=
  match t.entries.get? id with
  | none => (t, .error (.requestNotFound id))
  | some e =>
    if e.record.state.canAdvanceTo next then
      let record := change { e.record with state := next }
      let resolved := if next.isTerminal then some now else e.resolved
      ({ t with entries := t.entries.insert id ⟨record, resolved⟩ }, .ok record)
    else (t, .error (.invalidTransition id e.record.state next))

def act (t : RecordTable) (now : Millis) : StatusAction → RecordTable × StatusReply
  | .put r =>
    let resolved := if r.state.isTerminal then some now else none
    ({ t with entries := t.entries.insert r.request ⟨r, resolved⟩ }, .stored r)
  | .get id => (t, .found (t.shown now id))
  | .advance id next =>
    let (t, moved) := t.move now id next fun r => r
    (t, .moved moved)
  | .resolve id resolution =>
    let (t, moved) := t.move now id resolution.state fun r => r.resolved resolution now
    (t, .moved moved)
  | .remove id =>
    ({ t with entries := t.entries.erase id }, .removed ((t.entries.get? id).map StatusEntry.record))
  | .purge =>
    ({ t with entries := t.entries.filter fun _ e => !e.isExpired t.ttl now },
      .purged (t.entries.entries.countP fun e => e.2.isExpired t.ttl now))
  | .count => (t, .counted t.entries.size)

def answer (t : RecordTable) (now : Millis) : StatusCall → RecordTable × StatusAnswer
  | .act action =>
    let (t, reply) := t.act now action
    (t, .reply reply)
  | .contains id => (t, .contained (t.shown now id).isSome)

end RecordTable

namespace StatusStore

/-- The same records, kept as long. -/
structure Matches (s : StatusStore) (t : RecordTable) : Prop where
  entries : s.entries.Matches t.entries
  ttl : s.ttl = t.ttl

variable {s : StatusStore} {t : RecordTable} {now : Millis} {id : RequestId}

theorem Matches.held? (h : s.Matches t) (id : RequestId) : s.held? id = t.entries.get? id :=
  h.entries id

theorem Matches.get (h : s.Matches t) : s.get now id = t.shown now id := by
  rw [RecordTable.shown, ← h.held?, ← h.ttl]
  cases hheld : s.held? id with
  | none => simp only [StatusStore.get, hheld]; rfl
  | some e => exact get_of_held? hheld

/-- Both refuse to move a record on, for the same reason, or both move it on to the same. -/
theorem Matches.transition (h : s.Matches t) (next : RequestState)
    (change : StatusRecord → StatusRecord) :
    (∃ why, s.transition now id next change = .error why ∧ t.move now id next change = (t, .error why)) ∨
    ∃ s' t' record, s.transition now id next change = .ok (s', record) ∧
      t.move now id next change = (t', .ok record) ∧ s'.Matches t' := by
  simp only [StatusStore.transition, RecordTable.move, ← h.held?]
  cases hheld : s.held? id with
  | none => exact .inl ⟨_, rfl, rfl⟩
  | some e =>
    dsimp only
    cases e.record.state.canAdvanceTo next with
    | false => exact .inl ⟨_, rfl, rfl⟩
    | true => exact .inr ⟨_, _, _, rfl, rfl, h.entries.insert _ _, h.ttl⟩

theorem Matches.act (h : s.Matches t) (now : Millis) (action : StatusAction) :
    (s.act now action).1.Matches (t.act now action).1 ∧
      (s.act now action).2 = (t.act now action).2 := by
  cases action with
  | put r => exact ⟨⟨h.entries.insert _ _, h.ttl⟩, rfl⟩
  | get id => exact ⟨h, congrArg StatusReply.found h.get⟩
  | advance id next =>
    simp only [StatusStore.act, RecordTable.act, StatusStore.advance]
    rcases h.transition next fun r => r with ⟨why, hs, ht⟩ | ⟨s', t', record, hs, ht, hmatch⟩
    · rw [hs, ht]; exact ⟨h, rfl⟩
    · rw [hs, ht]; exact ⟨hmatch, rfl⟩
  | resolve id resolution =>
    simp only [StatusStore.act, RecordTable.act, StatusStore.resolve]
    rcases h.transition resolution.state fun r => r.resolved resolution now with
      ⟨why, hs, ht⟩ | ⟨s', t', record, hs, ht, hmatch⟩
    · rw [hs, ht]; exact ⟨h, rfl⟩
    · rw [hs, ht]; exact ⟨hmatch, rfl⟩
  | remove id =>
    refine ⟨⟨h.entries.erase id, h.ttl⟩, ?_⟩
    show StatusReply.removed ((s.held? id).map StatusEntry.record) = _
    rw [h.held?]
    rfl
  | purge =>
    have hcount := h.entries.size_sub_filter fun _ e => !e.isExpired s.ttl now
    simp only [Bool.not_not] at hcount
    refine ⟨⟨?_, h.ttl⟩, ?_⟩
    · show (s.entries.filter _).Matches (t.entries.filter _)
      rw [h.ttl]
      exact h.entries.filter _
    · show StatusReply.purged _ = .purged _
      rw [← h.ttl]
      exact congrArg StatusReply.purged hcount
  | count => exact ⟨h, congrArg StatusReply.counted h.entries.size⟩

theorem Matches.answer (h : s.Matches t) (now : Millis) (call : StatusCall) :
    (s.answer now call).1.Matches (t.answer now call).1 ∧
      (s.answer now call).2 = (t.answer now call).2 := by
  cases call with
  | act action =>
    obtain ⟨hmatch, hreply⟩ := h.act now action
    exact ⟨hmatch, congrArg StatusAnswer.reply hreply⟩
  | contains id =>
    refine ⟨h, ?_⟩
    show StatusAnswer.contained (s.get now id).isSome = .contained (t.shown now id).isSome
    rw [h.get]

theorem matches_create (hash : RequestId → Nat) (shards : Nat) (ttl : Millis) :
    (create hash shards ttl).Matches ⟨.empty, ttl⟩ :=
  ⟨Sharded.matches_create hash shards, rfl⟩

end StatusStore

/-- What can be asked of a ticket index. -/
inductive TicketCall where
  | current (key : TicketKey)
  | set (key : TicketKey) (request : RequestId)
  | clear (key : TicketKey) (request : RequestId)
  | prune (keep : RequestId → Bool)
  | count

inductive TicketAnswer where
  | done
  | found (request : Option RequestId)
  | pruned (count : Nat)
  | counted (count : Nat)

/-- Calls of the index take no notice of the time. -/
def TicketIndex.answer (t : TicketIndex) (_ : Millis) : TicketCall → TicketIndex × TicketAnswer
  | .current k => (t, .found (t.current k))
  | .set k id => (t.set k id, .done)
  | .clear k id => (t.clear k id, .done)
  | .prune keep =>
    let (t, n) := t.prune keep
    (t, .pruned n)
  | .count => (t, .counted t.size)

/-- All tickets in one table. -/
abbrev TicketTable := Table TicketKey RequestId

def TicketTable.answer (t : TicketTable) (_ : Millis) : TicketCall → TicketTable × TicketAnswer
  | .current k => (t, .found (t.get? k))
  | .set k id => (t.insert k id, .done)
  | .clear k id => (if t.get? k = some id then t.erase k else t, .done)
  | .prune keep => (t.filter fun _ id => keep id, .pruned (t.entries.countP fun e => !keep e.2))
  | .count => (t, .counted t.size)

namespace TicketIndex

/-- The same tickets. -/
def Matches (t : TicketIndex) (u : TicketTable) : Prop := t.tickets.Matches u

theorem Matches.answer {t : TicketIndex} {u : TicketTable} (h : t.Matches u) (now : Millis)
    (call : TicketCall) : (t.answer now call).1.Matches (TicketTable.answer u now call).1 ∧
      (t.answer now call).2 = (TicketTable.answer u now call).2 := by
  cases call with
  | current k => exact ⟨h, congrArg TicketAnswer.found (h k)⟩
  | set k id => exact ⟨Sharded.Matches.insert h k id, rfl⟩
  | clear k id =>
    refine ⟨?_, rfl⟩
    have hcurrent : t.current k = u.get? k := h k
    simp only [TicketIndex.answer, TicketTable.answer, clear, hcurrent]
    split
    · exact Sharded.Matches.erase h k
    · exact h
  | prune keep =>
    have hcount := Sharded.Matches.size_sub_filter h fun _ id => keep id
    exact ⟨Sharded.Matches.filter h _, congrArg TicketAnswer.pruned hcount⟩
  | count => exact ⟨h, congrArg TicketAnswer.counted (Sharded.Matches.size h)⟩

theorem matches_create (hash : TicketKey → Nat) (shards : Nat) :
    (create hash shards).Matches .empty := Sharded.matches_create hash shards

end TicketIndex

/-- However the keys are spread over however many shards, no shard being as good as one: whatever is asked
of a status store, in whatever order and with whatever time in between, it answers as one table of
records does, and holds the same afterwards; and a ticket index answers as one table of tickets does, and
holds the same. So two that spread their keys differently give the same answers. What a purge or a
pruning counts is what goes from the shards one by one. -/
theorem sharding_unseen :
    (∀ hash shards ttl now calls,
      (converse StatusStore.answer (.create hash shards ttl) now calls).2 =
        (converse RecordTable.answer ⟨.empty, ttl⟩ now calls).2 ∧
      ∀ id, (converse StatusStore.answer (.create hash shards ttl) now calls).1.held? id =
        (converse RecordTable.answer ⟨.empty, ttl⟩ now calls).1.entries.get? id) ∧
    (∀ hash shards now calls,
      (converse TicketIndex.answer (.create hash shards) now calls).2 =
        (converse TicketTable.answer .empty now calls).2 ∧
      ∀ key, (converse TicketIndex.answer (.create hash shards) now calls).1.current key =
        (converse TicketTable.answer .empty now calls).1.get? key) ∧
    (∀ hash hash' shards shards' ttl now calls,
      (converse StatusStore.answer (.create hash shards ttl) now calls).2 =
        (converse StatusStore.answer (.create hash' shards' ttl) now calls).2) ∧
    (∀ hash hash' shards shards' now calls,
      (converse TicketIndex.answer (.create hash shards) now calls).2 =
        (converse TicketIndex.answer (.create hash' shards') now calls).2) ∧
    (∀ hash ttl, StatusStore.create hash 0 ttl = .create hash 1 ttl) ∧
    (∀ hash, TicketIndex.create hash 0 = .create hash 1) ∧
    (∀ (s : StatusStore) now, (s.purge now).2 = totalBy
      (fun t => t.size - (t.filter fun _ e => !e.isExpired s.ttl now).size) s.entries.shards) ∧
    ∀ (t : TicketIndex) keep, (t.prune keep).2 = totalBy
      (fun u => u.size - (u.filter fun _ id => keep id).size) t.tickets.shards := by
  have hstatus (hash shards ttl now calls) := converse_alike (fun _ _ h => h.answer)
    (StatusStore.matches_create hash shards ttl) now calls
  have hticket (hash shards now calls) := converse_alike (fun _ _ h => h.answer)
    (TicketIndex.matches_create hash shards) now calls
  refine ⟨fun hash shards ttl now calls => ?_, fun hash shards now calls => ?_, ?_, ?_,
    fun _ _ => rfl, fun _ => rfl, ?_, ?_⟩
  · obtain ⟨hmatch, hanswers⟩ := hstatus hash shards ttl now calls
    exact ⟨hanswers, hmatch.held?⟩
  · obtain ⟨hmatch, hanswers⟩ := hticket hash shards now calls
    exact ⟨hanswers, hmatch⟩
  · intro hash hash' shards shards' ttl now calls
    exact (hstatus hash shards ttl now calls).2.trans (hstatus hash' shards' ttl now calls).2.symm
  · intro hash hash' shards shards' now calls
    exact (hticket hash shards now calls).2.trans (hticket hash' shards' now calls).2.symm
  · exact fun s now => s.entries.size_sub_filter _
  · exact fun t keep => t.tickets.size_sub_filter _

end CouponIssuance
