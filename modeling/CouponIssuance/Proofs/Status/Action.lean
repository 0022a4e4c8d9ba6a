import CouponIssuance.Proofs.Status
import CouponIssuance.Status.Wait
/-!
# What an action does to one record

Unless it overwrites the record of a request, an action leaves it alone or moves it on; and whoever moves it
on to a terminal state wakes those who wait for it. A purge takes what has expired.
-/
namespace CouponIssuance

/-- Whether an action writes the record of a request as a whole, or removes it. -/
def StatusAction.Overwrites (id : RequestId) : StatusAction → Prop
  | .put record => record.request = id
  | .remove request => request = id
  | _ => False

namespace StatusStore

section Action

variable {s s' : StatusStore} {now : Millis} {id : RequestId} {e : StatusEntry} {a : StatusAction}

/-- An action moves the record of a request on, from one entry to another. Who moves it on to a terminal
state wakes those who wait for it, and it is moved on to another state only by that name. -/
structure MovesOn (s : StatusStore) (now : Millis) (id : RequestId) (a : StatusAction)
    (e e' : StatusEntry) : Prop where
  held : (s.act now a).1.held? id = some e'
  advances : e.record.state.canAdvanceTo e'.record.state = true
  request : e'.record.request = e.record.request
  resolved : e'.resolved = if e'.record.state.isTerminal then some now else e.resolved
  wakes : e'.record.state.isTerminal = true → s.wakes now id a = true
  named : e'.record.state.isTerminal = false → a = .advance id e'.record.state

private theorem movesOn_of_transition {next : RequestState} {change : StatusRecord → StatusRecord}
    {record : StatusRecord} (h : s.transition now id next change = .ok (s', record))
    (hact : (s.act now a).1 = s')
    (hstate : ∀ r : StatusRecord, (change { r with state := next }).state = next)
    (hrequest : ∀ r, (change r).request = r.request) (hheld : s.held? id = some e)
    (hwakes : next.isTerminal = true → s.wakes now id a = true)
    (hnamed : next.isTerminal = false → a = .advance id next) : ∃ e', s.MovesOn now id a e e' := by
  obtain ⟨before, hbefore, hadvance, hrecord, hafter⟩ := held?_of_transition h
  cases hheld.symm.trans hbefore
  have hnext : record.state = next := hrecord ▸ hstate e.record
  exact ⟨⟨record, if next.isTerminal then some now else e.resolved⟩, {
    held := by rw [hact, hafter, if_pos rfl]
    advances := by simpa only [hnext] using hadvance
    request := by simp only [hrecord, hrequest]
    resolved := by simp only [hnext]
    wakes := by simpa only [hnext] using hwakes
    named := by simpa only [hnext] using hnamed }⟩

theorem held?_of_transition_of_ne {moved : RequestId} {next : RequestState}
    {change : StatusRecord → StatusRecord} {record : StatusRecord}
    (h : s.transition now moved next change = .ok (s', record)) (hne : moved ≠ id) :
    s'.held? id = s.held? id := by
  obtain ⟨e, -, -, -, hafter⟩ := held?_of_transition h
  rw [hafter, if_neg hne]

variable (now) in
/-- Unless an action overwrites a record, it leaves it alone, moves it on, or finds it expired. -/
theorem act_cases (hheld : s.held? id = some e) (hkeeps : ¬ a.Overwrites id) :
    (s.act now a).1.held? id = some e ∨
    (∃ e', s.MovesOn now id a e e') ∨
    e.isExpired s.ttl now = true := by
  cases a with
  | put record =>
    have hother : record.request ≠ id := hkeeps
    left
    show (s.put now record).held? id = some e
    rw [held?_put, if_neg hother, hheld]
  | get request => exact .inl hheld
  | advance moved next =>
    cases hadvance : s.advance now moved next with
    | error why =>
      left
      simpa only [act, hadvance] using hheld
    | ok result =>
      by_cases hid : moved = id
      · subst hid
        right; left
        apply movesOn_of_transition hadvance (by simp only [act, hadvance]) (fun _ => rfl)
          (fun _ => rfl) hheld
        · intro hend
          simp [wakes, settled?, act, hadvance, hend]
        · exact fun _ => rfl
      · left
        simp only [act, hadvance]
        rw [held?_of_transition_of_ne hadvance hid, hheld]
  | resolve moved resolution =>
    cases hresolve : s.resolve now moved resolution with
    | error why =>
      left
      simpa only [act, hresolve] using hheld
    | ok result =>
      by_cases hid : moved = id
      · subst hid
        right; left
        apply movesOn_of_transition hresolve (by simp only [act, hresolve])
          (fun _ => StatusRecord.resolved_state ..) (fun _ => StatusRecord.resolved_request ..) hheld
        · intro _
          simp [wakes, settled?, act, hresolve]
        · simp
      · left
        simp only [act, hresolve]
        rw [held?_of_transition_of_ne hresolve hid, hheld]
  | remove removed =>
    have hother : removed ≠ id := hkeeps
    left
    show (s.entries.erase removed).get? id = some e
    rw [Sharded.get?_erase, if_neg hother]
    exact hheld
  | purge =>
    show (s.purge now).1.held? id = some e ∨ _
    rw [held?_purge, hheld]
    cases hexpired : e.isExpired s.ttl now with
    | true => exact .inr (.inr rfl)
    | false => exact .inl (by simp [Option.filter, hexpired])
  | count => exact .inl hheld

variable {record : StatusRecord}

/-- A record that has not ended goes on without an end, or ends and wakes who waits for it. -/
theorem act_of_open (now : Millis) (hheld : s.held? id = some ⟨record, none⟩)
    (hlive : record.state.isTerminal = false) (hkeeps : ¬ a.Overwrites id) :
    ∃ next, next.request = record.request ∧
      ((s.act now a).1.held? id = some ⟨next, none⟩ ∧ next.state.isTerminal = false ∨
        (s.act now a).1.held? id = some ⟨next, some now⟩ ∧ next.state.isTerminal = true ∧
          s.wakes now id a = true) := by
  rcases act_cases now hheld hkeeps with hkept | ⟨⟨next, resolved⟩, hmoved⟩ | hexpired
  · exact ⟨record, rfl, .inl ⟨hkept, hlive⟩⟩
  · refine ⟨next, hmoved.request, ?_⟩
    have hnext := hmoved.held
    have hresolved := hmoved.resolved
    cases hend : next.state.isTerminal with
    | false =>
      simp only [hend, Bool.false_eq_true, if_false] at hresolved
      exact .inl ⟨hresolved ▸ hnext, rfl⟩
    | true =>
      simp only [hend, if_true] at hresolved
      exact .inr ⟨hresolved ▸ hnext, rfl, hmoved.wakes hend⟩
  · rw [StatusEntry.isExpired_of_unresolved rfl] at hexpired
    cases hexpired

theorem act_of_ended (hheld : s.held? id = some ⟨record, some now⟩)
    (hend : record.state.isTerminal = true) (hkeeps : ¬ a.Overwrites id) :
    (s.act now a).1.held? id = some ⟨record, some now⟩ := by
  rcases act_cases now hheld hkeeps with hkept | ⟨next, hmoved⟩ | hexpired
  · exact hkept
  · have hadvances := hmoved.advances
    simp [RequestState.canAdvanceTo, hend] at hadvances
  · rw [StatusEntry.isExpired_at_once] at hexpired
    cases hexpired

end Action

section Keyed

variable {s s' : StatusStore}

/-- The records are held under their own names. -/
def Keyed (s : StatusStore) : Prop := ∀ id e, s.held? id = some e → e.record.request = id

theorem keyed_create (hash : RequestId → Nat) (shards : Nat) (ttl : Millis) :
    (create hash shards ttl).Keyed := by
  intro id e hheld
  rw [held?_create] at hheld
  cases hheld

theorem Keyed.transition (h : s.Keyed) {now : Millis} {moved : RequestId} {next : RequestState}
    {change : StatusRecord → StatusRecord} {record : StatusRecord}
    (hmoved : s.transition now moved next change = .ok (s', record))
    (hrequest : ∀ r, (change r).request = r.request) : s'.Keyed := by
  obtain ⟨before, hbefore, -, hrecord, hafter⟩ := held?_of_transition hmoved
  intro id e hheld
  rw [hafter] at hheld
  split at hheld
  · next hid =>
    cases hheld
    rw [hrecord, hrequest]
    exact (h moved before hbefore).trans hid
  · exact h id e hheld

theorem Keyed.act (h : s.Keyed) (now : Millis) (a : StatusAction) : (s.act now a).1.Keyed := by
  cases a with
  | put record =>
    intro id e hheld
    change (s.put now record).held? id = some e at hheld
    rw [held?_put] at hheld
    split at hheld
    · next hid =>
      cases hheld
      exact hid
    · exact h id e hheld
  | advance moved next =>
    simp only [StatusStore.act]
    cases hadvance : s.advance now moved next with
    | error why => exact h
    | ok result => exact h.transition hadvance fun _ => rfl
  | resolve moved resolution =>
    simp only [StatusStore.act]
    cases hresolve : s.resolve now moved resolution with
    | error why => exact h
    | ok result => exact h.transition hresolve fun _ => StatusRecord.resolved_request ..
  | remove removed =>
    intro id e hheld
    change (s.entries.erase removed).get? id = some e at hheld
    rw [Sharded.get?_erase] at hheld
    split at hheld
    · cases hheld
    · exact h id e hheld
  | purge =>
    intro id e hheld
    change (s.purge now).1.held? id = some e at hheld
    rw [held?_purge] at hheld
    exact h id e (Option.filter_eq_some_iff.1 hheld).1
  | get | count => exact h

theorem Keyed.follow (h : s.Keyed) (now : Millis) (others : Schedule) :
    (s.follow now others).1.Keyed := by
  induction others generalizing s now with
  | nil => exact h
  | cons step others ih => exact ih (h.act (now + step.1) step.2) (now + step.1)

end Keyed

end StatusStore
end CouponIssuance
