import CouponIssuance.Proofs.Status
import CouponIssuance.Status.Wait
/-!
# Stores that show the same

An entry that has expired is as good as none: readers do not see it, and since it has ended it
cannot be moved on either. So two stores that differ only in such entries go on showing the same
whatever is done to them, and who waits at the one is answered like who waits at the other.
-/
namespace CouponIssuance.StatusStore

/-- The entry of a request, unless it has expired. -/
def shown? (s : StatusStore) (now : Millis) (id : RequestId) : Option StatusEntry :=
  (s.held? id).filter fun e => !e.isExpired s.ttl now

/-- Only what has ended can expire. -/
def Lasting (s : StatusStore) : Prop :=
  ∀ id e, s.held? id = some e → e.resolved.isSome = true → e.record.state.isTerminal = true

/-- Two stores that show the same entries, and spread them alike. -/
structure Agree (now : Millis) (s t : StatusStore) : Prop where
  ttl : t.ttl = s.ttl
  home : ∀ id, t.entries.home id = s.entries.home id
  shown : ∀ id, t.shown? now id = s.shown? now id
  lasting : s.Lasting
  lasting' : t.Lasting

/-- Two outcomes: both are failures that are told apart by nobody, or both leave stores that agree, and the
same beside them. -/
inductive Alongside (now : Millis) {ε α : Type} (alike : ε → ε → Prop) :
    Except ε (StatusStore × α) → Except ε (StatusStore × α) → Prop
  | failed {why why'} (hwhy : alike why why') : Alongside now alike (.error why) (.error why')
  | done {s t a} (hagree : Agree now s t) : Alongside now alike (.ok (s, a)) (.ok (t, a))

theorem Alongside.bind {now : Millis} {ε α β : Type} {alike : ε → ε → Prop}
    {x y : Except ε (StatusStore × α)} {f g : StatusStore × α → Except ε (StatusStore × β)}
    (h : Alongside now alike x y)
    (hfg : ∀ {s t} a, Agree now s t → Alongside now alike (f (s, a)) (g (t, a))) :
    Alongside now alike (x >>= f) (y >>= g) := by
  cases h with
  | failed hwhy => exact .failed hwhy
  | done hagree => exact hfg _ hagree

variable {s t : StatusStore} {now : Millis} {id : RequestId} {e : StatusEntry}

theorem shown?_eq_some_iff :
    s.shown? now id = some e ↔ s.held? id = some e ∧ e.isExpired s.ttl now = false := by
  rw [shown?, Option.filter_eq_some_iff, Bool.not_eq_true']

theorem shown?_of_unresolved (h : s.held? id = some e) (hopen : e.resolved = none) :
    s.shown? now id = some e :=
  shown?_eq_some_iff.2 ⟨h, StatusEntry.isExpired_of_unresolved hopen ..⟩

theorem Lasting.agree_self (h : s.Lasting) (now : Millis) : Agree now s s :=
  ⟨rfl, fun _ => rfl, fun _ => rfl, h, h⟩

theorem Agree.get (h : Agree now s t) (id : RequestId) : t.get now id = s.get now id :=
  congrArg (Option.map StatusEntry.record) (h.shown id)

theorem Agree.later (h : Agree now s t) {later : Millis} (hle : now ≤ later) :
    Agree later s t := by
  have hlater (u : StatusStore) (id : RequestId) :
      u.shown? later id = (u.shown? now id).filter fun e => !e.isExpired u.ttl later := by
    rw [shown?, shown?, Option.filter_filter]
    congr 1
    funext e
    cases hx : e.isExpired u.ttl now with
    | false => simp
    | true => simp [StatusEntry.isExpired_mono hle hx]
  refine { h with shown := fun id => ?_ }
  rw [hlater, hlater, h.ttl, h.shown]

theorem Lasting.insert (h : s.Lasting)
    (he : e.resolved.isSome = true → e.record.state.isTerminal = true) :
    Lasting { s with entries := s.entries.insert id e } := by
  intro id' e' h' hresolved
  change (s.entries.insert id e).get? id' = some e' at h'
  rw [Sharded.get?_insert] at h'
  split at h'
  · cases h'
    exact he hresolved
  · exact h id' e' h' hresolved

private theorem shown?_insert (id' : RequestId) :
    shown? { s with entries := s.entries.insert id e } now id' =
      if id = id' then (some e).filter fun e => !e.isExpired s.ttl now else s.shown? now id' := by
  show ((s.entries.insert id e).get? id').filter _ = _
  rw [Sharded.get?_insert]
  split <;> rfl

theorem Agree.insert (h : Agree now s t) (id : RequestId)
    (he : e.resolved.isSome = true → e.record.state.isTerminal = true) :
    Agree now { s with entries := s.entries.insert id e }
      { t with entries := t.entries.insert id e } where
  ttl := h.ttl
  home id' := by simp [h.home]
  shown id' := by rw [shown?_insert, shown?_insert, h.ttl, h.shown]
  lasting := h.lasting.insert he
  lasting' := h.lasting'.insert he

theorem Agree.put (h : Agree now s t) (r : StatusRecord) :
    Agree now (s.put now r) (t.put now r) := by
  apply h.insert
  intro hresolved
  cases hend : r.state.isTerminal with
  | true => rfl
  | false => simp [hend] at hresolved

theorem Lasting.erase (h : s.Lasting) (id : RequestId) : (s.remove id).1.Lasting := by
  intro id' e he
  change (s.entries.erase id).get? id' = some e at he
  rw [Sharded.get?_erase] at he
  split at he
  · cases he
  · exact h id' e he

theorem Agree.remove (h : Agree now s t) (id : RequestId) :
    Agree now (s.remove id).1 (t.remove id).1 where
  ttl := h.ttl
  home id' := by simp [StatusStore.remove, h.home]
  shown id' := by
    have hremove (u : StatusStore) :
        (u.remove id).1.shown? now id' = if id = id' then none else u.shown? now id' := by
      show ((u.entries.erase id).get? id').filter _ = _
      rw [Sharded.get?_erase]
      split <;> rfl
    rw [hremove, hremove, h.shown]
  lasting := h.lasting.erase id
  lasting' := h.lasting'.erase id

theorem Lasting.purge (h : s.Lasting) (now : Millis) : (s.purge now).1.Lasting := by
  intro id e he
  rw [held?_purge] at he
  exact h id e (Option.filter_eq_some_iff.1 he).1

theorem shown?_purge (id : RequestId) : (s.purge now).1.shown? now id = s.shown? now id := by
  show (((s.purge now).1.held? id).filter fun e => !e.isExpired s.ttl now) = _
  rw [held?_purge, Option.filter_filter, shown?]
  simp

private theorem home_purge (id : RequestId) : (s.purge now).1.entries.home id = s.entries.home id :=
  Sharded.home_filter ..

theorem Lasting.agree_purge (h : s.Lasting) (now : Millis) : Agree now s (s.purge now).1 where
  ttl := rfl
  home := home_purge
  shown := shown?_purge
  lasting := h
  lasting' := h.purge now

theorem Agree.purge (h : Agree now s t) : Agree now (s.purge now).1 (t.purge now).1 where
  ttl := h.ttl
  home id := by rw [home_purge, home_purge, h.home]
  shown id := by rw [shown?_purge, shown?_purge, h.shown]
  lasting := h.lasting.purge now
  lasting' := h.lasting'.purge now

section Transition

variable {next : RequestState} {change : StatusRecord → StatusRecord}

variable (next change) in
private theorem Lasting.transition_of_hidden (h : s.Lasting) (hhidden : s.shown? now id = none) :
    ∃ why, s.transition now id next change = .error why := by
  cases hheld : s.held? id with
  | none => exact ⟨_, transition_of_unheld hheld⟩
  | some e =>
    have hexpired : e.isExpired s.ttl now = true := by
      rw [shown?, hheld, Option.filter_eq_none_iff] at hhidden
      simpa using hhidden e rfl
    have hresolved : e.resolved.isSome = true := by
      cases hr : e.resolved with
      | none => rw [StatusEntry.isExpired_of_unresolved hr] at hexpired; cases hexpired
      | some t => rfl
    have hstay : e.record.state.canAdvanceTo next = false := by
      rw [RequestState.canAdvanceTo, h id e hheld hresolved]
      rfl
    exact ⟨_, transition_of_stay hheld hstay⟩

theorem Agree.transition (h : Agree now s t) (id : RequestId)
    (hnext : ∀ r : StatusRecord, (change { r with state := next }).state = next) :
    Alongside now (fun _ _ => True) (s.transition now id next change)
      (t.transition now id next change) := by
  cases hs : s.shown? now id with
  | none =>
    obtain ⟨why, hwhy⟩ := h.lasting.transition_of_hidden next change hs
    obtain ⟨why', hwhy'⟩ := h.lasting'.transition_of_hidden next change ((h.shown id).trans hs)
    rw [hwhy, hwhy']
    exact .failed trivial
  | some e =>
    have hheld := (shown?_eq_some_iff.1 hs).1
    have hheld' := (shown?_eq_some_iff.1 ((h.shown id).trans hs)).1
    cases hadvance : e.record.state.canAdvanceTo next with
    | false =>
      rw [transition_of_stay hheld hadvance, transition_of_stay hheld' hadvance]
      exact .failed trivial
    | true =>
      -- what moves on had not ended, so nothing but its new state can make the entry expire
      have hopen : e.resolved = none := by
        cases hr : e.resolved with
        | none => rfl
        | some t =>
          have hend := h.lasting id e hheld (by rw [hr]; rfl)
          rw [RequestState.canAdvanceTo, hend] at hadvance
          cases hadvance
      rw [transition_of_advance hheld hadvance, transition_of_advance hheld' hadvance]
      refine .done (h.insert id fun hresolved => ?_)
      rw [hnext]
      cases hend : next.isTerminal with
      | true => rfl
      | false => simp [hend, hopen] at hresolved

theorem Agree.advance (h : Agree now s t) (id : RequestId) (next : RequestState) :
    Alongside now (fun _ _ => True) (s.advance now id next) (t.advance now id next) :=
  h.transition id fun _ => rfl

theorem Agree.resolve (h : Agree now s t) (id : RequestId) (resolution : Resolution) :
    Alongside now (fun _ _ => True) (s.resolve now id resolution) (t.resolve now id resolution) :=
  h.transition id fun _ => StatusRecord.resolved_state ..

end Transition

/-- Whatever is done to both stores, they go on to agree, and it wakes the same waiters. -/
theorem Agree.act (h : Agree now s t) (a : StatusAction) :
    Agree now (s.act now a).1 (t.act now a).1 ∧ t.settled? now a = s.settled? now a := by
  cases a with
  | put r => exact ⟨h.put r, rfl⟩
  | get id => exact ⟨h, rfl⟩
  | advance id next =>
    have hmoved := h.advance id next
    simp only [settled?, StatusStore.act]
    generalize s.advance now id next = moved, t.advance now id next = moved' at hmoved
    cases hmoved with
    | failed => exact ⟨h, rfl⟩
    | done hagree => exact ⟨hagree, rfl⟩
  | resolve id resolution =>
    have hmoved := h.resolve id resolution
    simp only [settled?, StatusStore.act]
    generalize s.resolve now id resolution = moved, t.resolve now id resolution = moved' at hmoved
    cases hmoved with
    | failed => exact ⟨h, rfl⟩
    | done hagree => exact ⟨hagree, rfl⟩
  | remove id => exact ⟨h.remove id, rfl⟩
  | purge => exact ⟨h.purge, rfl⟩
  | count => exact ⟨h, rfl⟩

theorem Agree.actAll (h : Agree now s t) (id : RequestId) (actions : List StatusAction) :
    Agree now (s.actAll now id actions).1 (t.actAll now id actions).1 ∧
      (t.actAll now id actions).2 = (s.actAll now id actions).2 := by
  induction actions generalizing s t with
  | nil => exact ⟨h, rfl⟩
  | cons a actions ih =>
    obtain ⟨hacted, hsettled⟩ := h.act a
    obtain ⟨hagree, hwoken⟩ := ih hacted
    have hwakes : t.wakes now id a = s.wakes now id a := by
      simp only [wakes, hsettled, h.home]
    refine ⟨hagree, ?_⟩
    simp only [StatusStore.actAll, hwoken, hwakes]

theorem Agree.look (h : Agree now s t) (id : RequestId) (deadline : Millis) (w : Watch) :
    t.look id deadline now w = s.look id deadline now w := by
  simp only [StatusStore.look, h.get]

/-- A round ends both waits with the same answer, or neither. -/
theorem Agree.holdRound (h : Agree now s t) (id : RequestId) (deadline : Millis)
    (actions : List StatusAction) (w : Watch) :
    Alongside now Eq (s.holdRound id deadline now actions w)
      (t.holdRound id deadline now actions w) := by
  obtain ⟨hagree, hwoken⟩ := h.actAll id actions
  simp only [StatusStore.holdRound, hwoken]
  split
  · rw [h.look]
    cases s.look id deadline now w with
    | error waited => exact .failed rfl
    | ok w' => exact .done hagree
  · rw [hagree.look]
    cases StatusStore.look _ id deadline now _ with
    | error waited => exact .failed rfl
    | ok w' => exact .done hagree

private theorem Agree.holdRounds (h : Agree now s t) (id : RequestId) (deadline : Millis)
    (actions : List StatusAction) (w : Watch) (again : Bool) :
    Alongside now Eq
      (do
        let (after, w) ← s.holdRound id deadline now actions w
        if again then after.holdRound id deadline now [] w else return (after, w))
      (do
        let (after, w) ← t.holdRound id deadline now actions w
        if again then after.holdRound id deadline now [] w else return (after, w)) := by
  apply (h.holdRound id deadline actions w).bind
  intro s' t' w' hagree
  cases again with
  | true => exact hagree.holdRound id deadline [] w'
  | false => exact .done hagree

theorem Agree.awaitFrom (h : Agree now s t) (id : RequestId) (deadline : Millis) (w : Watch)
    (rounds : List Round) :
    t.awaitFrom id deadline w now rounds = s.awaitFrom id deadline w now rounds := by
  induction rounds generalizing s t now w with
  | nil => rfl
  | cons round later ih =>
    have hthen := h.later (Nat.le_add_right now round.delay)
    have hheld := hthen.holdRounds id deadline round.actions w
      (!w.woken && (s.actAll (now + round.delay) id round.actions).2 &&
        later.head?.all fun next => 0 < next.delay)
    simp only [StatusStore.awaitFrom, (hthen.actAll id round.actions).2]
    split
    · rfl
    revert hheld
    generalize (do
      let (after, w) ← s.holdRound id deadline (now + round.delay) round.actions w
      _) = held, (do
      let (after, w) ← t.holdRound id deadline (now + round.delay) round.actions w
      _) = held'
    intro hheld
    cases hheld with
    | failed hwaited => exact hwaited.symm
    | done hagree => exact ih hagree _

/-- Who waits at either store is answered alike, whatever others do meanwhile. -/
theorem Agree.await (h : Agree now s t) (size : Nat) (id : RequestId) (most : Millis) (others : Schedule) :
    t.await size id now most others = s.await size id now most others := by
  simp only [StatusStore.await, h.get, h.awaitFrom]

end CouponIssuance.StatusStore
