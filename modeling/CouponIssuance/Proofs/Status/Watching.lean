import CouponIssuance.Status.Wait
/-!
# A wait, step by step

The rounds of a wait come down to three steps. Others carry out one action. A waiter that has been woken
looks at its record, before time goes on, and ends its wait or goes on with what it saw. A waiter that
has not been woken ends its wait when its time is up, with what it saw last. All that is proved about
waits is proved by cases of these steps.
-/
namespace CouponIssuance.StatusStore

/-- A wait goes on: `seen` is what the waiter saw last, and `woken` tells whether a record in the shard has
become terminal since. Others have `rest` still to do. -/
inductive Watching (id : RequestId) (deadline : Millis) :
    StatusStore → Millis → StatusRecord → Bool → Schedule → Waited → Prop
  | acted {s now seen woken delay action rest waited} (hprompt : woken = true → delay = 0)
      (hdue : now + delay ≤ deadline)
      (hrest : Watching id deadline (s.act (now + delay) action).1 (now + delay) seen
        (woken || s.wakes (now + delay) id action) rest waited) :
      Watching id deadline s now seen woken ((delay, action) :: rest) waited
  | looked {s now seen record rest waited} (hget : s.get now id = some record)
      (hlive : record.state.isTerminal = false) (hnow : now < deadline)
      (hrest : Watching id deadline s now record false rest waited) :
      Watching id deadline s now seen true rest waited
  | ended {s now seen rest}
      (hend : ∀ record, s.get now id = some record → record.state.isTerminal = true ∨ now = deadline)
      (hnow : now ≤ deadline) : Watching id deadline s now seen true rest ⟨s.get now id, now⟩
  | late {s now seen rest} (hnow : now ≤ deadline)
      (hnext : ∀ delay action later, rest = (delay, action) :: later → deadline ≤ now + delay) :
      Watching id deadline s now seen false rest ⟨some seen, deadline⟩

/-- A wait of at most `most` for the record of `id` comes out so: it ends at once, or it goes on from the
record that it finds. -/
inductive Waits (id : RequestId) (s : StatusStore) (now most : Millis) (others : Schedule) :
    Waited → Prop
  | atOnce (hend : ∀ record, s.get now id = some record → record.state.isTerminal = true) :
      Waits id s now most others ⟨s.get now id, now⟩
  | longer {record waited} (hget : s.get now id = some record)
      (hlive : record.state.isTerminal = false)
      (hwatching : Watching id (now + most) s now record false others waited) :
      Waits id s now most others waited

/-- What is done in a round, as a schedule. -/
def Round.schedule (round : Round) : Schedule :=
  match round.actions with
  | [] => []
  | action :: rest => (round.delay, action) :: rest.map fun action => (0, action)

/-- What is done in several rounds. -/
def unroll (rounds : List Round) : Schedule := rounds.flatMap Round.schedule

/-- Nothing is done in a round only if it is held at once. -/
def Paced (rounds : List Round) : Prop :=
  ∀ round ∈ rounds, round.actions = [] → round.delay = 0

private theorem schedule_at_once (actions : List StatusAction) :
    Round.schedule ⟨0, actions⟩ = actions.map fun action => (0, action) := by
  cases actions <;> rfl

private theorem unroll_splitRounds (size room : Nat) (others : Schedule) :
    ((splitRounds size room others).1.map fun action => (0, action)) ++
      unroll (splitRounds size room others).2 = others := by
  induction others generalizing room with
  | nil => rfl
  | cons step rest ih =>
    obtain ⟨delay, action⟩ := step
    unfold splitRounds
    split
    · next hnow =>
      obtain ⟨rfl, -⟩ : delay = 0 ∧ 0 < room := by simpa using hnow
      exact congrArg _ (ih (room - 1))
    · have hnext := congrArg ((delay, action) :: ·) (ih (size - 1))
      dsimp only
      split
      · exact hnext
      · exact hnext

private theorem paced_splitRounds (size room : Nat) (others : Schedule) :
    Paced (splitRounds size room others).2 := by
  induction others generalizing room with
  | nil => simp [Paced, splitRounds]
  | cons step rest ih =>
    obtain ⟨delay, action⟩ := step
    unfold splitRounds
    split
    · exact ih (room - 1)
    · have hlater := ih (size - 1)
      dsimp only
      split
      · intro round hround hempty
        rcases List.mem_cons.1 hround with rfl | hround
        · rfl
        · rcases List.mem_cons.1 hround with rfl | hround
          · cases hempty
          · exact hlater round hround hempty
      · intro round hround hempty
        rcases List.mem_cons.1 hround with rfl | hround
        · cases hempty
        · exact hlater round hround hempty

private theorem unroll_rounds (size : Nat) (others : Schedule) : unroll (rounds size others) = others := by
  show Round.schedule ⟨0, _⟩ ++ unroll _ = others
  rw [schedule_at_once]
  exact unroll_splitRounds ..

private theorem paced_rounds (size : Nat) (others : Schedule) : Paced (rounds size others) := by
  intro round hround hempty
  rcases List.mem_cons.1 hround with rfl | hround
  · rfl
  · exact paced_splitRounds _ _ _ round hround hempty

section Round

variable {id : RequestId} {deadline now : Millis} {s : StatusStore} {seen : StatusRecord}
  {woken : Bool} {rest : Schedule} {waited : Waited} {w : Watch}

theorem Watching.actAll {actions : List StatusAction} (hnow : now ≤ deadline)
    (h : Watching id deadline (s.actAll now id actions).1 now seen
      (woken || (s.actAll now id actions).2) rest waited) :
    Watching id deadline s now seen woken
      ((actions.map fun action => (0, action)) ++ rest) waited := by
  induction actions generalizing s woken with
  | nil => simpa [StatusStore.actAll] using h
  | cons action actions ih =>
    refine .acted (fun _ => rfl) hnow (ih ?_)
    rw [Bool.or_assoc]
    exact h

theorem Watching.round {round : Round} (hprompt : woken = true → round.delay = 0)
    (hpaced : round.actions = [] → round.delay = 0) (hdue : now + round.delay ≤ deadline)
    (h : Watching id deadline (s.actAll (now + round.delay) id round.actions).1 (now + round.delay)
      seen (woken || (s.actAll (now + round.delay) id round.actions).2) rest waited) :
    Watching id deadline s now seen woken (round.schedule ++ rest) waited := by
  obtain ⟨delay, actions⟩ := round
  cases actions with
  | nil =>
    obtain rfl := hpaced rfl
    show Watching id deadline s now seen woken rest waited
    simpa [StatusStore.actAll] using h
  | cons action actions =>
    refine .acted hprompt hdue (.actAll hdue ?_)
    rw [Bool.or_assoc]
    exact h

private theorem look_of_asleep (hwoken : w.woken = false) (hlive : w.seen.state.isTerminal = false) :
    s.look id deadline now w =
      if deadline ≤ now then .error ⟨some w.seen, now⟩ else .ok w := by
  obtain ⟨seen, woken, leads⟩ := w
  cases hwoken
  change seen.state.isTerminal = false at hlive
  simp [look, hlive]

private theorem watching_look (hnow : now ≤ deadline) (hlive : w.seen.state.isTerminal = false)
    (goOn : Watch → Waited)
    (h : ∀ seen, seen.state.isTerminal = false → now < deadline →
      Watching id deadline s now seen false rest (goOn { w with seen := seen, woken := false })) :
    Watching id deadline s now w.seen w.woken rest
      (match s.look id deadline now w with
        | .error waited => waited
        | .ok w => goOn w) := by
  obtain ⟨seen, woken, leads⟩ := w
  cases woken with
  | false =>
    rw [look_of_asleep rfl hlive]
    by_cases hover : deadline ≤ now
    · obtain rfl := Nat.le_antisymm hnow hover
      rw [if_pos hover]
      exact .late hnow fun delay _ _ _ => Nat.le_add_right ..
    · rw [if_neg hover]
      exact h seen hlive (Nat.lt_of_not_le hover)
  | true =>
    cases hget : s.get now id with
    | none =>
      have hlook : s.look id deadline now ⟨seen, true, leads⟩ = .error ⟨s.get now id, now⟩ := by
        simp [look, hget]
      rw [hlook]
      exact .ended (fun record hrecord => by rw [hget] at hrecord; cases hrecord) hnow
    | some record =>
      by_cases hend : record.state.isTerminal = true ∨ deadline ≤ now
      · have hlook : s.look id deadline now ⟨seen, true, leads⟩ = .error ⟨s.get now id, now⟩ := by
          simp [look, hget, hend]
        rw [hlook]
        refine .ended (fun record' hrecord => ?_) hnow
        rw [hget] at hrecord
        cases hrecord
        exact hend.imp_right (Nat.le_antisymm hnow)
      · have hlook : s.look id deadline now ⟨seen, true, leads⟩ = .ok ⟨record, false, leads⟩ := by
          simp only [not_or, Bool.not_eq_true, Nat.not_le] at hend
          simp [look, hget, hend]
        simp only [not_or, Bool.not_eq_true, Nat.not_le] at hend
        rw [hlook]
        exact .looked hget hend.1 hend.2 (h record hend.1 hend.2)

private theorem holdRound_of_led {actions : List StatusAction} (hleads : w.leads = true)
    (hwoken : w.woken = false) (hlive : w.seen.state.isTerminal = false) :
    s.holdRound id deadline now actions w =
      if deadline ≤ now then .error ⟨some w.seen, now⟩
      else .ok ((s.actAll now id actions).1,
        ⟨w.seen, (s.actAll now id actions).2, false⟩) := by
  simp only [holdRound, hleads, if_true, look_of_asleep hwoken hlive]
  split <;> rfl

private theorem holdRound_of_followed {actions : List StatusAction} (hleads : w.leads = false) :
    s.holdRound id deadline now actions w =
      match (s.actAll now id actions).1.look id deadline now
        { w with woken := w.woken || (s.actAll now id actions).2 } with
      | .error waited => .error waited
      | .ok w => .ok ((s.actAll now id actions).1, { w with leads := true }) := by
  simp only [holdRound, hleads, Bool.false_eq_true, if_false]
  cases look .. <;> rfl

private theorem watching_followed (actions : List StatusAction) (hleads : w.leads = false)
    (hnow : now ≤ deadline) (hlive : w.seen.state.isTerminal = false)
    (goOn : StatusStore → Watch → Waited)
    (h : ∀ seen, seen.state.isTerminal = false → now < deadline →
      Watching id deadline (s.actAll now id actions).1 now seen false rest
        (goOn (s.actAll now id actions).1 ⟨seen, false, true⟩)) :
    Watching id deadline (s.actAll now id actions).1 now w.seen
      (w.woken || (s.actAll now id actions).2) rest
      (match s.holdRound id deadline now actions w with
        | .error waited => waited
        | .ok (after, next) => goOn after next) := by
  rw [holdRound_of_followed hleads]
  generalize s.actAll now id actions = acted at h ⊢
  obtain ⟨after, woke⟩ := acted
  have hlook := watching_look (s := after) (w := { w with woken := w.woken || woke }) hnow hlive
    (fun w => goOn after { w with leads := true }) h
  dsimp only at hlook ⊢
  revert hlook
  cases after.look id deadline now { w with woken := w.woken || woke } <;> exact fun h => h

end Round

section Rounds

variable {id : RequestId} {deadline now : Millis} {s : StatusStore} {w : Watch}
  {round : Round} {later : List Round}

private theorem awaitFrom_cons_of_late (h : deadline < now + round.delay) :
    s.awaitFrom id deadline w now (round :: later) = ⟨some w.seen, deadline⟩ := by
  simp only [awaitFrom, if_pos h]

private theorem awaitFrom_cons (h : now + round.delay ≤ deadline) :
    s.awaitFrom id deadline w now (round :: later) =
      match s.holdRound id deadline (now + round.delay) round.actions w with
      | .error waited => waited
      | .ok (after, next) =>
        if (!w.woken && (s.actAll (now + round.delay) id round.actions).2) &&
            later.head?.all fun next => 0 < next.delay then
          match after.holdRound id deadline (now + round.delay) [] next with
          | .error waited => waited
          | .ok (after, next) => after.awaitFrom id deadline next (now + round.delay) later
        else after.awaitFrom id deadline next (now + round.delay) later := by
  simp only [awaitFrom, if_neg (Nat.not_lt.2 h)]
  cases s.holdRound id deadline (now + round.delay) round.actions w with
  | error waited => rfl
  | ok held =>
    obtain ⟨after, next⟩ := held
    dsimp only [bind, Except.bind, pure, Except.pure]
    generalize (!w.woken && (s.actAll (now + round.delay) id round.actions).2 &&
      later.head?.all fun next => decide (0 < next.delay)) = again
    cases again with
    | false => rfl
    | true => cases after.holdRound id deadline (now + round.delay) [] next <;> rfl

/-- How a waiter stands between two rounds: what it saw is not terminal, and if it has been woken, it looks in
the next round, at the same instant. -/
structure Watch.Ready (w : Watch) (rounds : List Round) : Prop where
  live : w.seen.state.isTerminal = false
  prompt : w.woken = true → w.leads = false ∧
    ∃ round later, rounds = round :: later ∧ round.delay = 0

private theorem Watch.ready_of_asleep {seen : StatusRecord} {leads : Bool}
    (hlive : seen.state.isTerminal = false) (rounds : List Round) :
    Ready ⟨seen, false, leads⟩ rounds :=
  ⟨hlive, fun h => by cases h⟩

private theorem Watch.Ready.delay_of_woken (h : w.Ready (round :: later)) (hwoken : w.woken = true) :
    round.delay = 0 := by
  obtain ⟨-, next, later', hnext, hdelay⟩ := h.prompt hwoken
  cases hnext
  exact hdelay

/-- A waiter is asleep unless it looks in the next round, at the same instant. -/
theorem Watch.Ready.asleep {rounds : List Round} (h : w.Ready rounds)
    (hnot : w.leads = false → ∀ round later, rounds = round :: later → round.delay ≠ 0) :
    w.woken = false := by
  cases hwoken : w.woken with
  | false => rfl
  | true =>
    obtain ⟨hleads, round, later, hnext, hdelay⟩ := h.prompt hwoken
    exact absurd hdelay (hnot hleads round later hnext)

private theorem delay_le_of_schedule {delay : Millis} {action : StatusAction} {rest following : Schedule}
    (hempty : round.actions = [] → round.delay = 0)
    (h : round.schedule ++ following = (delay, action) :: rest) : round.delay ≤ delay := by
  obtain ⟨wait, actions⟩ := round
  cases actions with
  | nil =>
    obtain rfl := hempty rfl
    exact Nat.zero_le delay
  | cons first actions =>
    cases h
    exact Nat.le_refl wait

private theorem watching_led (hready : w.Ready (round :: later)) (hleads : w.leads = true)
    (hempty : round.actions = [] → round.delay = 0) (hnow : now ≤ deadline)
    (hdue : now + round.delay ≤ deadline)
    (ih : ∀ {s w}, w.Ready later → Watching id deadline s (now + round.delay) w.seen w.woken
      (unroll later) (s.awaitFrom id deadline w (now + round.delay) later)) :
    Watching id deadline s now w.seen w.woken (round.schedule ++ unroll later)
      (s.awaitFrom id deadline w now (round :: later)) := by
  have hasleep := hready.asleep fun hfollows =>
    absurd (hfollows.symm.trans hleads) Bool.false_ne_true
  rw [awaitFrom_cons hdue, holdRound_of_led hleads hasleep hready.live, hasleep]
  by_cases hover : deadline ≤ now + round.delay
  · rw [if_pos hover, Nat.le_antisymm hdue hover]
    refine .late hnow fun delay action rest hrest => Nat.le_trans hover ?_
    exact Nat.add_le_add_left (delay_le_of_schedule hempty hrest) now
  · rw [if_neg hover]
    refine .round (fun h => by cases h) hempty hdue ?_
    generalize s.actAll (now + round.delay) id round.actions = acted
    obtain ⟨after, woke⟩ := acted
    dsimp only
    split
    · -- woken in the last round of the instant, it looks in another one
      have hlook := watching_followed (s := after) (w := ⟨w.seen, woke, false⟩) [] rfl hdue hready.live
        (fun after next => after.awaitFrom id deadline next (now + round.delay) later)
        fun seen hlive _ => ih (Watch.ready_of_asleep hlive later)
      rw [Bool.false_or]
      simpa only [actAll, Bool.or_false] using hlook
    · next hagain =>
      have hnext : Watch.Ready ⟨w.seen, woke, false⟩ later := by
        refine ⟨hready.live, fun hwoke => ⟨rfl, ?_⟩⟩
        change woke = true at hwoke
        cases later with
        | nil => simp [hwoke] at hagain
        | cons next later => exact ⟨next, later, rfl, by simpa [hwoke] using hagain⟩
      rw [Bool.false_or]
      exact ih hnext

private theorem watching_unled (hready : w.Ready (round :: later)) (hleads : w.leads = false)
    (hempty : round.actions = [] → round.delay = 0) (hdue : now + round.delay ≤ deadline)
    (ih : ∀ {s w}, w.Ready later → Watching id deadline s (now + round.delay) w.seen w.woken
      (unroll later) (s.awaitFrom id deadline w (now + round.delay) later)) :
    Watching id deadline s now w.seen w.woken (round.schedule ++ unroll later)
      (s.awaitFrom id deadline w now (round :: later)) := by
  rw [awaitFrom_cons hdue]
  refine .round hready.delay_of_woken hempty hdue ?_
  generalize (!w.woken && (s.actAll (now + round.delay) id round.actions).2 &&
    later.head?.all fun next => decide (0 < next.delay)) = again
  refine watching_followed round.actions hleads hdue hready.live
    (fun after next => if again then _ else _) fun seen hlive hbefore => ?_
  cases again with
  | false => exact ih (Watch.ready_of_asleep hlive later)
  | true =>
    rw [if_pos rfl, holdRound_of_led rfl rfl hlive, if_neg (Nat.not_le.2 hbefore)]
    exact ih (Watch.ready_of_asleep hlive later)

private theorem awaitFrom_watching (rounds : List Round) (hpaced : Paced rounds) (hnow : now ≤ deadline)
    (hready : w.Ready rounds) :
    Watching id deadline s now w.seen w.woken (unroll rounds)
      (s.awaitFrom id deadline w now rounds) := by
  -- from round to round, `Ready` carries that a waiter once woken looks before time goes on
  induction rounds generalizing s w now with
  | nil =>
    rw [hready.asleep fun _ round later hnext => by cases hnext]
    exact .late hnow fun delay action later h => by cases h
  | cons round later ih =>
    have hlater : Paced later := fun next hnext => hpaced next (List.mem_cons_of_mem _ hnext)
    have hempty := hpaced round (List.mem_cons_self ..)
    show Watching id deadline s now w.seen w.woken (round.schedule ++ unroll later) _
    by_cases hlate : deadline < now + round.delay
    · -- a waiter that is still asleep runs out of time before the round
      have hasleep : w.woken = false := by
        refine hready.asleep fun _ next rest hnext hdelay => ?_
        cases hnext
        rw [hdelay] at hlate
        exact absurd hnow (Nat.not_le.2 hlate)
      rw [awaitFrom_cons_of_late hlate, hasleep]
      refine .late hnow fun delay action rest hrest => Nat.le_trans (Nat.le_of_lt hlate) ?_
      exact Nat.add_le_add_left (delay_le_of_schedule hempty hrest) now
    · have hdue := Nat.not_lt.1 hlate
      cases hleads : w.leads with
      | true => exact watching_led hready hleads hempty hnow hdue fun h => ih hlater hdue h
      | false => exact watching_unled hready hleads hempty hdue fun h => ih hlater hdue h

theorem ended_or_live (s : StatusStore) (now : Millis) (id : RequestId) :
    (∀ record, s.get now id = some record → record.state.isTerminal = true) ∨
      ∃ record, s.get now id = some record ∧ record.state.isTerminal = false := by
  cases hget : s.get now id with
  | none => exact .inl fun record h => by cases h
  | some record =>
    cases hlive : record.state.isTerminal with
    | true => exact .inl fun record' h => by cases h; exact hlive
    | false => exact .inr ⟨record, rfl, hlive⟩

/-- A wait that does not end at once goes on from the record that it finds. -/
theorem await_watching {record : StatusRecord} (size : Nat) (most : Millis) (others : Schedule)
    (hget : s.get now id = some record) (hlive : record.state.isTerminal = false) :
    Watching id (now + most) s now record false others (s.await size id now most others) := by
  have hwatching : Watching id (now + most) s now record false (unroll (rounds size others))
      (s.awaitFrom id (now + most) ⟨record, false, true⟩ now (rounds size others)) :=
    awaitFrom_watching (rounds size others) (paced_rounds size others) (Nat.le_add_right now most)
      (Watch.ready_of_asleep hlive _)
  rw [unroll_rounds] at hwatching
  simpa [await, hget, hlive] using hwatching

theorem await_at_once {size : Nat} {most : Millis} (others : Schedule)
    (h : ∀ record, s.get now id = some record → record.state.isTerminal = true) :
    s.await size id now most others = ⟨s.get now id, now⟩ := by
  unfold await
  split
  · next hget => rw [hget]
  · next record hget => rw [if_pos (h record hget), hget]

theorem await_waits (s : StatusStore) (size : Nat) (id : RequestId) (now most : Millis)
    (others : Schedule) : Waits id s now most others (s.await size id now most others) := by
  rcases ended_or_live s now id with hend | ⟨record, hget, hlive⟩
  · rw [await_at_once others hend]
    exact .atOnce hend
  · exact .longer hget hlive (await_watching size most others hget hlive)

end Rounds

end CouponIssuance.StatusStore
