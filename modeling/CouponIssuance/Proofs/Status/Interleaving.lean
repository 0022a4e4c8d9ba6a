import CouponIssuance.Proofs.Status.Action
import CouponIssuance.Proofs.Status.Watching
import CouponIssuance.Proofs.Table.Writing
import CouponIssuance.Status.Interleaving
/-!
# How a wait comes out

However the steps of a waiter and of others interleave, the wait comes to an end. As long as the record
has not ended, the waiter saw it without an end. From when the record has ended, a waiter that is asleep
has been told or will be, and it is told before time goes on.
-/
namespace CouponIssuance.StatusStore

/-- When and as what the record of a request is terminal for the first time, if others do this. -/
def endOf? (id : RequestId) (s : StatusStore) (now : Millis) :
    Schedule → Option (Millis × StatusRecord)
  | [] => none
  | (delay, action) :: rest =>
    let after := (s.act (now + delay) action).1
    match (after.held? id).filter fun e => e.record.state.isTerminal with
    | some e => some (now + delay, e.record)
    | none => endOf? id after (now + delay) rest

section EndOf

variable {s : StatusStore} {now delay duration instant : Millis} {id : RequestId} {e : StatusEntry}
  {action : StatusAction} {rest others : Schedule} {record : StatusRecord}

theorem endOf?_cons_of_ended (delay : Millis)
    (hheld : (s.act (now + delay) action).1.held? id = some e)
    (hend : e.record.state.isTerminal = true) :
    s.endOf? id now ((delay, action) :: rest) = some (now + delay, e.record) := by
  simp [endOf?, hheld, Option.filter, hend]

theorem endOf?_cons_of_open (delay : Millis)
    (hheld : (s.act (now + delay) action).1.held? id = some e)
    (hlive : e.record.state.isTerminal = false) :
    s.endOf? id now ((delay, action) :: rest) =
      endOf? id (s.act (now + delay) action).1 (now + delay) rest := by
  simp [endOf?, hheld, Option.filter, hlive]

private theorem le_of_endOf? (h : s.endOf? id now others = some (instant, record)) :
    now ≤ instant := by
  induction others generalizing s now with
  | nil => cases h
  | cons step rest ih =>
    obtain ⟨delay, action⟩ := step
    simp only [endOf?] at h
    split at h
    · cases h
      exact Nat.le_add_right now delay
    · exact Nat.le_trans (Nat.le_add_right now delay) (ih h)

private theorem endOf?_sooner
    (h : ∀ delay action later, others = (delay, action) :: later → duration ≤ delay) :
    s.endOf? id (now + duration) (others.sooner duration) = s.endOf? id now others := by
  cases others with
  | nil => rfl
  | cons step later =>
    obtain ⟨delay, action⟩ := step
    have hinstant : now + duration + (delay - duration) = now + delay := by
      rw [Nat.add_assoc, Nat.add_sub_cancel' (h delay action later rfl)]
    simp only [Schedule.sooner, endOf?, hinstant]

end EndOf

private theorem home_transition {s s' : StatusStore} {now : Millis} {moved : RequestId} {next : RequestState}
    {change : StatusRecord → StatusRecord} {record : StatusRecord}
    (h : s.transition now moved next change = .ok (s', record)) (id : RequestId) :
    s'.entries.home id = s.entries.home id := by
  obtain ⟨e, -, -, hmoved⟩ := transition_eq_ok h
  obtain ⟨rfl, -⟩ := Prod.mk.inj hmoved
  exact Sharded.home_insert ..

/-- An action leaves every record in its shard. -/
@[simp] theorem home_act (s : StatusStore) (now : Millis) (a : StatusAction) (id : RequestId) :
    (s.act now a).1.entries.home id = s.entries.home id := by
  cases a with
  | put record => exact Sharded.home_insert ..
  | advance moved next =>
    cases hadvance : s.advance now moved next with
    | error why => simp only [act, hadvance]
    | ok result =>
      simp only [act, hadvance]
      exact home_transition hadvance id
  | resolve moved resolution =>
    cases hresolve : s.resolve now moved resolution with
    | error why => simp only [act, hresolve]
    | ok result =>
      simp only [act, hresolve]
      exact home_transition hresolve id
  | remove removed => exact Sharded.home_erase ..
  | purge => exact Sharded.home_filter ..
  | get | count => rfl

namespace Scene

variable {id : RequestId} {deadline : Millis} {n : Nat} {c c' last : Scene}
  {record ending seen : StatusRecord} {waited : Waited}

/-- What a waiter has still to do, at most. -/
def effort : Waiter → Nat
  | .outside => 3
  | .signedUp told => if told then 5 else 2
  | .asleep _ told => if told then 4 else 1
  | .left _ => 0

/-- How many steps there can still be at most. An action may bring an announcement, and that may wake
the waiter. -/
def size (deadline : Millis) (c : Scene) : Nat :=
  5 * c.others.length + 4 * c.unannounced.length + effort c.waiter + (deadline - c.now)

private theorem effort_tell (w : Waiter) : effort w.tell ≤ effort w + 3 := by
  rcases w with - | ⟨_ | _⟩ | ⟨_, _ | _⟩ | _ <;> simp [Waiter.tell, effort]

private theorem length_sooner (duration : Millis) (others : Schedule) :
    (others.sooner duration).length = others.length := by
  cases others <;> rfl

private theorem Step.size_lt (h : Step id deadline c c') : c'.size deadline < c.size deadline := by
  cases h with
  | signedUp hw => simp [size, effort, hw]
  | @read told hw => cases told <;> simp [size, effort, hw]
  | @slept told _ hw => cases told <;> simp [size, effort, hw]
  | woken hw => simp [size, effort, hw]
  | gaveUp hw => simp [size, effort, hw]
  | @acted action later hothers =>
    have hone : (c.store.settled? c.now action).toList.length ≤ 1 := by
      cases c.store.settled? c.now action <;> simp
    simp only [size, act, hothers, List.length_append, List.length_cons]
    omega
  | @announced before request after hpending =>
    have htell := effort_tell c.waiter
    simp only [size, announce, hpending, List.length_append, List.length_cons]
    split <;> omega
  | passed hw _ hpos _ hover =>
    have hlater := Nat.lt_add_of_pos_right (n := c.now) hpos
    simp only [size, pass, length_sooner]
    exact Nat.add_lt_add_left (Nat.sub_lt_sub_left (Nat.lt_of_lt_of_le hlater hover) hlater) _

theorem Steps.length_le (h : Steps id deadline n c last) : n ≤ c.size deadline := by
  induction h with
  | none => exact Nat.zero_le _
  | more hstep _ ih => exact Nat.lt_of_le_of_lt ih hstep.size_lt

theorem size_start (s : StatusStore) (now most : Millis) (others : Schedule) :
    (start s now others).size (now + most) = 5 * others.length + most + 3 := by
  have hmost : now + most - now = most := Nat.add_sub_cancel_left ..
  simp only [size, start, effort, List.length_nil, hmost]
  exact Nat.add_right_comm ..

/-- As long as the waiter is there, somebody can do something, if only let time pass. -/
theorem exists_step (c : Scene) (hin : ∀ waited, c.waiter ≠ .left waited) :
    ∃ c', Step id deadline c c' := by
  cases hw : c.waiter with
  | outside => exact ⟨_, .signedUp hw⟩
  | signedUp told =>
    rcases ended_or_live c.store c.now id with hend | ⟨record, hget, hlive⟩
    · exact ⟨_, .read hw hend⟩
    · exact ⟨_, .slept hw hget hlive⟩
  | asleep seen told =>
    cases told with
    | true => exact ⟨_, .woken hw⟩
    | false =>
      cases hpending : c.unannounced with
      | cons request rest =>
        have hfirst : c.unannounced = [] ++ request :: rest := hpending
        exact ⟨_, .announced hfirst⟩
      | nil =>
        rcases Nat.lt_or_ge c.now deadline with hearly | hover
        · have hleft : 0 < deadline - c.now := Nat.sub_pos_of_lt hearly
          have hend : c.now + (deadline - c.now) = deadline :=
            Nat.add_sub_cancel' (Nat.le_of_lt hearly)
          cases hothers : c.others with
          | nil =>
            refine ⟨c.pass (deadline - c.now), .passed hw hpending hleft ?_ (Nat.le_of_eq hend)⟩
            intro delay action later hnext
            rw [hothers] at hnext
            cases hnext
          | cons step later =>
            obtain ⟨delay, action⟩ := step
            rcases Nat.eq_zero_or_pos delay with rfl | hdelay
            · exact ⟨_, .acted hothers⟩
            · refine ⟨c.pass (min delay (deadline - c.now)), .passed hw hpending
                (Nat.lt_min.2 ⟨hdelay, hleft⟩) ?_ ?_⟩
              · intro delay' action' later' hnext
                rw [hothers] at hnext
                cases hnext
                exact Nat.min_le_left ..
              · exact Nat.le_trans (Nat.add_le_add_left (Nat.min_le_right ..) _) (Nat.le_of_eq hend)
        · exact ⟨_, .gaveUp hw hover⟩
  | left waited => exact absurd hw (hin waited)

/-- Time does not go on beyond the deadline. -/
private structure Bounded (deadline : Millis) (c : Scene) : Prop where
  now : c.now ≤ deadline
  left : ∀ waited, c.waiter = .left waited → waited.endedAt ≤ deadline

private theorem waiter_of_announce {request : RequestId} {rest : List RequestId}
    (h : (c.announce id request rest).waiter = .left waited) : c.waiter = .left waited := by
  simp only [announce] at h
  split at h
  · cases hwaiter : c.waiter <;> rw [hwaiter] at h <;> cases h
    rfl
  · exact h

private theorem Bounded.step (h : Bounded deadline c) (hstep : Step id deadline c c') :
    Bounded deadline c' := by
  obtain ⟨hnow, hleft⟩ := h
  cases hstep with
  | signedUp | slept | woken => exact ⟨hnow, fun _ h => by cases h⟩
  | read | gaveUp => exact ⟨hnow, fun _ h => by cases h; exact hnow⟩
  | acted => exact ⟨hnow, hleft⟩
  | announced => exact ⟨hnow, fun waited h => hleft waited (waiter_of_announce h)⟩
  | passed hw _ _ _ hover =>
    refine ⟨hover, fun waited h => ?_⟩
    cases hw.symm.trans (show c.waiter = .left waited from h)

private theorem Bounded.steps (h : Bounded deadline c) (hsteps : Steps id deadline n c last) :
    Bounded deadline last := by
  induction hsteps with
  | none => exact h
  | more hstep _ ih => exact ih (h.step hstep)

theorem endedAt_le {s : StatusStore} {now : Millis} {others : Schedule} (hnow : now ≤ deadline)
    (h : Steps id deadline n (start s now others) last) (hleft : last.waiter = .left waited) :
    waited.endedAt ≤ deadline :=
  (Bounded.steps ⟨hnow, fun _ h => by cases h⟩ h).left waited hleft

/-- A waiter is there, what it saw had not ended, and the others do not overwrite its record. -/
structure Attended (id : RequestId) (deadline : Millis) (c : Scene) : Prop where
  now : c.now ≤ deadline
  here : ∀ waited, c.waiter ≠ .left waited
  seen : ∀ seen told, c.waiter = .asleep seen told →
    seen.request = id ∧ seen.state.isTerminal = false
  keeps : ∀ step ∈ c.others, ¬ step.2.Overwrites id

/-- The record has not ended. -/
structure Open (id : RequestId) (deadline : Millis) (record : StatusRecord) (c : Scene) : Prop
    extends Attended id deadline c where
  held : c.store.held? id = some ⟨record, none⟩
  named : record.request = id
  live : record.state.isTerminal = false

/-- The record has just ended. A waiter that was asleep then has been told, or will be. -/
structure Ended (id : RequestId) (deadline : Millis) (ending : StatusRecord) (c : Scene) : Prop
    extends Attended id deadline c where
  held : c.store.held? id = some ⟨ending, some c.now⟩
  ended : ending.state.isTerminal = true
  told : ∀ seen, c.waiter = .asleep seen false →
    ∃ request ∈ c.unannounced, c.store.entries.home request = c.store.entries.home id

/-- The time of a wait is up, and it tells a record of `id` that had not ended. -/
def Expired (id : RequestId) (deadline : Millis) (waited : Waited) : Prop :=
  waited.endedAt = deadline ∧
    ∃ last, waited.record = some last ∧ last.request = id ∧ last.state.isTerminal = false

private theorem Attended.signUp (h : Attended id deadline c) (told : Bool) :
    Attended id deadline { c with waiter := .signedUp told } :=
  ⟨h.now, fun _ hw => (by cases hw), fun _ _ hw => (by cases hw), h.keeps⟩

private theorem Attended.leave (h : Attended id deadline c) :
    Attended id deadline { c with waiter := .outside } :=
  ⟨h.now, fun _ hw => (by cases hw), fun _ _ hw => (by cases hw), h.keeps⟩

private theorem Attended.sleep (h : Attended id deadline c) {told : Bool} (hseen : seen.request = id)
    (hlive : seen.state.isTerminal = false) :
    Attended id deadline { c with waiter := .asleep seen told } :=
  ⟨h.now, fun _ hw => (by cases hw), fun _ _ hw => (by cases hw; exact ⟨hseen, hlive⟩), h.keeps⟩

private theorem Attended.act {action : StatusAction} {later : Schedule} (h : Attended id deadline c)
    (hothers : c.others = (0, action) :: later) : Attended id deadline (c.act action later) :=
  ⟨h.now, h.here, h.seen, fun step hstep =>
    h.keeps step (hothers ▸ List.mem_cons_of_mem _ hstep)⟩

private theorem exists_seen_of_announce {request : RequestId} {rest : List RequestId} {told : Bool}
    (h : (c.announce id request rest).waiter = .asleep seen told) :
    ∃ told, c.waiter = .asleep seen told := by
  simp only [announce] at h
  split at h
  · cases hwaiter : c.waiter <;> rw [hwaiter] at h <;> cases h
    exact ⟨_, rfl⟩
  · exact ⟨told, h⟩

private theorem Attended.announce {request : RequestId} {rest : List RequestId}
    (h : Attended id deadline c) : Attended id deadline (c.announce id request rest) := by
  refine ⟨h.now, fun waited hw => h.here waited (waiter_of_announce hw), fun seen told hw => ?_,
    h.keeps⟩
  obtain ⟨told, hbefore⟩ := exists_seen_of_announce hw
  exact h.seen seen told hbefore

private theorem Attended.pass {duration : Millis} (h : Attended id deadline c)
    (hover : c.now + duration ≤ deadline) : Attended id deadline (c.pass duration) := by
  refine ⟨hover, h.here, h.seen, fun step hstep => ?_⟩
  change step ∈ c.others.sooner duration at hstep
  cases hothers : c.others with
  | nil =>
    rw [hothers] at hstep
    cases hstep
  | cons next later =>
    rw [hothers] at hstep
    rcases List.mem_cons.1 hstep with rfl | hlater
    · exact h.keeps next (hothers ▸ List.mem_cons_self ..)
    · exact h.keeps step (hothers ▸ List.mem_cons_of_mem _ hlater)

/-- Before the record has ended, a step leaves it so, ends it, or ends the wait since its time is up. -/
private theorem Open.step (h : Open id deadline record c) (hstep : Step id deadline c c') :
    (∃ next, Open id deadline next c' ∧
      endOf? id c'.store c'.now c'.others = endOf? id c.store c.now c.others) ∨
    (∃ ending, Ended id deadline ending c' ∧
      endOf? id c.store c.now c.others = some (c'.now, ending)) ∨
    ∃ waited, c'.waiter = .left waited ∧ Expired id deadline waited ∧ c.now = deadline := by
  have hget : c.store.get c.now id = some record := get_of_unresolved h.held
  cases hstep with
  | signedUp hw => exact .inl ⟨record, ⟨h.signUp false, h.held, h.named, h.live⟩, rfl⟩
  | read hw hend =>
    have hended := hend record hget
    rw [h.live] at hended
    cases hended
  | slept hw hshown hlive =>
    cases hget.symm.trans hshown
    exact .inl ⟨record, ⟨h.sleep h.named h.live, h.held, h.named, h.live⟩, rfl⟩
  | woken hw => exact .inl ⟨record, ⟨h.leave, h.held, h.named, h.live⟩, rfl⟩
  | @gaveUp seen hw hover =>
    have hdeadline := Nat.le_antisymm h.now hover
    obtain ⟨hname, hlive⟩ := h.seen seen false hw
    exact .inr (.inr ⟨_, rfl, ⟨hdeadline, seen, rfl, hname, hlive⟩, hdeadline⟩)
  | @acted action later hothers =>
    have hfirst := h.keeps _ (hothers ▸ List.mem_cons_self ..)
    obtain ⟨next, hsame, ⟨hnext, hopen⟩ | ⟨hnext, hend, hwakes⟩⟩ :=
      act_of_open c.now h.held h.live hfirst
    · refine .inl ⟨next, ⟨h.act hothers, hnext, hsame.trans h.named, hopen⟩, ?_⟩
      rw [hothers]
      exact (endOf?_cons_of_open 0 hnext hopen).symm
    · refine .inr (.inl ⟨next, ⟨h.act hothers, hnext, hend, fun seen _ => ?_⟩, ?_⟩)
      · -- whoever ends a record announces that in its shard
        obtain ⟨request, hsettled, hhome⟩ := (Option.any_eq_true _ _).1 hwakes
        refine ⟨request, List.mem_append_right _ (Option.mem_toList.2 hsettled), ?_⟩
        simpa only [act, home_act, decide_eq_true_eq] using hhome
      · rw [hothers]
        exact endOf?_cons_of_ended 0 hnext hend
  | announced => exact .inl ⟨record, ⟨h.announce, h.held, h.named, h.live⟩, rfl⟩
  | passed hw _ _ hnext hover =>
    exact .inl ⟨record, ⟨h.pass hover, h.held, h.named, h.live⟩, endOf?_sooner hnext⟩

/-- Once the record has ended, no time goes on until the waiter has been told. -/
private theorem Ended.step (h : Ended id deadline ending c) (hstep : Step id deadline c c') :
    (Ended id deadline ending c' ∧ c'.now = c.now) ∨
    ∃ waited, c'.waiter = .left waited ∧
      (waited = ⟨some ending, c.now⟩ ∨ Expired id deadline waited ∧ c.now = deadline) := by
  have hget : c.store.get c.now id = some ending := by
    rw [get_of_held? h.held, StatusEntry.isExpired_at_once, if_neg Bool.false_ne_true]
  cases hstep with
  | signedUp hw => exact .inl ⟨⟨h.signUp false, h.held, h.ended, fun _ hw => (by cases hw)⟩, rfl⟩
  | read hw hend => exact .inr ⟨_, rfl, .inl (by rw [hget])⟩
  | slept hw hshown hlive =>
    cases hget.symm.trans hshown
    rw [h.ended] at hlive
    cases hlive
  | woken hw => exact .inl ⟨⟨h.leave, h.held, h.ended, fun _ hw => (by cases hw)⟩, rfl⟩
  | @gaveUp seen hw hover =>
    have hdeadline := Nat.le_antisymm h.now hover
    obtain ⟨hname, hlive⟩ := h.seen seen false hw
    exact .inr ⟨_, rfl, .inr ⟨⟨hdeadline, seen, rfl, hname, hlive⟩, hdeadline⟩⟩
  | @acted action later hothers =>
    have hfirst := h.keeps _ (hothers ▸ List.mem_cons_self ..)
    refine .inl ⟨⟨h.act hothers, act_of_ended h.held h.ended hfirst, h.ended, fun seen hw => ?_⟩,
      rfl⟩
    obtain ⟨request, hpending, hhome⟩ := h.told seen hw
    refine ⟨request, List.mem_append_left _ hpending, ?_⟩
    simpa only [act, home_act] using hhome
  | @announced before request after hpending =>
    refine .inl ⟨⟨h.announce, h.held, h.ended, fun seen hw => ?_⟩, rfl⟩
    simp only [announce] at hw ⊢
    split at hw
    · cases hwaiter : c.waiter <;> rw [hwaiter] at hw <;> cases hw
    · next hother =>
      obtain ⟨told, hmem, hhome⟩ := h.told seen hw
      rw [hpending, List.mem_append, List.mem_cons] at hmem
      rcases hmem with hbefore | rfl | hafter
      · exact ⟨told, List.mem_append_left _ hbefore, hhome⟩
      · exact absurd hhome hother
      · exact ⟨told, List.mem_append_right _ hafter, hhome⟩
  | passed hw hquiet =>
    obtain ⟨request, hpending, -⟩ := h.told _ hw
    rw [hquiet] at hpending
    cases hpending

private theorem left_step (hleft : c.waiter = .left waited) (hstep : Step id deadline c c') :
    c'.waiter = .left waited := by
  cases hstep with
  | signedUp hw | read hw | slept hw | woken hw | gaveUp hw | passed hw => cases hleft.symm.trans hw
  | acted => exact hleft
  | announced => simp [announce, hleft, Waiter.tell]

private theorem left_steps (hsteps : Steps id deadline n c last) (hleft : c.waiter = .left waited) :
    last.waiter = .left waited := by
  induction hsteps with
  | none => exact hleft
  | more hstep _ ih => exact ih (left_step hleft hstep)

private theorem Ended.steps (h : Ended id deadline ending c) (hsteps : Steps id deadline n c last)
    (hleft : last.waiter = .left waited) :
    waited = ⟨some ending, c.now⟩ ∨ Expired id deadline waited ∧ c.now = deadline := by
  induction hsteps with
  | none => exact absurd hleft (h.here waited)
  | more hstep hmore ih =>
    rcases h.step hstep with ⟨hnext, hnow⟩ | ⟨waited', hout, htold⟩
    · rw [← hnow]
      exact ih hnext hleft
    · cases (left_steps hmore hout).symm.trans hleft
      exact htold

/-- A wait for a record that has not ended ends when the record does, with the record as it ended; or
its time is up, and it tells a record that had not ended. -/
theorem Open.steps (h : Open id deadline record c) (hsteps : Steps id deadline n c last)
    (hleft : last.waiter = .left waited) :
    (∃ instant, ∃ ending, endOf? id c.store c.now c.others = some (instant, ending) ∧
      instant ≤ deadline ∧ waited = ⟨some ending, instant⟩) ∨
    (∀ instant ending, endOf? id c.store c.now c.others = some (instant, ending) →
      deadline ≤ instant) ∧ Expired id deadline waited := by
  induction hsteps generalizing record with
  | none => exact absurd hleft (h.here waited)
  | more hstep hmore ih =>
    rcases h.step hstep with ⟨next, hnext, hsame⟩ | ⟨ending, hended, hends⟩ | ⟨waited', hout, htold, hup⟩
    · rw [← hsame]
      exact ih hnext hleft
    · rw [hends]
      rcases hended.steps hmore hleft with htold | ⟨htold, hup⟩
      · exact .inl ⟨_, ending, rfl, hended.now, htold⟩
      · refine .inr ⟨fun instant ending' h => ?_, htold⟩
        cases h
        exact Nat.le_of_eq hup.symm
    · cases (left_steps hmore hout).symm.trans hleft
      exact .inr ⟨fun instant ending hends => hup ▸ le_of_endOf? hends, htold⟩

theorem open_start {s : StatusStore} {now most : Millis} {others : Schedule}
    (hheld : s.held? id = some ⟨record, none⟩) (hname : record.request = id)
    (hlive : record.state.isTerminal = false) (hkeeps : ∀ step ∈ others, ¬ step.2.Overwrites id) :
    Open id (now + most) record (start s now others) where
  now := Nat.le_add_right now most
  here _ h := by cases h
  seen _ _ h := by cases h
  keeps := hkeeps
  held := hheld
  named := hname
  live := hlive

/-- In some order of the steps, a wait tells this. -/
def Yields (id : RequestId) (deadline : Millis) (c : Scene) (waited : Waited) : Prop :=
  ∃ n last, Steps id deadline n c last ∧ last.waiter = .left waited

private theorem Yields.of_left (h : c.waiter = .left waited) : Yields id deadline c waited :=
  ⟨0, c, .none c, h⟩

private theorem Yields.of_step (hstep : Step id deadline c c') (h : Yields id deadline c' waited) :
    Yields id deadline c waited := by
  obtain ⟨n, last, hsteps, hleft⟩ := h
  exact ⟨n + 1, last, .more hstep hsteps, hleft⟩

section Rounds

variable {s : StatusStore} {now delay most : Millis} {action : StatusAction} {rest others : Schedule}
  {woken told : Bool}

private theorem yields_of_passed (h : now + delay ≤ deadline)
    (hyields : Yields id deadline ⟨s, now + delay, .asleep seen false, [], (0, action) :: rest⟩
      waited) :
    Yields id deadline ⟨s, now, .asleep seen false, [], (delay, action) :: rest⟩ waited := by
  rcases Nat.eq_zero_or_pos delay with rfl | hdelay
  · exact hyields
  · refine .of_step (.passed rfl rfl hdelay (fun delay' action' later' hnext => ?_) h) ?_
    · cases hnext
      exact Nat.le_refl _
    · simpa only [pass, Schedule.sooner, Nat.sub_self] using hyields

private theorem yields_of_acted
    (hyields : Yields id deadline ⟨(s.act now action).1, now,
      .asleep seen (woken || s.wakes now id action), [], rest⟩ waited) :
    Yields id deadline ⟨s, now, .asleep seen woken, [], (0, action) :: rest⟩ waited := by
  refine .of_step (.acted rfl) ?_
  cases hsettled : s.settled? now action with
  | none =>
    have hquiet : s.wakes now id action = false := by simp [wakes, hsettled]
    rw [hquiet, Bool.or_false] at hyields
    simpa only [act, hsettled, Option.toList, List.append_nil] using hyields
  | some request =>
    have hpending : (act ⟨s, now, .asleep seen woken, [], (0, action) :: rest⟩ action rest).unannounced =
        [] ++ request :: [] := by
      simp only [act, hsettled, Option.toList]
    refine .of_step (.announced hpending) ?_
    have hwakes : s.wakes now id action =
        decide (s.entries.home request = s.entries.home id) := by simp [wakes, hsettled]
    rw [hwakes] at hyields
    simp only [announce, act, home_act, List.append_nil]
    by_cases hhome : s.entries.home request = s.entries.home id
    · simpa only [hhome, decide_true, Bool.or_true, if_true, Waiter.tell] using hyields
    · simpa only [hhome, decide_false, Bool.or_false, if_false] using hyields

private theorem yields_of_woken
    (hyields : Yields id deadline ⟨s, now, .signedUp false, [], rest⟩ waited) :
    Yields id deadline ⟨s, now, .asleep seen true, [], rest⟩ waited :=
  .of_step (.woken rfl) (.of_step (.signedUp rfl) hyields)

private theorem yields_at_once
    (h : ∀ record, s.get now id = some record → record.state.isTerminal = true) :
    Yields id deadline ⟨s, now, .signedUp told, [], rest⟩ ⟨s.get now id, now⟩ :=
  .of_step (.read rfl h) (.of_left rfl)

private theorem yields_of_late (hnow : now ≤ deadline)
    (hnext : ∀ delay action later, rest = (delay, action) :: later → deadline ≤ now + delay) :
    Yields id deadline ⟨s, now, .asleep seen false, [], rest⟩ ⟨some seen, deadline⟩ := by
  have hover : now + (deadline - now) = deadline := Nat.add_sub_cancel' hnow
  rcases Nat.eq_or_lt_of_le hnow with rfl | hearly
  · exact .of_step (.gaveUp rfl (Nat.le_refl _)) (.of_left rfl)
  · refine .of_step (.passed rfl rfl (Nat.sub_pos_of_lt hearly) (fun delay action later h => ?_)
      (Nat.le_of_eq hover)) (.of_step (.gaveUp rfl (Nat.le_of_eq hover.symm)) (.of_left ?_))
    · exact Nat.sub_le_iff_le_add'.2 (hnext delay action later h)
    · simp only [pass, hover]

private theorem yields_of_watching
    (h : Watching id deadline s now seen woken rest waited) :
    Yields id deadline ⟨s, now, .asleep seen woken, [], rest⟩ waited := by
  induction h with
  | @acted s now seen woken delay action rest waited hprompt hdue hrest ih =>
    cases woken with
    | true =>
      obtain rfl := hprompt rfl
      exact yields_of_acted ih
    | false => exact yields_of_passed hdue (yields_of_acted ih)
  | looked hget hlive hnow hrest ih => exact yields_of_woken (.of_step (.slept rfl hget hlive) ih)
  | @ended s now seen rest hend hnow =>
    refine yields_of_woken ?_
    rcases ended_or_live s now id with hgone | ⟨record, hget, hlive⟩
    · exact yields_at_once hgone
    · rcases hend record hget with hended | hover
      · rw [hlive] at hended
        cases hended
      · rw [hget]
        exact .of_step (.slept rfl hget hlive)
          (.of_step (.gaveUp rfl (Nat.le_of_eq hover.symm)) (hover ▸ .of_left rfl))
  | late hnow hnext => exact yields_of_late hnow hnext

theorem yields_of_waits (h : Waits id s now most others waited) :
    Yields id (now + most) (start s now others) waited := by
  cases h with
  | atOnce hend => exact .of_step (.signedUp rfl) (yields_at_once hend)
  | longer hget hlive hwatching =>
    exact .of_step (.signedUp rfl) (.of_step (.slept rfl hget hlive) (yields_of_watching hwatching))

end Rounds

end Scene
end CouponIssuance.StatusStore
