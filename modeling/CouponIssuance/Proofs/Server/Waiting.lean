import CouponIssuance.Proofs.LastLook
import CouponIssuance.Proofs.Server.Events
import CouponIssuance.Proofs.Service.Answers
import CouponIssuance.Proofs.Status.Interleaving
/-!
# Asking a server for a status

Who asks a server to wait for the end of a request is told what a wait tells while the workers and the
sweeper do what they do to the records meanwhile. A turn of a worker ends a request or does nothing to
its record, so there is nothing that a wait could see too late.
-/
namespace CouponIssuance

namespace StatusStore

variable {s : StatusStore} {now most deadline : Millis} {id : RequestId} {e : StatusEntry}
  {record seen : StatusRecord} {woken : Bool} {others rest : Schedule} {actions : List StatusAction}
  {waited : Waited}

/-- The record of a request stays as it is all the while. -/
def Undisturbed (id : RequestId) (e : StatusEntry) (s : StatusStore) (now : Millis) : Schedule → Prop
  | [] => True
  | (delay, action) :: rest =>
    (s.act (now + delay) action).1.held? id = some e ∧
      Undisturbed id e (s.act (now + delay) action).1 (now + delay) rest

private theorem Watching.of_undisturbed (h : Watching id deadline s now seen woken rest waited)
    (hheld : s.held? id = some ⟨seen, none⟩) (hlive : seen.state.isTerminal = false)
    (hrest : Undisturbed id ⟨seen, none⟩ s now rest) : waited = ⟨some seen, deadline⟩ := by
  induction h with
  | acted _ _ _ ih => exact ih hrest.1 hlive hrest.2
  | looked hget _ _ _ ih =>
    cases (get_of_unresolved hheld).symm.trans hget
    exact ih hheld hlive hrest
  | ended hend =>
    rw [get_of_unresolved hheld]
    rcases hend _ (get_of_unresolved hheld) with hended | rfl
    · rw [hlive] at hended
      cases hended
    · rfl
  | late => rfl

private theorem await_of_undisturbed (size : Nat) (hheld : s.held? id = some ⟨record, none⟩)
    (hlive : record.state.isTerminal = false)
    (hothers : Undisturbed id ⟨record, none⟩ s now others) :
    s.await size id now most others = ⟨some record, now + most⟩ :=
  (await_watching size most others (get_of_unresolved hheld) hlive).of_undisturbed hheld hlive hothers

private theorem await_of_endOf? {instant : Millis} {ending : StatusRecord} (size : Nat)
    (hheld : s.held? id = some ⟨record, none⟩) (hname : record.request = id)
    (hlive : record.state.isTerminal = false) (hkeeps : ∀ step ∈ others, ¬ step.2.Overwrites id)
    (hends : s.endOf? id now others = some (instant, ending)) (hintime : instant < now + most) :
    s.await size id now most others = ⟨some ending, instant⟩ := by
  obtain ⟨n, last, hsteps, hleft⟩ := Scene.yields_of_waits (s.await_waits size id now most others)
  rcases (Scene.open_start hheld hname hlive hkeeps).steps hsteps hleft with
    ⟨instant', ending', hends', -, hwaited⟩ | ⟨hlate, -⟩
  · cases hends.symm.trans hends'
    exact hwaited
  · exact absurd hintime (Nat.not_lt.2 (hlate instant ending hends))

private theorem Undisturbed.at_once (h : Undisturbed id e s now (actions.map (fun a => (0, a))))
    (hrest : Undisturbed id e (s.afterAll now actions) now rest) :
    Undisturbed id e s now (actions.map (fun a => (0, a)) ++ rest) := by
  induction actions generalizing s with
  | nil => exact hrest
  | cons a actions ih => exact ⟨h.1, ih h.2 hrest⟩

private theorem Undisturbed.endOf?_at_once (h : Undisturbed id e s now (actions.map (fun a => (0, a))))
    (hlive : e.record.state.isTerminal = false) :
    s.endOf? id now (actions.map (fun a => (0, a)) ++ rest) =
      (s.afterAll now actions).endOf? id now rest := by
  induction actions generalizing s with
  | nil => rfl
  | cons a actions ih => exact (endOf?_cons_of_open 0 h.1 hlive).trans (ih h.2)

private theorem Undisturbed.held?_afterAll (h : Undisturbed id e s now (actions.map (fun a => (0, a))))
    (hheld : s.held? id = some e) : (s.afterAll now actions).held? id = some e := by
  induction actions generalizing s with
  | nil => exact hheld
  | cons a actions ih => exact ih h.2 h.1

private theorem held?_afterAll_of_ended (hheld : s.held? id = some ⟨record, some now⟩)
    (hend : record.state.isTerminal = true) (hkeeps : ∀ a ∈ actions, ¬ a.Overwrites id) :
    (s.afterAll now actions).held? id = some ⟨record, some now⟩ := by
  induction actions generalizing s with
  | nil => exact hheld
  | cons a actions ih =>
    obtain ⟨hfirst, hlater⟩ := List.forall_mem_cons.1 hkeeps
    exact ih (act_of_ended hheld hend hfirst) hlater

end StatusStore

namespace Stores

open StatusStore

variable {s : Stores} {now : Millis} {id : RequestId} {record : StatusRecord} {r : IssuanceRequest}

private theorem not_overwrites_process (resolution : Resolution) :
    ∀ a ∈ s.processActions now r resolution, ¬ a.Overwrites id := by
  intro a ha
  rcases List.mem_cons.1 ha with rfl | ha
  · exact fun h => h
  · split at ha
    · rw [List.mem_singleton.1 ha]
      exact fun h => h
    · cases ha

private theorem process_undisturbed_or_ended (resolution : Resolution)
    (hheld : s.status.held? id = some ⟨record, none⟩) :
    Undisturbed id ⟨record, none⟩ s.status now
      ((s.processActions now r resolution).map (fun a => (0, a))) ∨
    ∃ ending, ending.state.isTerminal = true ∧
      (s.status.afterAll now (s.processActions now r resolution)).held? id =
        some ⟨ending, some now⟩ ∧
      ∀ rest, s.status.endOf? id now
        ((s.processActions now r resolution).map (fun a => (0, a)) ++ rest) = some (now, ending) := by
  cases hadvance : s.status.advance now r.id .processing with
  | error why =>
    have hactions : s.processActions now r resolution = [.advance r.id .processing] := by
      simp [processActions, hadvance, Except.isOk, Except.toBool]
    have hact : (s.status.act now (.advance r.id .processing)).1 = s.status := by
      simp only [StatusStore.act, hadvance]
    rw [hactions]
    left
    refine ⟨?_, trivial⟩
    rw [Nat.add_zero, hact, hheld]
  | ok moved =>
    have hactions : s.processActions now r resolution =
        [.advance r.id .processing, .resolve r.id resolution] := by
      simp [processActions, hadvance, Except.isOk, Except.toBool]
    have hact : (s.status.act now (.advance r.id .processing)).1 = moved.1 := by
      simp only [StatusStore.act, hadvance]
    rw [hactions]
    by_cases hid : r.id = id
    · subst hid
      right
      obtain ⟨e, hheld', -, hrecord, hafter⟩ := held?_of_transition hadvance
      cases hheld.symm.trans hheld'
      have hprocessing : moved.1.held? r.id = some ⟨moved.2, none⟩ := by rw [hafter, if_pos rfl]; rfl
      have hopen : moved.2.state.isTerminal = false := by rw [hrecord]; rfl
      have hresolve : moved.1.resolve now r.id resolution = _ :=
        resolve_of_held? hprocessing hopen resolution
      have hended : (moved.1.act now (.resolve r.id resolution)).1.held? r.id =
          some ⟨moved.2.resolved resolution now, some now⟩ := by
        simp only [StatusStore.act, hresolve]
        exact (Sharded.get?_insert ..).trans (if_pos rfl)
      have hend : (moved.2.resolved resolution now).state.isTerminal = true := by simp
      refine ⟨_, hend, ?_, fun rest => ?_⟩
      · simpa only [afterAll, List.foldl_cons, List.foldl_nil, hact] using hended
      · rw [List.map_cons, List.cons_append, endOf?_cons_of_open 0 (e := ⟨moved.2, none⟩)
          (by simpa only [Nat.add_zero, hact] using hprocessing) hopen]
        simp only [Nat.add_zero, hact]
        exact endOf?_cons_of_ended 0 hended hend
    · left
      have hfirst : moved.1.held? id = some ⟨record, none⟩ := by
        rw [held?_of_transition_of_ne hadvance hid, hheld]
      refine ⟨by rw [Nat.add_zero, hact, hfirst], ?_, trivial⟩
      rw [Nat.add_zero, hact]
      simp only [StatusStore.act]
      cases hresolve : moved.1.resolve now r.id resolution with
      | error why => exact hfirst
      | ok last => exact (held?_of_transition_of_ne hresolve hid).trans hfirst

end Stores

namespace Service

open StatusStore

variable {s : Service} {id : RequestId} {record : StatusRecord} {events more : List Event}

private theorem not_overwrites_turn (p : Nat) (minted : Except Refusal CouponId) :
    ∀ a ∈ s.statusActions (.turn p minted), ¬ a.Overwrites id := by
  simp only [statusActions]
  cases s.takes (.turn p minted) with
  | none => exact fun a ha => absurd ha List.not_mem_nil
  | some r => exact Stores.not_overwrites_process _

private theorem turn_undisturbed_or_ended (p : Nat) (minted : Except Refusal CouponId)
    (hheld : s.stores.status.held? id = some ⟨record, none⟩) :
    Undisturbed id ⟨record, none⟩ s.stores.status s.now
      ((s.statusActions (.turn p minted)).map (fun a => (0, a))) ∨
    ∃ ending, ending.state.isTerminal = true ∧
      (s.turn p minted).stores.status.held? id = some ⟨ending, some s.now⟩ ∧
      ∀ rest, s.stores.status.endOf? id s.now
        ((s.statusActions (.turn p minted)).map (fun a => (0, a)) ++ rest) =
          some (s.now, ending) := by
  rw [status_turn p minted]
  simp only [statusActions]
  cases s.takes (.turn p minted) with
  | none => exact .inl trivial
  | some r => exact Stores.process_undisturbed_or_ended _ hheld

private theorem schedule_turn (s : Service) (p : Nat) (minted : Except Refusal CouponId)
    (events : List Event) : s.schedule s.now (.turn p minted :: events) =
      (s.statusActions (.turn p minted)).map (fun a => (0, a)) ++
        (s.turn p minted).schedule s.now events := by
  conv => lhs; rw [schedule]
  cases s.statusActions (.turn p minted) with
  | nil => rfl
  | cons a actions =>
    rw [Nat.sub_self]
    rfl

private theorem not_overwrites_schedule (hturns : ∀ e ∈ events, e.IsTurn) :
    ∀ step ∈ s.schedule s.now events, ¬ step.2.Overwrites id := by
  induction events generalizing s with
  | nil => exact fun step hstep => absurd hstep List.not_mem_nil
  | cons e events ih =>
    obtain ⟨hfirst, hlater⟩ := List.forall_mem_cons.1 hturns
    cases e with
    | turn p minted =>
      intro step hstep
      rw [schedule_turn, List.mem_append] at hstep
      rcases hstep with hnow | hnext
      · obtain ⟨a, ha, rfl⟩ := List.mem_map.1 hnow
        exact not_overwrites_turn p minted a ha
      · exact ih (s := s.turn p minted) hlater step hnext
    | _ => cases hfirst

private theorem held?_follow_of_ended {ending : StatusRecord} (hturns : ∀ e ∈ events, e.IsTurn)
    (hheld : s.stores.status.held? id = some ⟨ending, some s.now⟩)
    (hend : ending.state.isTerminal = true) :
    (s.follow events).stores.status.held? id = some ⟨ending, some s.now⟩ := by
  induction events generalizing s with
  | nil => exact hheld
  | cons e events ih =>
    obtain ⟨hfirst, hlater⟩ := List.forall_mem_cons.1 hturns
    cases e with
    | turn p minted =>
      refine ih (s := s.turn p minted) hlater ?_
      rw [status_turn]
      exact held?_afterAll_of_ended hheld hend (not_overwrites_turn p minted)
    | _ => cases hfirst

/-- Turns of the workers end a request, or leave its record untouched. -/
private theorem turns_undisturbed_or_ended (hturns : ∀ e ∈ events, e.IsTurn)
    (hheld : s.stores.status.held? id = some ⟨record, none⟩)
    (hlive : record.state.isTerminal = false) :
    (s.follow events).stores.status.held? id = some ⟨record, none⟩ ∧
      (∀ more, Undisturbed id ⟨record, none⟩ (s.follow events).stores.status s.now
          ((s.follow events).schedule s.now more) →
        Undisturbed id ⟨record, none⟩ s.stores.status s.now (s.schedule s.now (events ++ more))) ∨
    ∃ ending, ending.state.isTerminal = true ∧
      (s.follow events).stores.status.held? id = some ⟨ending, some s.now⟩ ∧
      s.stores.status.endOf? id s.now (s.schedule s.now events) = some (s.now, ending) := by
  induction events generalizing s with
  | nil => exact .inl ⟨hheld, fun more h => h⟩
  | cons e events ih =>
    obtain ⟨hfirst, hlater⟩ := List.forall_mem_cons.1 hturns
    cases e with
    | turn p minted =>
      rcases turn_undisturbed_or_ended p minted hheld with hleft | ⟨ending, hend, hended, hends⟩
      · have hnext : (s.turn p minted).stores.status.held? id = some ⟨record, none⟩ := by
          rw [status_turn]
          exact hleft.held?_afterAll hheld
        rcases ih (s := s.turn p minted) hlater hnext with ⟨hkept, hundisturbed⟩ | ⟨ending, hend, hended, hends⟩
        · refine .inl ⟨hkept, fun more hmore => ?_⟩
          rw [List.cons_append, schedule_turn]
          refine hleft.at_once ?_
          rw [← status_turn]
          exact hundisturbed more hmore
        · refine .inr ⟨ending, hend, hended, ?_⟩
          rw [schedule_turn, hleft.endOf?_at_once hlive, ← status_turn]
          exact hends
      · refine .inr ⟨ending, hend, held?_follow_of_ended (s := s.turn p minted) hlater hended hend, ?_⟩
        rw [schedule_turn]
        exact hends _
    | _ => cases hfirst

private theorem schedule_sweep (s : Service) {since : Millis} (hsince : since ≤ s.now) (events : List Event) :
    since + (s.now - since) = s.now ∧ s.schedule since (.sweep :: events) =
      (s.now - since, .purge) :: s.sweep.schedule s.now events :=
  ⟨Nat.add_sub_cancel' hsince, rfl⟩

private theorem undisturbed_of_idle {since : Millis} (hidle : ∀ e ∈ events, e.IsIdle) (hsince : since ≤ s.now)
    (hheld : s.stores.status.held? id = some ⟨record, none⟩) :
    (s.follow events).stores.status.held? id = some ⟨record, none⟩ ∧
      Undisturbed id ⟨record, none⟩ s.stores.status since (s.schedule since events) := by
  induction events generalizing s since with
  | nil => exact ⟨hheld, trivial⟩
  | cons e events ih =>
    obtain ⟨hfirst, hlater⟩ := List.forall_mem_cons.1 hidle
    cases e with
    | wait duration =>
      exact ih (s := s.wait duration) hlater (Nat.le_trans hsince (Nat.le_add_right ..)) hheld
    | sweep =>
      have hpurge : (s.stores.status.purge s.now).1.held? id = some ⟨record, none⟩ := by
        rw [held?_purge, hheld]
        rfl
      obtain ⟨hkept, hundisturbed⟩ := ih (s := s.sweep) hlater (Nat.le_refl s.now) hpurge
      obtain ⟨hinstant, hschedule⟩ := schedule_sweep s hsince events
      rw [hschedule]
      refine ⟨hkept, ?_⟩
      rw [Undisturbed, hinstant]
      exact ⟨hpurge, hundisturbed⟩
    | _ => cases hfirst

private theorem follow_schedule {since : Millis} (hown : ∀ e ∈ events, e.OfServer) (hsince : since ≤ s.now) :
    (s.stores.status.follow since (s.schedule since events)).1 = (s.follow events).stores.status := by
  induction events generalizing s since with
  | nil => rfl
  | cons e events ih =>
    obtain ⟨hfirst, hlater⟩ := List.forall_mem_cons.1 hown
    have hnow : s.now ≤ (s.step e).now := by
      cases e with
      | turn | sweep => exact Nat.le_refl s.now
      | wait => exact Nat.le_add_right ..
      | _ => cases hfirst
    have hnext {before : Millis} (hle : before ≤ s.now) := ih hlater (Nat.le_trans hle hnow)
    have hdone := status_step (s := s) e
    rw [schedule]
    cases hactions : s.statusActions e with
    | nil =>
      rw [hactions] at hdone
      change (s.step e).stores.status = s.stores.status at hdone
      rw [← hdone]
      exact hnext hsince
    | cons a actions =>
      rw [hactions] at hdone
      have hinstant : since + (s.now - since) = s.now := Nat.add_sub_cancel' hsince
      show ((s.stores.status.act (since + (s.now - since)) a).1.follow (since + (s.now - since))
        (actions.map (fun a => (0, a)) ++ schedule s.now (s.step e) events)).1 = _
      rw [hinstant, StatusStore.follow_at_once]
      change (s.step e).stores.status = (s.stores.status.act s.now a).1.afterAll s.now actions at hdone
      rw [← hdone]
      exact hnext (Nat.le_refl _)

end Service

namespace Service

variable {s : Service} {size : Nat} {id : RequestId} {others : StatusStore.Schedule} {wait : Millis}

theorem statusBy_of_unasked {asked : Option Millis} (h : asked = none ∨ asked = some 0) :
    s.statusBy size id asked others = (s.status id, s.now) := by
  rcases h with rfl | rfl <;> rfl

theorem statusBy_of_asked (h : 0 < wait) :
    s.statusBy size id (some wait) others =
      let waited := s.stores.status.await size id s.now
        (min wait s.settings.maxStatusWaitMs.toNat) others
      (waited.record.elim (.error (.requestNotFound id)) .ok, waited.endedAt) := by
  have hasks : (some wait).filter (0 < ·) = some wait := by simp [Option.filter, h]
  rw [statusBy, hasks]

private theorem status_eq_elim :
    s.status id = (s.stores.status.get s.now id).elim (.error (.requestNotFound id)) .ok := by
  unfold status
  cases s.stores.status.get s.now id <;> rfl

private theorem statusBy_of_await (h : 0 < wait) (hawait : s.stores.status.await size id s.now
      (min wait s.settings.maxStatusWaitMs.toNat) others = ⟨s.stores.status.get s.now id, s.now⟩) :
    s.statusBy size id (some wait) others = (s.status id, s.now) := by
  rw [statusBy_of_asked h, status_eq_elim, hawait]

end Service

namespace Server

variable (s : Server) {id : RequestId} {record : StatusRecord} {asked : Option UInt64} {wait : UInt64}

theorem status_of_unasked (id : RequestId) (h : asked = none ∨ asked = some 0) :
    s.status id asked = (s, s.service.status id) := by
  have hwait : s.waitFor asked = 0 := by rcases h with rfl | rfl <;> simp [waitFor]
  simp [status, hwait]

/-- What an answer to a call for a status has to be: what the service tells a caller while others do to
the records what these events do, at the instant at which it tells it. -/
structure Answers (id : RequestId) (asked : Option UInt64) (events : List Event)
    (answer : Server × Except Refusal StatusRecord) : Prop where
  own : ∀ e ∈ events, e.OfServer
  service : answer.1.service = s.service.follow events
  records : (s.service.stores.status.follow s.service.now
    (s.service.schedule s.service.now events)).1 = answer.1.service.stores.status
  told : ∀ size, s.service.statusBy size id (asked.map UInt64.toNat)
    (s.service.schedule s.service.now events) = (answer.2, answer.1.service.now)

variable {s}

private theorem Answers.of_events {events : List Event} {answer : Server × Except Refusal StatusRecord}
    (hown : ∀ e ∈ events, e.OfServer) (hservice : answer.1.service = s.service.follow events)
    (htold : ∀ size, s.service.statusBy size id (asked.map UInt64.toNat)
      (s.service.schedule s.service.now events) = (answer.2, answer.1.service.now)) :
    s.Answers id asked events answer :=
  ⟨hown, hservice, by rw [hservice]; exact Service.follow_schedule hown (Nat.le_refl _), htold⟩

private theorem Answers.at_once (htold : ∀ size,
      s.service.statusBy size id (asked.map UInt64.toNat) [] = (s.service.status id, s.service.now)) :
    s.Answers id asked [] (s, s.service.status id) :=
  .of_events (fun _ he => absurd he List.not_mem_nil) rfl htold

private theorem hasEnded_of_live {t : Server} (hget : t.service.stores.status.get t.service.now id = some record) :
    t.hasEnded id = record.state.isTerminal := by
  have hstatus : t.service.status id = .ok record := Service.status_eq_ok_iff.2 hget
  simp only [hasEnded, hstatus]

private theorem statusBy_of_told {size : Nat} {others : StatusStore.Schedule} {instant : Millis}
    (hasked : 0 < wait.toNat) (h : s.service.stores.status.await size id s.service.now
      (s.waitFor (some wait)) others = ⟨some record, instant⟩) :
    s.service.statusBy size id ((some wait).map UInt64.toNat) others = (.ok record, instant) := by
  rw [Option.map_some, Service.statusBy_of_asked hasked]
  change s.service.stores.status.await size id s.service.now
    (min wait.toNat s.service.settings.maxStatusWaitMs.toNat) others = _ at h
  rw [h]
  rfl

private theorem answers_of_undisturbed {turns : List Event} (hasked : 0 < wait.toNat)
    (hwait : 0 < s.waitFor (some wait)) (hlive : record.state.isTerminal = false)
    (hheld : s.service.stores.status.held? id = some ⟨record, none⟩)
    (hturns : ∀ e ∈ turns, e.IsTurn)
    (hservice : (s.workUntil (hasEnded id)).service = s.service.follow turns)
    (hkept : (s.service.follow turns).stores.status.held? id = some ⟨record, none⟩)
    (hundisturbed : ∀ more, StatusStore.Undisturbed id ⟨record, none⟩
        (s.service.follow turns).stores.status s.service.now
        ((s.service.follow turns).schedule s.service.now more) →
      StatusStore.Undisturbed id ⟨record, none⟩ s.service.stores.status s.service.now
        (s.service.schedule s.service.now (turns ++ more))) :
    ∃ events, s.Answers id (some wait) events (s.status id (some wait)) := by
  have hnow : (s.service.follow turns).now = s.service.now := Service.now_follow_of_turns hturns
  have hopen : s.hasEnded id = false := by
    rw [hasEnded_of_live (StatusStore.get_of_unresolved hheld), hlive]
  rw [← hservice] at hkept hundisturbed hnow
  have hstill : (s.workUntil (hasEnded id)).hasEnded id = false := by
    rw [hasEnded_of_live (StatusStore.get_of_unresolved hkept), hlive]
  have hstatus : s.status id (some wait) = ((s.workUntil (hasEnded id)).pass (s.waitFor (some wait)),
      ((s.workUntil (hasEnded id)).pass (s.waitFor (some wait))).service.status id) := by
    simp [status, hwait, hopen, hstill]
  obtain ⟨idle, -, hidle, hafter, -, -⟩ :=
    (s.workUntil (hasEnded id)).does_pass (s.waitFor (some wait))
  obtain ⟨hheld', hrest⟩ := Service.undisturbed_of_idle hidle (Nat.le_of_eq hnow.symm) hkept
  rw [← hafter] at hheld'
  refine ⟨turns ++ idle, ?_⟩
  rw [hstatus]
  refine .of_events ?_ ?_ fun size => ?_
  · intro e he
    exact (List.mem_append.1 he).elim (fun he => (hturns e he).ofServer) fun he => (hidle e he).ofServer
  · rw [hafter, hservice, Service.follow_append]
  · rw [now_pass, hnow, Service.status_eq_ok_iff.2 (StatusStore.get_of_unresolved hheld')]
    exact statusBy_of_told hasked
      (StatusStore.await_of_undisturbed size hheld hlive (hundisturbed idle hrest))

private theorem answers_of_ended {turns : List Event} {ending : StatusRecord} (hasked : 0 < wait.toNat)
    (hwait : 0 < s.waitFor (some wait)) (hlive : record.state.isTerminal = false)
    (hheld : s.service.stores.status.held? id = some ⟨record, none⟩) (hname : record.request = id)
    (hturns : ∀ e ∈ turns, e.IsTurn)
    (hservice : (s.workUntil (hasEnded id)).service = s.service.follow turns)
    (hend : ending.state.isTerminal = true)
    (hended : (s.service.follow turns).stores.status.held? id = some ⟨ending, some s.service.now⟩)
    (hends : s.service.stores.status.endOf? id s.service.now
      (s.service.schedule s.service.now turns) = some (s.service.now, ending)) :
    s.Answers id (some wait) turns (s.status id (some wait)) := by
  have hnow : (s.service.follow turns).now = s.service.now := Service.now_follow_of_turns hturns
  have hopen : s.hasEnded id = false := by
    rw [hasEnded_of_live (StatusStore.get_of_unresolved hheld), hlive]
  rw [← hservice] at hended hnow
  have hget : (s.workUntil (hasEnded id)).service.stores.status.get
      (s.workUntil (hasEnded id)).service.now id = some ending := by
    rw [hnow, StatusStore.get_of_held? hended, StatusEntry.isExpired_at_once,
      if_neg Bool.false_ne_true]
  have hdone : (s.workUntil (hasEnded id)).hasEnded id = true := by rw [hasEnded_of_live hget, hend]
  have hstatus : s.status id (some wait) =
      (s.workUntil (hasEnded id), (s.workUntil (hasEnded id)).service.status id) := by
    simp [status, hwait, hopen, hdone]
  rw [hstatus]
  refine .of_events (fun e he => (hturns e he).ofServer) hservice fun size => ?_
  rw [hnow, Service.status_eq_ok_iff.2 hget]
  exact statusBy_of_told hasked (StatusStore.await_of_endOf? size hheld hname hlive
    (Service.not_overwrites_schedule hturns) hends (Nat.lt_add_of_pos_right hwait))

/-- A server answers a call for a status as its service does while others do to the records what the workers
and the sweeper do. -/
theorem answers_status (hlasting : s.service.stores.status.Lasting)
    (hkeyed : s.service.stores.status.Keyed) (id : RequestId) (asked : Option UInt64) :
    ∃ events, s.Answers id asked events (s.status id asked) := by
  rcases asked with - | wait
  · rw [s.status_of_unasked id (.inl rfl)]
    exact ⟨[], .at_once fun size => Service.statusBy_of_unasked (.inl rfl)⟩
  rcases Nat.eq_zero_or_pos wait.toNat with hzero | hasked
  · obtain rfl : wait = 0 := UInt64.toNat_inj.1 hzero
    rw [s.status_of_unasked id (.inr rfl)]
    exact ⟨[], .at_once fun size => Service.statusBy_of_unasked (.inr rfl)⟩
  rcases StatusStore.ended_or_live s.service.stores.status s.service.now id with hend | ⟨record, hget, hlive⟩
  · have hended : s.hasEnded id = true := by
      unfold hasEnded
      split
      · next hrecord => exact hend _ (Service.status_eq_ok_iff.1 hrecord)
      · rfl
    have hstatus : s.status id (some wait) = (s, s.service.status id) := by simp [status, hended]
    rw [hstatus]
    exact ⟨[], .at_once fun size =>
      Service.statusBy_of_await hasked (StatusStore.await_at_once [] hend)⟩
  have hheld := hlasting.unresolved_of_get hget hlive
  rcases Nat.eq_zero_or_pos (s.waitFor (some wait)) with hnone | hwait
  · have hstatus : s.status id (some wait) = (s, s.service.status id) := by simp [status, hnone]
    rw [hstatus]
    refine ⟨[], .at_once fun size => Service.statusBy_of_await hasked ?_⟩
    have hawait : s.service.stores.status.await size id s.service.now (s.waitFor (some wait)) [] = _ :=
      StatusStore.await_of_undisturbed size hheld hlive trivial
    rw [hnone, Nat.add_zero, ← hget] at hawait
    rwa [show min wait.toNat s.service.settings.maxStatusWaitMs.toNat = 0 from hnone]
  · obtain ⟨turns, -, hturns, hservice, -, -⟩ := s.does_workUntil (hasEnded id)
    rcases Service.turns_undisturbed_or_ended hturns hheld hlive with
      ⟨hkept, hundisturbed⟩ | ⟨ending, hend, hended, hends⟩
    · exact answers_of_undisturbed hasked hwait hlive hheld hturns hservice hkept hundisturbed
    · exact ⟨turns, answers_of_ended hasked hwait hlive hheld (hkeyed id _ hheld) hturns hservice hend
        hended hends⟩

end Server
end CouponIssuance
