import CouponIssuance.Proofs.Service.Follow
import CouponIssuance.Server
/-!
# What a server does by itself

Between two calls a server does nothing but let its workers take turns, sweep and let time pass. The names
that the turns bring in are those that the mint gives next, one after another; a turn that needs no name
may as well be one for which none could be minted.
-/
namespace CouponIssuance

/-- The workers take a turn, the sweeper sweeps, or time passes. -/
def Event.OfServer : Event → Prop
  | .turn _ _ | .sweep | .wait _ => True
  | _ => False

def Event.IsTurn : Event → Prop
  | .turn _ _ => True
  | _ => False

/-- No worker takes a turn meanwhile. -/
def Event.IsIdle : Event → Prop
  | .sweep | .wait _ => True
  | _ => False

theorem Event.IsTurn.ofServer {e : Event} (h : e.IsTurn) : e.OfServer := by
  cases e <;> first | exact trivial | exact h

theorem Event.IsIdle.ofServer {e : Event} (h : e.IsIdle) : e.OfServer := by
  cases e <;> first | exact trivial | exact h

namespace Service

variable {s : Service} {events : List Event}

theorem follow_append (s : Service) (events more : List Event) :
    s.follow (events ++ more) = (s.follow events).follow more := List.foldl_append ..

theorem now_follow_of_turns (hturns : ∀ e ∈ events, e.IsTurn) : (s.follow events).now = s.now := by
  induction events generalizing s with
  | nil => rfl
  | cons e events ih =>
    obtain ⟨hfirst, hlater⟩ := List.forall_mem_cons.1 hturns
    cases e with
    | turn p minted => exact ih (s := s.turn p minted) hlater
    | _ => cases hfirst

end Service

namespace Mint

/-- After it was asked for `k` more names. -/
def later (m : Mint) (k : Nat) : Mint := { m with drawn := m.drawn + k }

/-- The coupon names among the next `k`. -/
def coupons (m : Mint) (k : Nat) : List CouponId :=
  (List.range' m.drawn k).filterMap fun i => (name (m.answers i)).toOption.map CouponId.mk

theorem coupons_add (m : Mint) (j k : Nat) :
    m.coupons (j + k) = m.coupons j ++ (m.later j).coupons k := by
  show List.filterMap _ (List.range' m.drawn (j + k)) =
    List.filterMap _ (List.range' m.drawn j) ++ List.filterMap _ (List.range' (m.drawn + j) k)
  rw [show List.range' m.drawn (j + k) = List.range' m.drawn j ++ List.range' (m.drawn + j) k from
    List.range'_append_1.symm, List.filterMap_append]
  rfl

end Mint

namespace Stores

variable {s : Stores} {now : Millis} {r : IssuanceRequest}

/-- To take a request to an end that needs no name, any outcome of minting will do. -/
private theorem dispatch_of_unused (h : s.usesName now r = false) (minted minted' : Except Refusal CouponId) :
    s.dispatch now r minted = s.dispatch now r minted' := by
  unfold dispatch process
  cases hadvance : s.status.advance now r.id .processing with
  | error why => rfl
  | ok moved =>
    have hreserve : ∀ reserved, s.reserve now r ≠ .ok reserved := by
      intro reserved hreserved
      simp [usesName, hadvance, hreserved, Except.isOk, Except.toBool] at h
    have hsame : attempt { s with status := moved.1 } now r minted =
        attempt { s with status := moved.1 } now r minted' := by
      cases hreserved : s.reserve now r with
      | ok reserved => exact absurd hreserved (hreserve reserved)
      | error resolution =>
        have hmoved : reserve { s with status := moved.1 } now r = .error resolution := hreserved
        simp only [attempt, hmoved]
    dsimp only
    rw [hsame]

end Stores

private theorem Office.turn_of_unused {o : Office} {p : Nat} {cancelled : Bool} {now : Millis}
    (h : o.usesName p cancelled now = false) (minted minted' : Except Refusal CouponId) :
    o.turn p cancelled now minted = o.turn p cancelled now minted' := by
  unfold turn
  unfold usesName at h
  generalize o.queue.dequeue p = taken at h ⊢
  obtain ⟨queue, taken⟩ := taken
  cases taken with
  | request r =>
    cases cancelled with
    | true => rfl
    | false => exact congrArg (Office.mk · _) (Stores.dispatch_of_unused (by simpa using h) ..)
  | _ => rfl

namespace Server

/-- Events of this kind lead from one server to the other, and the mint gave the names they brought in. -/
def Does (kind : Event → Prop) (s t : Server) : Prop :=
  ∃ events k, (∀ e ∈ events, kind e) ∧ t.service = s.service.follow events ∧ t.mint = s.mint.later k ∧
    events.filterMap Event.coupon? = s.mint.coupons k

section Does

variable {kind kind' : Event → Prop} {s t u : Server}

theorem Does.of_same (hservice : t.service = s.service) (hmint : t.mint = s.mint) : Does kind s t :=
  ⟨[], 0, by simp, hservice, hmint, rfl⟩

theorem Does.refl (s : Server) : Does kind s s := .of_same rfl rfl

theorem Does.trans (h : Does kind s t) (h' : Does kind t u) : Does kind s u := by
  obtain ⟨first, j, hfirst, hservice, hmint, hnames⟩ := h
  obtain ⟨events, k, hevents, hservice', hmint', hnames'⟩ := h'
  refine ⟨first ++ events, j + k, ?_, ?_, ?_, ?_⟩
  · intro e he
    exact (List.mem_append.1 he).elim (hfirst e) (hevents e)
  · rw [hservice', hservice, Service.follow_append]
  · rw [hmint', hmint]
    simp only [Mint.later, Nat.add_assoc]
  · rw [List.filterMap_append, hnames, hnames', hmint, Mint.coupons_add]

theorem Does.mono (hkind : ∀ e, kind e → kind' e) (h : Does kind s t) : Does kind' s t := by
  obtain ⟨events, k, hevents, h⟩ := h
  exact ⟨events, k, fun e he => hkind e (hevents e he), h⟩

private theorem Does.of_event {e : Event} (he : kind e) (hname : e.coupon? = none)
    (hservice : t.service = s.service.step e) (hmint : t.mint = s.mint) : Does kind s t := by
  refine ⟨[e], 0, ?_, hservice, hmint, ?_⟩
  · intro e' he'
    rwa [List.mem_singleton.1 he']
  · simp only [List.filterMap_cons, hname, List.filterMap_nil]
    rfl

private theorem Does.congr_right {t' : Server} (h : Does kind s t) (hservice : t'.service = t.service)
    (hmint : t'.mint = t.mint) : Does kind s t' := by
  obtain ⟨events, k, hevents, hafter, hnext, hnames⟩ := h
  exact ⟨events, k, hevents, hservice.trans hafter, hmint.trans hnext, hnames⟩

end Does

section Work

variable (s : Server)

/-- A worker takes a turn, with the next name at hand. -/
def takeTurn (p : Nat) : Server :=
  { s with
    service := s.service.turn p (s.mint.next.2.map CouponId.mk)
    mint := if s.service.toOffice.usesName p s.service.cancelled s.service.now then s.mint.next.1
      else s.mint }

private theorem does_takeTurn (p : Nat) : Does (∃ minted, · = .turn p minted) s (s.takeTurn p) := by
  cases huses : s.service.toOffice.usesName p s.service.cancelled s.service.now with
  | true =>
    refine ⟨[.turn p (s.mint.next.2.map CouponId.mk)], 1, ?_, rfl, ?_, ?_⟩
    · intro e he
      exact ⟨_, List.mem_singleton.1 he⟩
    · simp only [takeTurn, huses, if_true]
      rfl
    · show List.filterMap _ [_] = List.filterMap _ [s.mint.drawn]
      simp only [Mint.next, List.filterMap_cons, List.filterMap_nil]
      cases Mint.name (s.mint.answers s.mint.drawn) <;> rfl
  | false =>
    refine .of_event (e := .turn p (.error .shuttingDown)) ⟨_, rfl⟩ rfl ?_ ?_
    · show s.service.turn p _ = s.service.turn p _
      unfold Service.turn
      rw [Office.turn_of_unused huses]
    · simp only [takeTurn, huses, Bool.false_eq_true, if_false]

private theorem does_work (p n : Nat) : Does (∃ minted, · = .turn p minted) s (s.work p n) := by
  induction n generalizing s with
  | zero => exact .refl s
  | succ n ih => exact (does_takeTurn s p).trans (ih (s.takeTurn p))

private theorem isTurn_of_exists {p : Nat} (e : Event) (h : ∃ minted, e = .turn p minted) : e.IsTurn := by
  obtain ⟨minted, rfl⟩ := h
  trivial

private theorem does_serveAll (due : List Nat) : Does Event.IsTurn s (s.serveAll due).1 := by
  induction due generalizing s with
  | nil => exact .refl s
  | cons p due ih => exact ((does_work s p _).mono isTurn_of_exists).trans (ih (s.serve p))

private theorem does_round : Does Event.IsTurn s s.round := (does_serveAll s _).congr_right rfl rfl

private theorem does_roundsUntil (enough : Server → Bool) (n : Nat) :
    Does Event.IsTurn s (roundsUntil enough n s) := by
  induction n generalizing s with
  | zero => exact .refl s
  | succ n ih =>
    unfold roundsUntil
    split
    · exact .refl s
    · exact (does_round s).trans (ih s.round)

theorem does_workUntil (enough : Server → Bool) : Does Event.IsTurn s (s.workUntil enough) :=
  does_roundsUntil s enough _

theorem does_workThrough : Does Event.IsTurn s s.workThrough := by
  unfold workThrough
  generalize List.range s.service.queue.partitions = lines
  induction lines generalizing s with
  | nil => exact .refl s
  | cons p lines ih =>
    exact ((does_work s p _).mono isTurn_of_exists).trans (ih (s.work p (s.lineLength p)))

end Work

section Time

variable (s : Server)

private theorem does_sweepUntil (instant : Millis) : Does Event.IsIdle s (s.sweepUntil instant) := by
  unfold sweepUntil
  split
  · exact .refl s
  · split
    · exact .refl s
    · have hwait (duration : Millis) :
          Does Event.IsIdle s { s with service := s.service.wait duration } :=
        .of_event (e := .wait duration) trivial rfl rfl rfl
      exact (hwait _).trans (.of_event (e := .sweep) trivial rfl rfl rfl)

theorem does_pass (duration : Millis) : Does Event.IsIdle s (s.pass duration) :=
  (does_sweepUntil s (s.service.now + duration)).trans
    (.of_event (e := .wait _) trivial rfl rfl rfl)

private theorem now_sweepUntil_le {instant : Millis} (h : s.service.now ≤ instant) :
    (s.sweepUntil instant).service.now ≤ instant := by
  unfold sweepUntil
  split
  · exact h
  · next due _ =>
    split
    · exact h
    · next hdue =>
      generalize sweepPeriod s.platform s.service.settings = period
      have hlast : due + (instant - due) / period * period ≤ instant := by
        have hle := Nat.add_le_add_left (Nat.div_mul_le_self (instant - due) period) due
        rwa [Nat.add_sub_cancel' (Nat.le_of_not_lt hdue)] at hle
      show s.service.now + (due + (instant - due) / period * period - s.service.now) ≤ instant
      rcases Nat.le_total s.service.now (due + (instant - due) / period * period) with hle | hle
      · rwa [Nat.add_sub_cancel' hle]
      · rwa [Nat.sub_eq_zero_of_le hle]

theorem now_pass (duration : Millis) :
    (s.pass duration).service.now = s.service.now + duration :=
  Nat.add_sub_cancel' (now_sweepUntil_le s (Nat.le_add_right ..))

end Time

end Server
end CouponIssuance
