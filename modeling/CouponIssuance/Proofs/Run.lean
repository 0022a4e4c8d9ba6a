import CouponIssuance.Service
import CouponIssuance.Proofs.Course
/-!
# Runs of a service

A run starts from a service as it was set up and goes from event to event: what callers ask for,
turns of the workers, sweeps, the passing of time and the phases of a shutdown, each of them at
once. To ask for a status, a preview or a list changes nothing and is no event. The outcome of
minting comes with the event that needs a name; no name is minted twice, and a name that is not
needed may as well be a failure.
-/
namespace CouponIssuance

inductive Event where
  | issue (requester : RequesterId) (campaign : CampaignId) (minted : Except Refusal RequestId)
  | initializeStock (campaign : CampaignId)
  | register (draft : CampaignDraft)
  | redeem (requester : RequesterId) (coupon : CouponId) (order : UInt64)
      (orderId : Option String)
  | turn (partition : Nat) (minted : Except Refusal CouponId)
  | sweep
  | wait (duration : Millis)
  | close
  | cancel
  | sendStop (partition : Nat)

namespace Event

def request? : Event → Option RequestId
  | .issue _ _ (.ok id) => some id
  | _ => none

def coupon? : Event → Option CouponId
  | .turn _ (.ok id) => some id
  | _ => none

end Event

namespace Service

/-- What an event does. A shutdown goes through its phases in order: work is cancelled only after
admission has ended, and workers are told to stop only after that. -/
def step (s : Service) : Event → Service
  | .issue requester campaign minted => (s.issue requester campaign minted).1
  | .initializeStock campaign => (s.initializeStock campaign).1
  | .register draft => (s.register draft).1
  | .redeem requester coupon order orderId => (s.redeem requester coupon order orderId).1
  | .turn p minted => s.turn p minted
  | .sweep => s.sweep
  | .wait duration => s.wait duration
  | .close => s.close
  | .cancel => if s.queue.closed then s.cancel else s
  | .sendStop p => if s.cancelled then { s with queue := (s.queue.sendStop p).1 } else s

/-- The request that a worker takes off its line. -/
def takes (s : Service) : Event → Option IssuanceRequest
  | .turn p _ => match (s.queue.dequeue p).2 with
    | .request r => some r
    | _ => none
  | _ => none

/-- The campaign whose stock is filled up again. -/
def reset? (s : Service) : Event → Option CampaignId
  | .initializeStock c => if (s.initializeStock c).2.isOk then some c else none
  | _ => none

/-- The campaign that is registered, with its stock. -/
def registered? (s : Service) : Event → Option CampaignId
  | .register draft => if (s.register draft).2.isOk then some draft.campaign else none
  | _ => none

end Service

/-- A service as it was set up, and what happened to it. -/
structure Run where
  hashing : Hashing
  settings : Settings
  start : Millis
  initial : Service
  created : Service.create hashing settings start = .ok initial
  events : List Event
  requestsDistinct : (events.filterMap Event.request?).Nodup
  couponsDistinct : (events.filterMap Event.coupon?).Nodup

/-- A service with one worker and one campaign, with a stock of one. -/
def Service.small : { s : Service // Service.create ⟨fun _ => 0, fun _ => 0⟩
    { numWorkers := 1, storeShards := 1, seeds := [(⟨1⟩, 1)], sound := by decide } 0 = .ok s } :=
  ⟨_, rfl⟩

namespace Run

/-- What these events make of the small service. -/
def small (events : List Event) (hr : (events.filterMap Event.request?).Nodup)
    (hc : (events.filterMap Event.coupon?).Nodup) : Run :=
  ⟨_, _, _, Service.small.1, Service.small.2, events, hr, hc⟩

variable (run : Run)

/-- What happens to the service. -/
def course : Course Service Event := ⟨Service.step, run.initial, run.events⟩

/-- The service after the first `n` events. -/
def after (n : Nat) : Service := run.course.after n

/-- The names minted for requests by the first `n` events. -/
def requestNames (n : Nat) : List RequestId := run.course.names Event.request? n

/-- The names minted for coupons by the first `n` events. -/
def couponNames (n : Nat) : List CouponId := run.course.names Event.coupon? n

/-- The request that a worker takes in event `n`. -/
def taken (n : Nat) : Option IssuanceRequest := run.events[n]?.bind (run.after n).takes

/-- The campaign whose stock is reset in event `n`. -/
def reset? (n : Nat) : Option CampaignId := run.events[n]?.bind (run.after n).reset?

/-- The campaign that is registered in event `n`. -/
def registered? (n : Nat) : Option CampaignId := run.events[n]?.bind (run.after n).registered?

@[simp] theorem after_zero : run.after 0 = run.initial := rfl

@[simp] theorem requestNames_zero : run.requestNames 0 = [] := rfl

variable {run} {n : Nat} {e : Event}

theorem after_succ (h : run.events[n]? = some e) : run.after (n + 1) = (run.after n).step e :=
  run.course.after_succ h

theorem after_succ_of_none (h : run.events[n]? = none) : run.after (n + 1) = run.after n :=
  run.course.after_succ_of_none h

/-- What holds at one moment and is kept by every event holds at every later moment. -/
theorem along {m : Nat} (hmn : m ≤ n) {P : Service → Prop} (start : P (run.after m))
    (keep : ∀ {k e}, m ≤ k → k < n → run.events[k]? = some e → P (run.after k) →
      P (run.after (k + 1))) : P (run.after n) :=
  run.course.along hmn start keep

theorem always (n : Nat) {P : Service → Prop} (start : P run.initial)
    (keep : ∀ {k e}, run.events[k]? = some e → P (run.after k) → P (run.after (k + 1))) :
    P (run.after n) :=
  along (Nat.zero_le n) start fun _ _ => keep

theorem requestNames_succ (h : run.events[n]? = some e) :
    run.requestNames (n + 1) = run.requestNames n ++ e.request?.toList := run.course.names_succ h

theorem requestNames_succ_of_none (h : run.events[n]? = none) :
    run.requestNames (n + 1) = run.requestNames n := run.course.names_succ_of_none h

theorem named_of_le {m : Nat} (hmn : m ≤ n) {id : RequestId} (hid : id ∈ run.requestNames m) :
    id ∈ run.requestNames n := by
  induction hmn with
  | refl => exact hid
  | @step n hmn ih =>
    cases he : run.events[n]? with
    | none => rw [requestNames_succ_of_none he]; exact ih
    | some e => rw [requestNames_succ he]; exact List.mem_append_left _ ih

theorem couponNames_succ (h : run.events[n]? = some e) :
    run.couponNames (n + 1) = run.couponNames n ++ e.coupon?.toList := run.course.names_succ h

theorem couponNames_succ_of_none (h : run.events[n]? = none) :
    run.couponNames (n + 1) = run.couponNames n := run.course.names_succ_of_none h

theorem request_fresh (h : run.events[n]? = some e) {id : RequestId} (he : e.request? = some id) :
    id ∉ run.requestNames n := run.course.not_mem_names run.requestsDistinct h he

theorem coupon_fresh (h : run.events[n]? = some e) {id : CouponId} (he : e.coupon? = some id) :
    id ∉ run.couponNames n := run.course.not_mem_names run.couponsDistinct h he

end Run
end CouponIssuance
