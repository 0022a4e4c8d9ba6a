import CouponIssuance.Service
/-!
# Shutting down

A shutdown goes from phase to phase while everything else goes on. It ends admission, waits for a
while until nothing is in flight, cancels what is left, tells one worker after another to stop, and
waits until all have answered. It does not wait forever for anything, and in the end it knows which
workers it has not heard of.
-/
namespace CouponIssuance

/-- How far a shutdown has come. Partitions stand for their workers; those that were `told` to stop stand
with their markers, and those that are `lost` have not answered. -/
inductive Phase where
  | begun
  /-- Work may go on until the deadline. Whether some is in flight is looked at next at `check`. -/
  | draining (deadline check : Millis)
  | cancelling
  /-- The worker of partition `p` is to be told before the deadline. -/
  | telling (p : Nat) (deadline : Millis) (told : List (Nat × Nat)) (lost : List Nat)
  | hearing (deadline : Millis) (told : List (Nat × Nat)) (lost : List Nat)
  | finished (lost : List Nat)
  deriving DecidableEq

namespace Phase

/-- The time after which it is looked at again whether work is in flight. -/
def checkPeriod : Millis := 50

/-- How long a shutdown waits until it can tell a worker to stop, and then for the answers. -/
def patience : Millis := 3000

end Phase

namespace Service

/-- The next step of a shutdown, unless it has to wait. -/
def stop (s : Service) : Phase → Option (Service × Phase)
  | .begun => some (s.close, .draining (s.now + s.settings.shutdownTimeoutSecs.toNat * 1000) s.now)
  | .draining deadline check =>
    if (check ≤ s.now && s.queue.totalInFlight = 0) || deadline ≤ s.now then some (s, .cancelling)
    else if check ≤ s.now then some (s, .draining deadline (s.now + Phase.checkPeriod))
    else none
  | .cancelling => some (s.cancel, .telling 0 (s.now + Phase.patience) [] [])
  | .telling p deadline told lost =>
    if p < s.queue.partitions then
      match s.queue.sendStop p with
      | (queue, .placed marker) =>
        some ({ s with queue := queue },
          .telling (p + 1) (s.now + Phase.patience) (told ++ [(p, marker)]) lost)
      | (_, .refused _) => some (s, .telling (p + 1) (s.now + Phase.patience) told (lost ++ [p]))
      | (_, .blocked) =>
        if deadline ≤ s.now then
          some (s, .telling (p + 1) (s.now + Phase.patience) told (lost ++ [p]))
        else none
    else some (s, .hearing (s.now + Phase.patience) told lost)
  | .hearing deadline told lost =>
    if (told.all fun t => s.queue.mark t.2 ≠ .waiting) || deadline ≤ s.now then
      let unheard := told.filter fun t => s.queue.mark t.2 ≠ .acknowledged
      some (s, .finished (lost ++ unheard.map Prod.fst))
    else none
  | .finished _ => none

end Service
end CouponIssuance
