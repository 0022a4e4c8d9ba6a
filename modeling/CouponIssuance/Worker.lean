import CouponIssuance.Mint
import CouponIssuance.Stores
/-!
# Workers

Each partition of the queue has a worker. In a turn it takes the next message off its line and deals
with it: a request is dispatched, or abandoned once the work is cancelled; at a stop marker the
worker acknowledges and leaves.
-/
namespace CouponIssuance

/-- The stores, and the queue of requests before them. -/
structure Office where
  stores : Stores
  queue : Queue

namespace Office

def turn (o : Office) (p : Nat) (cancelled : Bool) (now : Millis)
    (minted : Except Refusal CouponId) : Office :=
  match o.queue.dequeue p with
  | (queue, .request r) =>
    { stores := if cancelled then o.stores.abandon now r else o.stores.dispatch now r minted
      queue := queue.release r.campaign }
  | (queue, .stop marker) => { o with queue := (queue.acknowledge marker).1.abandon p }
  | (queue, _) => { o with queue := queue }

/-- Whether the next turn of the worker of partition `p` uses up a coupon name. -/
def usesName (o : Office) (p : Nat) (cancelled : Bool) (now : Millis) : Bool :=
  !cancelled && match o.queue.dequeue p with
    | (_, .request r) => o.stores.usesName now r
    | _ => false

/-- Several turns of one worker, each with a new coupon name at hand. A name that is not used is at
hand again. -/
def turns (p : Nat) (cancelled : Bool) (now : Millis) : Nat → Office × Mint → Office × Mint
  | 0, x => x
  | n + 1, (o, mint) =>
    let (after, name) := mint.next
    turns p cancelled now n
      (o.turn p cancelled now (name.map CouponId.mk),
        if o.usesName p cancelled now then after else mint)

end Office
end CouponIssuance
