import CouponIssuance.Identity
import CouponIssuance.Table.Sharded
/-!
# The ticket index

For each requester and campaign, the most recent request. It keeps a requester from standing in the
queue twice.
-/
namespace CouponIssuance

/-- What a ticket is for. -/
abbrev TicketKey := RequesterId × CampaignId

structure TicketIndex where
  tickets : Sharded TicketKey RequestId

namespace TicketIndex

def create (hash : TicketKey → Nat) (shards : Nat) : TicketIndex := ⟨Sharded.create hash shards⟩

def current (t : TicketIndex) (k : TicketKey) : Option RequestId := t.tickets.get? k

def set (t : TicketIndex) (k : TicketKey) (id : RequestId) : TicketIndex :=
  ⟨t.tickets.insert k id⟩

/-- Drops a ticket, but only if it still names `id`. -/
def clear (t : TicketIndex) (k : TicketKey) (id : RequestId) : TicketIndex :=
  if t.current k = some id then ⟨t.tickets.erase k⟩ else t

def size (t : TicketIndex) : Nat := t.tickets.size

/-- Keeps the tickets whose request passes a test, and counts the others. -/
def prune (t : TicketIndex) (keep : RequestId → Bool) : TicketIndex × Nat :=
  let kept := t.tickets.filter fun _ id => keep id
  (⟨kept⟩, t.tickets.size - kept.size)

end TicketIndex
end CouponIssuance
