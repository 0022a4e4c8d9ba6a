import CouponIssuance.Status.Record
import CouponIssuance.Table.Sharded
/-!
# The status store

Records by request. A record only moves forward, and is kept for some time after it has become
terminal: then it is hidden from readers, and a purge removes it. Putting a record takes it as it
is.
-/
namespace CouponIssuance

/-- A record, and the instant it became terminal. -/
structure StatusEntry where
  record : StatusRecord
  resolved : Option Millis
  deriving DecidableEq

/-- Whether more than `ttl` has passed since the record became terminal. -/
def StatusEntry.isExpired (e : StatusEntry) (ttl now : Millis) : Bool :=
  e.resolved.any fun t => ttl < now - t

structure StatusStore where
  entries : Sharded RequestId StatusEntry
  ttl : Millis

namespace StatusStore

def create (hash : RequestId → Nat) (shards : Nat) (ttl : Millis) : StatusStore :=
  ⟨Sharded.create hash shards, ttl⟩

/-- The entry held for a request, expired or not. -/
def held? (s : StatusStore) (id : RequestId) : Option StatusEntry := s.entries.get? id

/-- Writes a record as it is, in place of any other for the request. -/
def put (s : StatusStore) (now : Millis) (r : StatusRecord) : StatusStore :=
  let resolved := if r.state.isTerminal then some now else none
  { s with entries := s.entries.insert r.request ⟨r, resolved⟩ }

/-- The record of a request, unless it is unknown or has been kept long enough. -/
def get (s : StatusStore) (now : Millis) (id : RequestId) : Option StatusRecord :=
  ((s.held? id).filter fun e => !e.isExpired s.ttl now).map StatusEntry.record

def contains (s : StatusStore) (now : Millis) (id : RequestId) : Bool := (s.get now id).isSome

/-- Moves a held record on to the state `next`, changed by `change`. -/
def transition (s : StatusStore) (now : Millis) (id : RequestId) (next : RequestState)
    (change : StatusRecord → StatusRecord) : Except Refusal (StatusStore × StatusRecord) :=
  match s.held? id with
  | none => .error (.requestNotFound id)
  | some e =>
    if e.record.state.canAdvanceTo next then
      let record := change { e.record with state := next }
      let resolved := if next.isTerminal then some now else e.resolved
      .ok ({ s with entries := s.entries.insert id ⟨record, resolved⟩ }, record)
    else .error (.invalidTransition id e.record.state next)

/-- Moves a record on and leaves the rest of it alone. -/
def advance (s : StatusStore) (now : Millis) (id : RequestId) (next : RequestState) :
    Except Refusal (StatusStore × StatusRecord) :=
  s.transition now id next fun r => r

def resolve (s : StatusStore) (now : Millis) (id : RequestId) (resolution : Resolution) :
    Except Refusal (StatusStore × StatusRecord) :=
  s.transition now id resolution.state fun r => r.resolved resolution now

/-- Takes a record out and returns it, expired or not. -/
def remove (s : StatusStore) (id : RequestId) : StatusStore × Option StatusRecord :=
  ({ s with entries := s.entries.erase id }, (s.held? id).map StatusEntry.record)

def size (s : StatusStore) : Nat := s.entries.size

/-- Drops what has been kept long enough, and counts it. -/
def purge (s : StatusStore) (now : Millis) : StatusStore × Nat :=
  let kept := s.entries.filter fun _ e => !e.isExpired s.ttl now
  ({ s with entries := kept }, s.entries.size - kept.size)

end StatusStore
end CouponIssuance
