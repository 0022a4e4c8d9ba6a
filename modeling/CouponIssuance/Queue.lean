import CouponIssuance.Refusal
import CouponIssuance.Table.Basic
import CouponIssuance.Window
/-!
# The request queue

Requests wait in partitions, each a bounded line with one consumer. A campaign has one partition, so
its requests are served in the order of their admission. Besides, each campaign has a lane that
counts its requests: those queued, and those handed out and not yet released.

A stop marker in a line tells the consumer to stop when everything before it is done; whoever sent it
learns from its mark whether it was acknowledged.
-/
namespace CouponIssuance

/-- A request for a coupon that waits for its turn. -/
structure IssuanceRequest where
  id : RequestId
  campaign : CampaignId
  requester : RequesterId
  submittedAt : Millis
  deriving DecidableEq

/-- How many requests of a campaign are queued, and how many are handed out. -/
structure Lane where
  queued : Nat
  processing : Nat
  deriving DecidableEq

namespace Lane

def idle : Lane := ⟨0, 0⟩

def inFlight (l : Lane) : Nat := l.queued + l.processing

end Lane

/-- What stands in a line: a request, or a stop marker with its number. -/
inductive Message where
  | issue (request : IssuanceRequest)
  | stop (marker : Nat)
  deriving DecidableEq

/-- What became of a stop marker, as its sender sees it. -/
inductive Mark where
  | waiting
  | acknowledged
  | gone
  deriving DecidableEq

/-- A line of messages, and whether its consumer is still there. -/
structure Channel where
  messages : List Message
  attended : Bool
  deriving DecidableEq

namespace Channel

def empty : Channel := ⟨[], true⟩

def push (c : Channel) (m : Message) : Channel := { c with messages := c.messages ++ [m] }

/-- The numbers of the stop markers in the line. -/
def markers (c : Channel) : List Nat :=
  c.messages.filterMap fun
    | .stop m => some m
    | .issue _ => none

end Channel

structure QueueLimits where
  /-- How many messages a partition holds. -/
  buffer : Nat
  /-- How many requests of one campaign may be queued. -/
  maxDepth : Nat
  /-- What a refused caller is told. -/
  retryAfterSecs : UInt64
  /-- How long a consumer waits at an empty partition. -/
  timeout : Millis
  deriving DecidableEq

structure Queue where
  limits : QueueLimits
  channels : List Channel
  lanes : Table CampaignId Lane
  /-- Whether admission has ended. -/
  closed : Bool
  /-- Whether all who could still send are gone. -/
  released : Bool
  marks : List Mark
  nonempty : 0 < channels.length

inductive QueueFault where
  | noPartition
  | noBuffer
  | bufferTooLarge
  deriving DecidableEq

/-- The most messages that a partition can be made to hold. -/
def QueueLimits.largestBuffer : Nat := 2305843009213693951

def QueueFault.message : QueueFault → String
  | .noPartition => "queue needs at least one partition"
  | .noBuffer => "mpsc bounded channel requires buffer > 0"
  | .bufferTooLarge =>
    s!"a semaphore may not have more than MAX_PERMITS permits ({QueueLimits.largestBuffer})"

/-- What a consumer gets when it asks for the next message. -/
inductive Dequeued where
  | request (r : IssuanceRequest)
  | stop (marker : Nat)
  | empty
  | closed
  | unattended
  deriving DecidableEq

/-- What became of the attempt to send a stop marker. -/
inductive StopSent where
  | placed (marker : Nat)
  | blocked
  | refused (why : Refusal)
  deriving DecidableEq

namespace Queue

def create (partitions : Nat) (limits : QueueLimits) : Except QueueFault Queue :=
  if h : 0 < partitions then
    if limits.buffer = 0 then .error .noBuffer
    else if QueueLimits.largestBuffer < limits.buffer then .error .bufferTooLarge
    else .ok {
      limits := limits
      channels := List.replicate partitions .empty
      lanes := Table.empty
      closed := false
      released := false
      marks := []
      nonempty := by simpa using h }
  else .error .noPartition

def partitions (q : Queue) : Nat := q.channels.length

def partitionOf (q : Queue) (c : CampaignId) : Nat := c.value.toNat % q.partitions

theorem partitionOf_lt (q : Queue) (c : CampaignId) : q.partitionOf c < q.partitions :=
  Nat.mod_lt _ q.nonempty

def channel (q : Queue) (p : Nat) : Channel := q.channels[p]?.getD ⟨[], false⟩

def setChannel (q : Queue) (p : Nat) (c : Channel) : Queue :=
  { q with channels := q.channels.set p c, nonempty := by simpa using q.nonempty }

def lane (q : Queue) (c : CampaignId) : Lane := q.lanes.getD c .idle

def setLane (q : Queue) (c : CampaignId) (l : Lane) : Queue :=
  { q with lanes := q.lanes.insert c l }

def depth (q : Queue) (c : CampaignId) : Nat := (q.lane c).queued

def inFlight (q : Queue) (c : CampaignId) : Nat := (q.lane c).inFlight

def totalDepth (q : Queue) : Nat := totalBy Lane.queued q.lanes.values

def totalInFlight (q : Queue) : Nat := totalBy Lane.inFlight q.lanes.values

/-- How many messages stand in all lines together. -/
def load (q : Queue) : Nat := totalBy (fun c => c.messages.length) q.channels

def overloaded (q : Queue) (details : String) : Refusal :=
  .overloaded details q.limits.retryAfterSecs

/-- Whether a partition holds all the messages it can. -/
def isFull (q : Queue) (p : Nat) : Bool := q.limits.buffer ≤ (q.channel p).messages.length

/-- Puts a request at the end of its line, or says why it cannot stand there: admission has ended,
too many of its campaign wait, or the line has no consumer or no room. -/
def enqueue (q : Queue) (r : IssuanceRequest) : Except Refusal Queue :=
  let lane := q.lane r.campaign
  let p := q.partitionOf r.campaign
  if q.closed then .error .shuttingDown
  else if q.limits.maxDepth ≤ lane.queued then
    .error (q.overloaded s!"campaign {r.campaign} has {q.limits.maxDepth} queued requests")
  else if !(q.channel p).attended then .error .shuttingDown
  else if q.isFull p then .error (q.overloaded s!"partition {p} is full")
  else .ok ((q.setChannel p ((q.channel p).push (.issue r))).setLane r.campaign
    { lane with queued := lane.queued + 1 })

/-- Takes the first message off a line. A request handed out counts as processing from now on. -/
def dequeue (q : Queue) (p : Nat) : Queue × Dequeued :=
  let c := q.channel p
  if !c.attended then (q, .unattended)
  else match c.messages with
    | [] => (q, if q.released then .closed else .empty)
    | .issue r :: rest =>
      let lane := q.lane r.campaign
      ((q.setChannel p { c with messages := rest }).setLane r.campaign
        ⟨lane.queued - 1, lane.processing + 1⟩, .request r)
    | .stop m :: rest => (q.setChannel p { c with messages := rest }, .stop m)

/-- Ends the processing of a request that was handed out. -/
def release (q : Queue) (c : CampaignId) : Queue :=
  let lane := q.lane c
  q.setLane c { lane with processing := lane.processing - 1 }

/-- Ends admission; what is queued stays queued. -/
def close (q : Queue) : Queue := { q with closed := true }

/-- Does something only while no request of a campaign is in flight; otherwise says how many
are. -/
def whenIdle {α : Type} (q : Queue) (c : CampaignId) (work : α) : Except Nat α :=
  if q.inFlight c = 0 then .ok work else .error (q.inFlight c)

/-- Puts a stop marker at the end of a line. -/
def sendStop (q : Queue) (p : Nat) : Queue × StopSent :=
  let c := q.channel p
  if !c.attended then
    (q, .refused (.internal s!"partition {p} consumer closed: channel closed"))
  else if q.isFull p then (q, .blocked)
  else
    let marker := q.marks.length
    ({ q.setChannel p (c.push (.stop marker)) with marks := q.marks ++ [.waiting] },
      .placed marker)

def mark (q : Queue) (marker : Nat) : Mark := q.marks[marker]?.getD .gone

/-- Acknowledges a marker, if that is still to be done. -/
def acknowledge (q : Queue) (marker : Nat) : Queue × Bool :=
  if q.mark marker = .waiting then
    ({ q with marks := q.marks.set marker .acknowledged }, true)
  else (q, false)

/-- The consumer of a partition leaves. The messages in its line are lost, but the lanes go on
counting them. -/
def abandon (q : Queue) (p : Nat) : Queue :=
  let lost := (q.channel p).markers
  { q.setChannel p ⟨[], false⟩ with marks := lost.foldl (fun ms m => ms.set m .gone) q.marks }

/-- All who could still send are gone. -/
def releaseSenders (q : Queue) : Queue := { q with released := true }

end Queue
end CouponIssuance
