import CouponIssuance.Shutdown
/-!
# The running service

A service together with what drives it: the mint, the workers of all partitions, and the sweeper.
Workers take their turns while the service waits, and are done with all that is queued before time
goes on. The first time they go in the order of their partitions; later the worker whose line began
to fill first goes first. A worker with a long line gives way to the others after a stint.
-/
namespace CouponIssuance

/-- What a server runs on, and does not decide itself. -/
structure Platform where
  hashing : Hashing
  generator : Generator
  /-- How many messages a worker deals with before it gives way to the others. -/
  stint : Nat
  /-- How many workers get to work in one round at most. -/
  crew : Nat
  /-- The longest time between two sweeps. -/
  longestPeriod : Millis
  /-- Whether a parameter of a path that stands before another word may be empty. -/
  emptyParameters : Bool

structure Server where
  platform : Platform
  service : Service
  mint : Mint
  /-- The partitions whose workers are due, in the order in which they get to work: all of them at
  first, later those whose lines have begun to fill. -/
  due : List Nat
  /-- When the next sweep is due; none after the sweeper has been stopped. -/
  nextSweep : Option Millis

namespace Server

def sweepPeriod (platform : Platform) (settings : Settings) : Millis :=
  min (settings.sweepIntervalSecs.toNat * 1000) platform.longestPeriod

def start (platform : Platform) (settings : Settings) (now : Millis) :
    Except Service.StartFault Server := do
  let service ← Service.create platform.hashing settings now
  return {
    platform := platform
    service := service
    mint := .create platform.generator settings.machineId.toNat
    due := List.range service.queue.partitions
    nextSweep := some (now + sweepPeriod platform settings) }

/-- Asks for a coupon under a newly minted name. -/
def issue (s : Server) (requester : RequesterId) (campaign : CampaignId) :
    Server × Except Refusal Admission :=
  let (mint, name) := s.mint.next
  let (service, answer) := s.service.issue requester campaign (name.map RequestId.mk)
  let p := s.service.queue.partitionOf campaign
  let filled := (s.service.queue.channel p).messages.isEmpty &&
    !(service.queue.channel p).messages.isEmpty
  ({ s with
      service := service
      mint := if (s.service.answer? requester campaign).isSome then s.mint else mint
      due := if filled && !s.due.contains p then s.due ++ [p] else s.due }, answer)

/-! ## Work -/

/-- The worker of one partition deals with so many messages. -/
def work (s : Server) (p count : Nat) : Server :=
  let (office, mint) :=
    Office.turns p s.service.cancelled s.service.now count (s.service.toOffice, s.mint)
  { s with service := { s.service with toOffice := office }, mint := mint }

/-- How many messages stand in one line. -/
def lineLength (s : Server) (p : Nat) : Nat := (s.service.queue.channel p).messages.length

/-- The worker of one partition works for a stint. -/
def serve (s : Server) (p : Nat) : Server := s.work p (min s.platform.stint (s.lineLength p))

/-- The workers of some partitions get to work, one after another. Those who worked for a whole stint
are due again, the last of them first. -/
def serveAll (s : Server) : List Nat → Server × List Nat
  | [] => (s, [])
  | p :: rest =>
    let (after, again) := serveAll (s.serve p) rest
    (after, if s.platform.stint ≤ s.lineLength p then again ++ [p] else again)

/-- A round: the workers who are due get to work, and who is due again comes after the others. -/
def round (s : Server) : Server :=
  let (after, again) := s.serveAll (s.due.take s.platform.crew)
  { after with due := s.due.drop s.platform.crew ++ again }

/-- Holds rounds until no worker is due or there is no need for more, at most so many. -/
def roundsUntil (enough : Server → Bool) : Nat → Server → Server
  | 0, s => s
  | n + 1, s => if s.due.isEmpty || enough s then s else roundsUntil enough n s.round

/-- Holds rounds until no worker is due or there is no need for more. In every round a worker who was
due is not due any more, or has shortened its line. -/
def workUntil (s : Server) (enough : Server → Bool) : Server :=
  roundsUntil enough (s.due.length + s.service.queue.load) s

/-- The workers deal with all that is queued. -/
def drain (s : Server) : Server := s.workUntil fun _ => false

/-! ## Time -/

/-- Sweeps as often as is due up to an instant. Of several sweeps in a row only the last counts,
since it removes what the others do. -/
def sweepUntil (s : Server) (instant : Millis) : Server :=
  match s.nextSweep with
  | none => s
  | some due =>
    if instant < due then s
    else
      let period := sweepPeriod s.platform s.service.settings
      let last := due + (instant - due) / period * period
      { s with
        service := (s.service.wait (last - s.service.now)).sweep
        nextSweep := some (last + period) }

/-- Lets time go on. -/
def pass (s : Server) (duration : Millis) : Server :=
  let ending := s.service.now + duration
  let s := s.sweepUntil ending
  { s with service := s.service.wait (ending - s.service.now) }

/-- Lets time go on after the workers are done. -/
def advance (s : Server) (duration : Millis) : Server := s.drain.pass duration

/-! ## Waiting for the end of a request -/

/-- How long a status request waits when it asks for a length of time. -/
def waitFor (s : Server) (asked : Option UInt64) : Millis :=
  min (asked.getD 0).toNat s.service.settings.maxStatusWaitMs.toNat

def hasEnded (id : RequestId) (s : Server) : Bool :=
  match s.service.status id with
  | .ok record => record.state.isTerminal
  | .error _ => true

/-- The record of a request, after waiting for its end if that was asked for. Who waits looks again
after each round of the workers, and if the request has not ended when they are done, waits until the
time is up. -/
def status (s : Server) (id : RequestId) (asked : Option UInt64) :
    Server × Except Refusal StatusRecord :=
  if 0 < s.waitFor asked && !s.hasEnded id then
    let s' := s.workUntil (hasEnded id)
    let s' := if s'.hasEnded id then s' else s'.pass (s.waitFor asked)
    (s', s'.service.status id)
  else (s, s.service.status id)

/-! ## Shutting down -/

/-- Every worker deals with all that is in its line. -/
def workThrough (s : Server) : Server :=
  (List.range s.service.queue.partitions).foldl (fun s p => s.work p (s.lineLength p)) s

/-- Meanwhile the workers work, and if that does not end what a shutdown waits for, time goes on. -/
def abide (s : Server) (phase : Phase) : Server :=
  match phase with
  | .draining deadline check => s.advance (min deadline check - s.service.now)
  | .telling _ deadline _ _ | .hearing deadline _ _ =>
    let s := s.workThrough
    if (s.service.stop phase).isSome then s else s.pass (deadline - s.service.now)
  | _ => s

/-- Takes a shutdown one step further. -/
def stopOnce (s : Server) (phase : Phase) : Server × Phase :=
  let s := if (s.service.stop phase).isSome then s else s.abide phase
  match s.service.stop phase with
  | some (service, next) => ({ s with service := service }, next)
  | none => (s, phase)

/-- Takes a shutdown further until it is over, in so many steps at most. -/
def stopWithin : Nat → Server → Phase → Server × Phase
  | 0, s, phase => (s, phase)
  | n + 1, s, phase =>
    match phase with
    | .finished _ => (s, phase)
    | _ =>
      let (s, next) := s.stopOnce phase
      stopWithin n s next

/-- The most steps that a shutdown takes: it looks whether work is in flight in every period, and tells
every worker to stop. -/
def stopSteps (s : Server) : Nat :=
  s.service.settings.shutdownTimeoutSecs.toNat * 1000 / Phase.checkPeriod +
    s.service.queue.partitions + 6

/-- Stops the sweeper and shuts the service down. -/
def shutdown (s : Server) : Server := (stopWithin s.stopSteps { s with nextSweep := none } .begun).1

end Server
end CouponIssuance
