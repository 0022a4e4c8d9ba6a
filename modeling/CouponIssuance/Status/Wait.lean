import CouponIssuance.Status.Store
/-!
# Waiting for a terminal record

A waiter looks at a record, and looks again whenever a record in the same shard has become terminal,
until its own record is terminal or gone or its time is up; then it answers what it saw last.

Meanwhile others work on the store; what they do is given as a schedule. The waiter and the others
meet in rounds: one round at the start, one at each instant at which something is to be done, and more
at an instant if one is not enough. In the first round the waiter looks before the others act, in the
second they act before it looks, and so on in turn. So when its time is up at the very instant of
an action, the number of rounds before decides whether it still sees what the action does.
-/
namespace CouponIssuance

inductive StatusAction where
  | put (record : StatusRecord)
  | get (request : RequestId)
  | advance (request : RequestId) (next : RequestState)
  | resolve (request : RequestId) (resolution : Resolution)
  | remove (request : RequestId)
  | purge
  | count

inductive StatusReply where
  | stored (record : StatusRecord)
  | found (record : Option StatusRecord)
  | moved (result : Except Refusal StatusRecord)
  | removed (record : Option StatusRecord)
  | purged (count : Nat)
  | counted (count : Nat)

namespace StatusStore

def act (s : StatusStore) (now : Millis) : StatusAction → StatusStore × StatusReply
  | .put r => (s.put now r, .stored r)
  | .get id => (s, .found (s.get now id))
  | .advance id next =>
    match s.advance now id next with
    | .ok (s, r) => (s, .moved (.ok r))
    | .error e => (s, .moved (.error e))
  | .resolve id resolution =>
    match s.resolve now id resolution with
    | .ok (s, r) => (s, .moved (.ok r))
    | .error e => (s, .moved (.error e))
  | .remove id =>
    let (s, r) := s.remove id
    (s, .removed r)
  | .purge =>
    let (s, n) := s.purge now
    (s, .purged n)
  | .count => (s, .counted s.size)

/-- The request whose record an action makes terminal, if it makes one. -/
def settled? (s : StatusStore) (now : Millis) (a : StatusAction) : Option RequestId :=
  let terminal (r : StatusRecord) : Option RequestId :=
    if r.state.isTerminal then some r.request else none
  match a, (s.act now a).2 with
  | .put r, _ => terminal r
  | .advance id next, .moved (.ok _) => if next.isTerminal then some id else none
  | .resolve id _, .moved (.ok _) => some id
  | _, _ => none

/-- Whether an action wakes who waits for the record of `id`. -/
def wakes (s : StatusStore) (now : Millis) (id : RequestId) (a : StatusAction) : Bool :=
  (s.settled? now a).any fun settled => s.entries.home settled = s.entries.home id

/-- Carries out several actions, and tells whether they wake who waits for the record of `id`. -/
def actAll (s : StatusStore) (now : Millis) (id : RequestId) :
    List StatusAction → StatusStore × Bool
  | [] => (s, false)
  | a :: rest =>
    let (after, woken) := actAll (s.act now a).1 now id rest
    (after, s.wakes now id a || woken)

/-! ## Rounds -/

/-- The actions of others, each with the time since the one before. -/
abbrev Schedule := List (Millis × StatusAction)

/-- What others do in one round, and the time since the round before. -/
structure Round where
  delay : Millis
  actions : List StatusAction

/-- The actions that still go into the present round, in which there is room for so many, and the
rounds after it, which have at most `size` actions. A round is over when there is no room left or the
next action is to come later; who has used up all the room looks once more before time goes on. -/
def splitRounds (size : Nat) : Nat → Schedule → List StatusAction × List Round
  | _, [] => ([], [])
  | room, (delay, action) :: rest =>
    if delay = 0 && 0 < room then
      let (actions, later) := splitRounds size (room - 1) rest
      (action :: actions, later)
    else
      let (actions, later) := splitRounds size (size - 1) rest
      let next : List Round := ⟨delay, action :: actions⟩ :: later
      ([], if 0 < delay && room = 0 then ⟨0, []⟩ :: next else next)

/-- The rounds of a schedule. The first is held at once, whether there is something to do or not. -/
def rounds (size : Nat) (others : Schedule) : List Round :=
  let (actions, later) := splitRounds size size others
  ⟨0, actions⟩ :: later

/-! ## Waiting -/

structure Waited where
  record : Option StatusRecord
  endedAt : Millis
  deriving DecidableEq

/-- Where a waiter stands before a round. -/
structure Watch where
  /-- The record it saw last, which is not terminal. -/
  seen : StatusRecord
  /-- Whether a record in the shard has become terminal since. -/
  woken : Bool
  /-- Whether it looks before the others act. -/
  leads : Bool

/-- The waiter looks: at the store if it was woken, else only at the time. That ends the wait if its
record is terminal or gone, or its time is up. -/
def look (s : StatusStore) (id : RequestId) (deadline now : Millis) (w : Watch) :
    Except Waited Watch :=
  match if w.woken then s.get now id else some w.seen with
  | none => .error ⟨none, now⟩
  | some r =>
    if r.state.isTerminal || deadline ≤ now then .error ⟨some r, now⟩
    else .ok { w with seen := r, woken := false }

/-- Holds a round. The next one is led by the other side. -/
def holdRound (s : StatusStore) (id : RequestId) (deadline now : Millis)
    (actions : List StatusAction) (w : Watch) : Except Waited (StatusStore × Watch) :=
  let (after, woken) := s.actAll now id actions
  if w.leads then do
    let w ← s.look id deadline now w
    return (after, { w with woken := woken, leads := false })
  else do
    let w ← after.look id deadline now { w with woken := w.woken || woken }
    return (after, { w with leads := true })

/-- Goes on waiting through the rounds. If the last round of an instant wakes a waiter that was not
awake, one more round is held at that instant, in which the others have nothing to do. -/
def awaitFrom (s : StatusStore) (id : RequestId) (deadline : Millis) (w : Watch) (now : Millis) :
    List Round → Waited
  | [] => ⟨some w.seen, deadline⟩
  | round :: later =>
    let instant := now + round.delay
    if deadline < instant then ⟨some w.seen, deadline⟩
    else
      let woken := !w.woken && (s.actAll instant id round.actions).2
      let isLast := later.head?.all fun next => 0 < next.delay
      let held := do
        let (after, w) ← s.holdRound id deadline instant round.actions w
        if woken && isLast then after.holdRound id deadline instant [] w else return (after, w)
      match held with
      | .error waited => waited
      | .ok (after, w) => awaitFrom after id deadline w instant later

/-- Waits from `now` for the record of `id` to become terminal, at most for `most`. In one round the
others carry out `size` actions at most. -/
def await (s : StatusStore) (size : Nat) (id : RequestId) (now most : Millis) (others : Schedule) :
    Waited :=
  match s.get now id with
  | none => ⟨none, now⟩
  | some r =>
    if r.state.isTerminal then ⟨some r, now⟩
    else awaitFrom s id (now + most) ⟨r, false, true⟩ now (rounds size others)

/-- Carries out a whole schedule: the store and the instant at its end, and the replies. -/
def follow (s : StatusStore) (now : Millis) : Schedule → StatusStore × Millis × List StatusReply
  | [] => (s, now, [])
  | (delay, action) :: rest =>
    let (s, reply) := s.act (now + delay) action
    let (s, now, replies) := follow s (now + delay) rest
    (s, now, reply :: replies)

end StatusStore
end CouponIssuance
