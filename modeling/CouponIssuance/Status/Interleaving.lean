import CouponIssuance.Status.Wait
/-!
# A waiter among others

A waiter signs up in the shard of its record, then reads the record, and falls asleep unless the record
has become terminal or is gone. Who makes a record terminal writes it first and announces that in the
shard later, to all who have signed up there by then. Between any two of these steps others may take
theirs, in any order. Time passes only when nobody has anything to do.
-/
namespace CouponIssuance.StatusStore

/-- How far a waiter is. Once it has signed up, it knows whether it has been `told` something since. -/
inductive Waiter where
  | outside
  | signedUp (told : Bool)
  | asleep (seen : StatusRecord) (told : Bool)
  | left (waited : Waited)

def Waiter.tell : Waiter → Waiter
  | .signedUp _ => .signedUp true
  | .asleep seen _ => .asleep seen true
  | w => w

/-- What has still to be done after some time has passed. -/
def Schedule.sooner (duration : Millis) : Schedule → Schedule
  | [] => []
  | (delay, action) :: later => (delay - duration, action) :: later

/-- A waiter among others. Requests are `unannounced` whose records have become terminal, as long as
nobody has been told; and `others` is what the others have still to do. -/
structure Scene where
  store : StatusStore
  now : Millis
  waiter : Waiter
  unannounced : List RequestId
  others : Schedule

namespace Scene

/-- The others announce that a record has become terminal. -/
def announce (c : Scene) (id request : RequestId) (rest : List RequestId) : Scene :=
  { c with
    waiter :=
      if c.store.entries.home request = c.store.entries.home id then c.waiter.tell else c.waiter
    unannounced := rest }

/-- The others carry out an action. -/
def act (c : Scene) (action : StatusAction) (later : Schedule) : Scene :=
  { c with
    store := (c.store.act c.now action).1
    unannounced := c.unannounced ++ (c.store.settled? c.now action).toList
    others := later }

def pass (c : Scene) (duration : Millis) : Scene :=
  { c with now := c.now + duration, others := c.others.sooner duration }

/-- One step of a waiter for the record of `id` whose time is up at the deadline, or of others. -/
inductive Step (id : RequestId) (deadline : Millis) (c : Scene) : Scene → Prop
  | signedUp (h : c.waiter = .outside) : Step id deadline c { c with waiter := .signedUp false }
  | read {told} (h : c.waiter = .signedUp told)
      (hend : ∀ record, c.store.get c.now id = some record → record.state.isTerminal = true) :
      Step id deadline c { c with waiter := .left ⟨c.store.get c.now id, c.now⟩ }
  | slept {told record} (h : c.waiter = .signedUp told) (hget : c.store.get c.now id = some record)
      (hlive : record.state.isTerminal = false) :
      Step id deadline c { c with waiter := .asleep record told }
  | woken {seen} (h : c.waiter = .asleep seen true) :
      Step id deadline c { c with waiter := .outside }
  | gaveUp {seen} (h : c.waiter = .asleep seen false) (hover : deadline ≤ c.now) :
      Step id deadline c { c with waiter := .left ⟨some seen, c.now⟩ }
  | acted {action later} (h : c.others = (0, action) :: later) : Step id deadline c (c.act action later)
  | announced {before request after} (h : c.unannounced = before ++ request :: after) :
      Step id deadline c (c.announce id request (before ++ after))
  | passed {seen duration} (h : c.waiter = .asleep seen false) (hquiet : c.unannounced = [])
      (hpos : 0 < duration) (hnext : ∀ delay action later, c.others = (delay, action) :: later →
        duration ≤ delay) (hover : c.now + duration ≤ deadline) : Step id deadline c (c.pass duration)

/-- Several steps in a row. -/
inductive Steps (id : RequestId) (deadline : Millis) : Nat → Scene → Scene → Prop
  | none (c) : Steps id deadline 0 c c
  | more {n c c' last} (h : Step id deadline c c') (hmore : Steps id deadline n c' last) :
      Steps id deadline (n + 1) c last

/-- Before the first step of a waiter. -/
def start (s : StatusStore) (now : Millis) (others : Schedule) : Scene :=
  ⟨s, now, .outside, [], others⟩

end Scene
end CouponIssuance.StatusStore
