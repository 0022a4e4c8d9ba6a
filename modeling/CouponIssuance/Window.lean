/-!
# Windows

The time in which a campaign is open: from a first instant up to, and without, a last one. Either
end may be missing. Instants are milliseconds.
-/
namespace CouponIssuance

/-- An instant, or a length of time, in milliseconds. -/
abbrev Millis := Nat

structure Window where
  startsAt : Option UInt64
  endsAt : Option UInt64
  deriving DecidableEq

inductive Closure where
  | startsAt (start : UInt64)
  | endedAt (ending : UInt64)
  deriving DecidableEq

def Closure.message : Closure → String
  | .startsAt start => s!"starts at {start}"
  | .endedAt ending => s!"ended at {ending}"

namespace Window

def unlimited : Window := ⟨none, none⟩

/-- Whether the window has an end and it has been reached. -/
def hasEnded (w : Window) (now : Millis) : Bool := w.endsAt.any fun ending => ending.toNat ≤ now

/-- Why the window is closed now, if it is. A start still to come is named before an end. -/
def closure? (w : Window) (now : Millis) : Option Closure :=
  match w.startsAt.filter fun start => now < start.toNat,
      w.endsAt.filter fun ending => ending.toNat ≤ now with
  | some start, _ => some (.startsAt start)
  | none, some ending => some (.endedAt ending)
  | none, none => none

def isOpen (w : Window) (now : Millis) : Bool := (w.closure? now).isNone

end Window
end CouponIssuance
