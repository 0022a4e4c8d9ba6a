import CouponIssuance.Refusal
import CouponIssuance.Text.Decimal
/-!
# The mint

New names for requests and coupons are numbers written in decimal. They come from a generator, set up
with the number of the machine. A generator that has no number yet is asked again until the time for
the name is up.
-/
namespace CouponIssuance

/-- What a generator answers when it is asked for a number. -/
inductive Draw where
  | ready (number : Nat)
  | pending
  | failed (why : String)
  deriving DecidableEq

/-- The answers of a generator by its machine: name after name, those it gives before the time for the
name is up. -/
abbrev Generator := Nat → Nat → List Draw

structure Mint where
  machine : Nat
  answers : Nat → List Draw
  /-- How many names have been asked for. -/
  drawn : Nat

namespace Mint

/-- The largest machine number that a generator takes. -/
def maxMachine : Nat := 1023

def create (generator : Generator) (machine : Nat) : Mint := ⟨machine, generator machine, 0⟩

/-- The name that answers come to. -/
def name : List Draw → Except Refusal String
  | [] => .error (.internal "id generator stayed pending")
  | .pending :: later => name later
  | .ready number :: _ => .ok (String.ofList (Decimal.render number))
  | .failed why :: _ => .error (.internal ("id generation failed: " ++ why))

def next (m : Mint) : Mint × Except Refusal String :=
  ({ m with drawn := m.drawn + 1 }, name (m.answers m.drawn))

end Mint
end CouponIssuance
