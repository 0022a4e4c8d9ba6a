import CouponIssuance.Mint
import CouponIssuance.Window
/-!
# Numbers by time, machine and sequence

A generator to run with. A number is made of the milliseconds since an epoch, the machine, and a
sequence within the millisecond, from the high bits to the low. The clock of the generator is set
once and goes on when the numbers of a millisecond are used up.
-/
namespace CouponIssuance.Snowflake

def epoch : Millis := 1288834974657

/-- How many numbers there are for each machine in a millisecond. -/
def sequences : Nat := 4096

def machines : Nat := Mint.maxMachine + 1

/-- The last millisecond that has room in a number. -/
def lastTick : Nat := 2199023255551

/-- Puts a number together from its parts. -/
def compose (tick machine sequence : Nat) : Nat :=
  (tick * machines + machine) * sequences + sequence

/-- The generator that is set up at an instant. It answers at once. -/
def generator (now : Millis) : Generator := fun machine n =>
  let tick := now - epoch + n / sequences
  [if lastTick < tick then .failed "timestamp overflow"
    else .ready (compose tick (machine % machines) (n % sequences))]

end CouponIssuance.Snowflake
