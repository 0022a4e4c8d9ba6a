/-!
# The life of a request

A request is pending, then processing, then in one of three terminal states. It only moves forward,
and never out of a terminal state.
-/
namespace CouponIssuance

inductive RequestState where
  | pending
  | processing
  | issued
  | soldOut
  | failed
  deriving DecidableEq

namespace RequestState

def isTerminal : RequestState → Bool
  | .pending | .processing => false
  | .issued | .soldOut | .failed => true

/-- Whether a request in this state keeps its requester from a new one. -/
def blocksReadmission : RequestState → Bool
  | .pending | .processing | .issued => true
  | .soldOut | .failed => false

/-- How far a state is along the way. -/
def rank : RequestState → Nat
  | .pending => 0
  | .processing => 1
  | .issued | .soldOut | .failed => 2

def canAdvanceTo (s next : RequestState) : Bool := !s.isTerminal && decide (s.rank < next.rank)

def name : RequestState → String
  | .pending => "PENDING"
  | .processing => "PROCESSING"
  | .issued => "ISSUED"
  | .soldOut => "SOLD_OUT"
  | .failed => "FAILED"

def all : List RequestState := [.pending, .processing, .issued, .soldOut, .failed]

def ofName? (s : String) : Option RequestState := all.find? fun state => state.name = s

instance : ToString RequestState := ⟨name⟩

end RequestState
end CouponIssuance
