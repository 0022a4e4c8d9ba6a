import CouponIssuance.Identity
import CouponIssuance.Table.Basic
/-!
# The stock ledger

For each campaign, how many units there were and how many remain. A unit is reserved only while one
remains, so no more can be reserved than there were.
-/
namespace CouponIssuance

structure Stock where
  total : UInt64
  remaining : UInt64
  deriving DecidableEq

namespace Stock

def full (total : UInt64) : Stock := ⟨total, total⟩

/-- The units that are gone. -/
def reserved (s : Stock) : UInt64 := s.total - s.remaining

end Stock

structure Ledger where
  stocks : Table CampaignId Stock
  deriving DecidableEq

namespace Ledger

def empty : Ledger := ⟨Table.empty⟩

def snapshot (l : Ledger) (c : CampaignId) : Option Stock := l.stocks.get? c

/-- The units that remain of a campaign, if it is known. -/
def peek (l : Ledger) (c : CampaignId) : Option UInt64 := (l.snapshot c).map Stock.remaining

/-- Opens the account of a campaign; one already open stays as it is. -/
def register (l : Ledger) (c : CampaignId) (total : UInt64) : Ledger × Bool :=
  if l.stocks.contains c then (l, false)
  else (⟨l.stocks.insert c (.full total)⟩, true)

/-- Takes one unit, if one remains. -/
def tryReserve (l : Ledger) (c : CampaignId) : Ledger × Bool :=
  match l.snapshot c with
  | none => (l, false)
  | some s =>
    if s.remaining = 0 then (l, false)
    else (⟨l.stocks.insert c { s with remaining := s.remaining - 1 }⟩, true)

/-- Gives one unit back, but never more than there were. -/
def restore (l : Ledger) (c : CampaignId) : Ledger × Bool :=
  match l.snapshot c with
  | none => (l, false)
  | some s =>
    if s.remaining < s.total then
      (⟨l.stocks.insert c { s with remaining := s.remaining + 1 }⟩, true)
    else (l, false)

/-- Fills a campaign's stock up to a new total, opening the account if need be. -/
def reset (l : Ledger) (c : CampaignId) (total : UInt64) : Ledger × Stock :=
  (⟨l.stocks.insert c (.full total)⟩, .full total)

end Ledger
end CouponIssuance
