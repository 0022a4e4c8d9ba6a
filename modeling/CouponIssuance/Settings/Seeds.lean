import CouponIssuance.Identity
import CouponIssuance.Text.Blank
import CouponIssuance.Text.Decimal
/-!
# Seed lists

The campaigns that are there when the service starts, written as `1=100, 2=5`: pairs of a campaign
and its stock, with commas between them. White space around a pair or a number does not count, nor
do empty pairs. No campaign may be listed twice.
-/
namespace CouponIssuance.Seeds

/-- A campaign to start with, and its stock. -/
abbrev Seed := CampaignId × UInt64

inductive Fault where
  | noEquals (entry : List Char)
  | badCampaign (entry : List Char) (why : Decimal.Fault)
  | badTotal (entry : List Char) (why : Decimal.Fault)
  | repeated (campaign : CampaignId)
  deriving DecidableEq

def Fault.message : Fault → String
  | .noEquals entry =>
    "SEED_CAMPAIGNS entry `" ++ String.ofList entry ++ "` is not of the form id=total"
  | .badCampaign entry why =>
    "invalid campaign id in `" ++ String.ofList entry ++ "`: " ++ why.message
  | .badTotal entry why => "invalid total in `" ++ String.ofList entry ++ "`: " ++ why.message
  | .repeated campaign => s!"SEED_CAMPAIGNS lists campaign {campaign} twice"

/-- The entries of a list, without the white space around them and without the empty ones. -/
def entries (raw : List Char) : List (List Char) :=
  ((Text.splitOn ',' raw).map Text.trim).filter (· ≠ [])

def readEntry (entry : List Char) : Except Fault Seed :=
  match Text.splitFirst '=' entry with
  | none => .error (.noEquals entry)
  | some (campaign, total) =>
    match Decimal.parse (Text.trim campaign) with
    | .error why => .error (.badCampaign entry why)
    | .ok campaign =>
      match Decimal.parse (Text.trim total) with
      | .error why => .error (.badTotal entry why)
      | .ok total => .ok (⟨campaign⟩, total)

/-- Reads entries in their order, after those of the campaigns `seen`. -/
def readEntries (seen : List CampaignId) : List (List Char) → Except Fault (List Seed)
  | [] => .ok []
  | entry :: rest => do
    let seed ← readEntry entry
    if seed.1 ∈ seen then .error (.repeated seed.1)
    else return seed :: (← readEntries (seed.1 :: seen) rest)

def parse (raw : List Char) : Except Fault (List Seed) := readEntries [] (entries raw)

end CouponIssuance.Seeds
