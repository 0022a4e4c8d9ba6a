import CouponIssuance.Mint
import CouponIssuance.Settings.Seeds
/-!
# Settings

What the service can be told when it starts. `Arguments` are the values as given; `Settings` are
values found fit for use, so the service need not look at them again.
-/
namespace CouponIssuance

/-- The things that can be set, in the order in which they are listed to users. -/
inductive Setting where
  | serverAddr
  | numWorkers
  | maxQueueDepth
  | partitionBuffer
  | dequeueTimeoutMs
  | statusTtlSecs
  | sweepIntervalSecs
  | shutdownTimeoutSecs
  | maxStatusWaitMs
  | retryAfterSecs
  | allowLiveReset
  | machineId
  | storeShards
  | seedCampaigns
  | defaultDiscount
  deriving DecidableEq

namespace Setting

def all : List Setting :=
  [serverAddr, numWorkers, maxQueueDepth, partitionBuffer, dequeueTimeoutMs, statusTtlSecs,
    sweepIntervalSecs, shutdownTimeoutSecs, maxStatusWaitMs, retryAfterSecs, allowLiveReset,
    machineId, storeShards, seedCampaigns, defaultDiscount]

def words : Setting → List String
  | serverAddr => ["server", "addr"]
  | numWorkers => ["num", "workers"]
  | maxQueueDepth => ["max", "queue", "depth"]
  | partitionBuffer => ["partition", "buffer"]
  | dequeueTimeoutMs => ["dequeue", "timeout", "ms"]
  | statusTtlSecs => ["status", "ttl", "secs"]
  | sweepIntervalSecs => ["sweep", "interval", "secs"]
  | shutdownTimeoutSecs => ["shutdown", "timeout", "secs"]
  | maxStatusWaitMs => ["max", "status", "wait", "ms"]
  | retryAfterSecs => ["retry", "after", "secs"]
  | allowLiveReset => ["allow", "live", "reset"]
  | machineId => ["machine", "id"]
  | storeShards => ["store", "shards"]
  | seedCampaigns => ["seed", "campaigns"]
  | defaultDiscount => ["default", "discount"]

/-- The name of the option on the command line, without the dashes before it. -/
def option (s : Setting) : String := "-".intercalate s.words

def envName (s : Setting) : String := ("_".intercalate s.words).toUpper

end Setting

/-- The values of all settings, as given. -/
structure Arguments where
  serverAddr : String := "0.0.0.0:8080"
  /-- The number of workers, and of partitions of the queue. -/
  numWorkers : UInt64 := 4
  /-- How many requests of one campaign may be queued. -/
  maxQueueDepth : UInt64 := 10000
  /-- How many messages a partition holds. -/
  partitionBuffer : UInt64 := 65536
  /-- How long an idle worker waits for a message. -/
  dequeueTimeoutMs : UInt64 := 1000
  /-- How long a terminal status record is kept. -/
  statusTtlSecs : UInt64 := 3600
  /-- The time between two sweeps. -/
  sweepIntervalSecs : UInt64 := 60
  /-- How long queued requests may be dealt with after the service was told to stop. -/
  shutdownTimeoutSecs : UInt64 := 10
  /-- How long a status request may wait at most. -/
  maxStatusWaitMs : UInt64 := 5000
  /-- What a caller is told who was refused for overload. -/
  retryAfterSecs : UInt64 := 1
  /-- Whether stock may be reset while requests of the campaign are in flight. -/
  allowLiveReset : Bool := false
  machineId : UInt64 := 0
  /-- The number of shards of the status store and of the ticket index. -/
  storeShards : UInt64 := 64
  seedCampaigns : String := ""
  /-- The discount of campaigns that are set up without one. -/
  defaultDiscount : UInt64 := 1000
  deriving DecidableEq

inductive SettingsFault where
  | zero (setting : Setting)
  | machineTooLarge (machine : UInt64)
  | seeds (fault : Seeds.Fault)
  deriving DecidableEq

def SettingsFault.message : SettingsFault → String
  | .zero setting => s!"{setting.envName} must be greater than 0"
  | .machineTooLarge machine =>
    s!"MACHINE_ID ({machine}) exceeds available Snowflake machine ID space " ++
      s!"(max = {Mint.maxMachine})"
  | .seeds fault => fault.message

namespace Arguments

/-- The settings that must not be zero, with their values. -/
def positive (a : Arguments) : List (Setting × UInt64) :=
  [(.numWorkers, a.numWorkers), (.maxQueueDepth, a.maxQueueDepth),
    (.partitionBuffer, a.partitionBuffer), (.dequeueTimeoutMs, a.dequeueTimeoutMs),
    (.sweepIntervalSecs, a.sweepIntervalSecs), (.storeShards, a.storeShards)]

/-- The first of the numbers that is out of range. -/
def fault? (a : Arguments) : Option SettingsFault :=
  match a.positive.find? fun p => p.2 = 0 with
  | some (setting, _) => some (.zero setting)
  | none => if Mint.maxMachine < a.machineId.toNat then some (.machineTooLarge a.machineId) else none

end Arguments

/-- Settings that are fit for use. -/
structure Settings extends Arguments where
  seeds : List Seeds.Seed
  sound : toArguments.fault? = none

namespace Settings

/-- Checks the numbers first, then the seed list. -/
def ofArguments (a : Arguments) : Except SettingsFault Settings :=
  match h : a.fault? with
  | some fault => .error fault
  | none =>
    match Seeds.parse a.seedCampaigns.toList with
    | .error fault => .error (.seeds fault)
    | .ok seeds => .ok { toArguments := a, seeds := seeds, sound := h }

end Settings
end CouponIssuance
