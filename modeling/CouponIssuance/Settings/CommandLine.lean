import CouponIssuance.Settings
/-!
# The command line

Settings are given as options such as `--num-workers 2` or `--num-workers=2`, or else by environment
variables. An option without `=` takes the next word as its value unless that looks like an option
itself, and is settled only when the next option comes or the line ends; so a fault in an earlier
option can be found after a fault in a later word.
-/
namespace CouponIssuance

/-- Why a command line gives no arguments. Two of the reasons are that it asks for something else. -/
inductive UsageFault where
  | unknown
  | repeated
  | missingValue
  | badNumber
  | badSwitch
  | needlessValue
  | helpWanted
  | versionWanted
  deriving DecidableEq

def UsageFault.message : UsageFault → String
  | .unknown => "unknown argument"
  | .repeated => "an option is given twice"
  | .missingValue => "an option has no value"
  | .badNumber => "a value is no number"
  | .badSwitch => "a value is neither true nor false"
  | .needlessValue => "an option takes no value"
  | .helpWanted =>
    let line (s : Setting) : String := s!"  --{s.option}, or {s.envName} in the environment"
    "\n".intercalate ("options:" :: Setting.all.map line)
  | .versionWanted => "coupon-server 0.1.0"

/-- Whether a command line has been answered rather than refused. -/
def UsageFault.isAnswer : UsageFault → Bool
  | .helpWanted | .versionWanted => true
  | _ => false

namespace Arguments

private def amount (value : List Char) (put : UInt64 → Arguments) : Except UsageFault Arguments :=
  match Decimal.parse value with
  | .ok n => .ok (put n)
  | .error _ => .error .badNumber

/-- Gives a setting the value that a text spells. -/
def assign (a : Arguments) (s : Setting) (value : List Char) : Except UsageFault Arguments :=
  match s with
  | .serverAddr => .ok { a with serverAddr := String.ofList value }
  | .numWorkers => amount value fun n => { a with numWorkers := n }
  | .maxQueueDepth => amount value fun n => { a with maxQueueDepth := n }
  | .partitionBuffer => amount value fun n => { a with partitionBuffer := n }
  | .dequeueTimeoutMs => amount value fun n => { a with dequeueTimeoutMs := n }
  | .statusTtlSecs => amount value fun n => { a with statusTtlSecs := n }
  | .sweepIntervalSecs => amount value fun n => { a with sweepIntervalSecs := n }
  | .shutdownTimeoutSecs => amount value fun n => { a with shutdownTimeoutSecs := n }
  | .maxStatusWaitMs => amount value fun n => { a with maxStatusWaitMs := n }
  | .retryAfterSecs => amount value fun n => { a with retryAfterSecs := n }
  | .allowLiveReset =>
    if value = "true".toList then .ok { a with allowLiveReset := true }
    else if value = "false".toList then .ok { a with allowLiveReset := false }
    else .error .badSwitch
  | .machineId => amount value fun n => { a with machineId := n }
  | .storeShards => amount value fun n => { a with storeShards := n }
  | .seedCampaigns => .ok { a with seedCampaigns := String.ofList value }
  | .defaultDiscount => amount value fun n => { a with defaultDiscount := n }

end Arguments

namespace CommandLine

inductive Word where
  /-- An option by its name, with the value after `=` if there is one. -/
  | option (setting : Setting) (value : Option (List Char))
  | help (value : Option (List Char))
  | version (value : Option (List Char))
  /-- The two dashes after which no option can follow. -/
  | terminator
  | plain (text : List Char)
  | unknown
  deriving DecidableEq

/-- The setting that is only switched on, and takes no value. -/
def isSwitch (s : Setting) : Bool := s = .allowLiveReset

private def named (name : List Char) (value : Option (List Char)) : Word :=
  if name = "help".toList then .help value
  else if name = "version".toList then .version value
  else match Setting.all.find? fun s => s.option.toList = name with
    | some s => .option s value
    | none => .unknown

def Word.ofText : List Char → Word
  | ['-', '-'] => .terminator
  | '-' :: '-' :: text =>
    match Text.splitFirst '=' text with
    | some (name, value) => named name (some value)
    | none => named text none
  | '-' :: c :: _ =>
    if c = 'h' then .help none else if c = 'V' then .version none else .unknown
  | text => .plain text

/-- What is known after a part of the command line. -/
structure Progress where
  arguments : Arguments
  given : List Setting
  /-- An option whose value may still come, and the value once it has come. -/
  pending : Option (Setting × Option (List Char))

namespace Progress

/-- Takes a setting that has come with its value. -/
def take (p : Progress) (s : Setting) (value : List Char) : Except UsageFault Progress :=
  if s ∈ p.given then .error .repeated
  else do
    let arguments ← p.arguments.assign s value
    return { arguments := arguments, given := s :: p.given, pending := none }

/-- Settles the option whose value could still come. -/
def settle (p : Progress) : Except UsageFault Progress :=
  match p.pending with
  | none => .ok p
  | some (_, none) => .error .missingValue
  | some (s, some value) => p.take s value

/-- Takes a word that is not a terminator. -/
def step (p : Progress) : Word → Except UsageFault Progress
  | .option s value =>
    if isSwitch s then
      if value.isSome then .error .needlessValue
      else do (← p.settle).take s "true".toList
    else do
      let p ← p.settle
      match value with
      | some value => p.take s value
      | none => return { p with pending := some (s, none) }
  | .help value => do
    if value.isSome then .error .needlessValue
    else let _ ← p.settle; .error .helpWanted
  | .version value => do
    if value.isSome then .error .needlessValue
    else let _ ← p.settle; .error .versionWanted
  | .plain text =>
    match p.pending with
    | some (s, none) => .ok { p with pending := some (s, some text) }
    | _ => .error .unknown
  | .terminator => .ok p
  | .unknown => .error .unknown

/-- Takes the words of a command line up to its end. -/
def run (p : Progress) : List (List Char) → Except UsageFault Progress
  | [] => p.settle
  | text :: rest =>
    match Word.ofText text with
    | .terminator => if rest.isEmpty then p.settle else .error .unknown
    | word => do (← p.step word).run rest

end Progress

/-- Takes from the environment what was not given on the command line. -/
def fromEnvironment (env : String → Option String) (given : List Setting) (a : Arguments) :
    List Setting → Except UsageFault Arguments
  | [] => .ok a
  | s :: rest =>
    match if s ∈ given then none else env s.envName with
    | none => fromEnvironment env given a rest
    | some value => do fromEnvironment env given (← a.assign s value.toList) rest

/-- The arguments that a command line and an environment give, over the usual ones. -/
def parse (argv : List String) (env : String → Option String) : Except UsageFault Arguments := do
  let p ← Progress.run ⟨{}, [], none⟩ (argv.map String.toList)
  fromEnvironment env p.given p.arguments Setting.all

end CommandLine
end CouponIssuance
