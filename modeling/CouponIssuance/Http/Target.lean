import CouponIssuance.Json.Reader
import CouponIssuance.Text.Blank
/-!
# Targets

The target of a request: a path of segments, and perhaps a query of named values. A scheme and an
authority may stand before the path. In path and query any byte can be written as a percent sign and
two hexadecimal digits; a percent sign followed by anything else stands for itself.
-/
namespace CouponIssuance.Http

/-- The bytes that a text stands for. -/
def decode : List Char → List UInt8
  | [] => []
  | c :: cs =>
    if c = '%' then
      match cs with
      | a :: b :: rest =>
        match Json.Read.hexValue? a, Json.Read.hexValue? b with
        | some hi, some lo => UInt8.ofNat (hi * 16 + lo) :: decode rest
        | _, _ => String.utf8EncodeChar c ++ decode (a :: b :: rest)
      | rest => String.utf8EncodeChar c ++ decode rest
    else String.utf8EncodeChar c ++ decode cs
termination_by cs => cs.length

/-- The text that a part of a path stands for, unless its bytes are no text. -/
def decodeText? (s : List Char) : Option String :=
  String.fromUTF8? ⟨(decode s).toArray⟩

/-- What a request is for. A fragment after `#` does not count. -/
structure Target where
  path : List (List Char)
  query : List Char
  deriving DecidableEq

namespace Target

/-- Leaves out the scheme and the authority of a target. A target without a scheme that does not
begin with a slash has no path, and nothing is left of it. -/
def withoutAuthority (s : List Char) : List Char :=
  if s.head? = some '/' then s
  else match Text.splitFirst ':' s with
    | some (_, '/' :: '/' :: s) => s.dropWhile fun c => c ≠ '/' && c ≠ '?'
    | _ => []

/-- Takes a target apart; the path begins with a slash. -/
def ofText (s : List Char) : Target :=
  let s := withoutAuthority (s.takeWhile (· ≠ '#'))
  let (path, query) := (Text.splitFirst '?' s).getD (s, [])
  ⟨(Text.splitOn '/' path).drop 1, query⟩

end Target

namespace Query

/-- The bytes of a name or value in a query, where a plus sign stands for a blank. -/
def decodePart (s : List Char) : List UInt8 := decode (s.map fun c => if c = '+' then ' ' else c)

/-- The names and values of a query, in their order. -/
def pairs (query : List Char) : List (List UInt8 × List UInt8) :=
  ((Text.splitOn '&' query).filter (· ≠ [])).map fun part =>
    let (name, value) := (Text.splitFirst '=' part).getD (part, [])
    (decodePart name, decodePart value)

inductive Fault where
  | repeated
  | badWait (why : Decimal.Fault)
  deriving DecidableEq

def Fault.message : Fault → String
  | .repeated => "duplicate field `waitMs`"
  | .badWait why => "waitMs: " ++ why.message

def waitName : List UInt8 := "waitMs".toUTF8.toList

/-- Reads on in a query, knowing the wait found so far. Each byte of the value is read as a character,
since only digits count. -/
def readWait (found : Option UInt64) :
    List (List UInt8 × List UInt8) → Except Fault (Option UInt64)
  | [] => .ok found
  | (name, value) :: rest =>
    if name ≠ waitName then readWait found rest
    else if found.isSome then .error .repeated
    else
      match Decimal.parse (value.map fun b => Char.ofNat b.toNat) with
      | .ok n => readWait (some n) rest
      | .error why => .error (.badWait why)

def wait? (query : List Char) : Except Fault (Option UInt64) := readWait none (pairs query)

end Query
end CouponIssuance.Http
