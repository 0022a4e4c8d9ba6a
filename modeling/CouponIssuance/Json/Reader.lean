import CouponIssuance.Number.Double
import CouponIssuance.Text.Decimal
import CouponIssuance.Text.Sign
/-!
# Reading JSON

A reader takes a value off the front of what is left of the signs. It goes from left to right and
reports the first fault it meets: they are no JSON, or end too early, or are JSON of another form than
expected.

Values nobody asked for are skipped. There are two ways to do so. The lax one looks only at the
outline of a value: it allows unpaired surrogate escapes, bytes in a string that are no text, numbers
of any magnitude and any nesting. The strict one reads a value as if it were kept.
-/
namespace CouponIssuance.Json.Read

/-- Why a text could not be read: it is no JSON, it ends too early, or its form is unexpected. -/
inductive Fault where
  | malformed
  | truncated
  | mismatch
  deriving DecidableEq

/-- Takes a value off the front of a text. -/
abbrev Reader (α : Type) := List Sign → Except Fault (α × List Sign)

/-- The blanks that may stand between the parts of a text. -/
def isBlank (c : Sign) : Bool := c = ' ' || c = '\n' || c = '\t' || c = '\r'

def skipBlank (s : List Sign) : List Sign := s.dropWhile isBlank

def expect : List Char → Reader Unit
  | [], s => .ok ((), s)
  | _ :: _, [] => .error .truncated
  | c :: cs, d :: s => if c = d then expect cs s else .error .malformed

/-! ## Numbers -/

/-- A number as it is written. A fraction or an exponent that is there has a digit. -/
structure Numeral where
  negative : Bool
  whole : List Char
  fraction : List Char
  exponent : Option (Bool × List Char)
  deriving DecidableEq

namespace Numeral

/-- The amount a numeral denotes: no sign, no fraction, no exponent, and 64 bits. -/
def amount? (n : Numeral) : Option UInt64 :=
  let v := Decimal.ofDigits 0 n.whole
  if !n.negative && n.fraction.isEmpty && n.exponent.isNone && decide (v < UInt64.size) then
    some (UInt64.ofNat v)
  else none

/-- Appends digits to `m` for as long as 64 bits hold the number: the number, and how many digits
are left over. -/
def gather (m : Nat) : List Char → Nat × Nat
  | [] => (m, 0)
  | d :: ds =>
    let next := m * 10 + Decimal.digitValue d
    if next < UInt64.size then gather next ds else (m, ds.length + 1)

/-- The exponent of a numeral, or zero if it has none. -/
def power (n : Numeral) : Int :=
  match n.exponent with
  | some (true, ds) => -(Decimal.ofDigits 0 ds : Int)
  | some (false, ds) => Decimal.ofDigits 0 ds
  | none => 0

/-- The largest power of ten that numbers are scaled by. -/
def largestPower : Nat := 308

/-- Whether the magnitude is finite in double precision. It is taken to be the product of a power of
ten and of the leading digits that 64 bits hold; further digits count only for the power. -/
def isFinite (n : Numeral) : Bool :=
  let (m, above) := gather 0 n.whole
  let (m, below) := gather m n.fraction
  let power := n.power + above - (n.fraction.length - below : Nat)
  m = 0 || power < 0 ||
    (power ≤ largestPower && Double.isFiniteProduct m (Nat.pow 10 power.toNat))

end Numeral

/-- The digits at the front of a text, and the rest. -/
def digits : List Sign → List Char × List Sign
  | some c :: s =>
    if Decimal.isDigit c then
      let (ds, t) := digits s
      (c :: ds, t)
    else ([], some c :: s)
  | s => ([], s)

def exponent (n : Numeral) : Reader Numeral
  | [] => .ok (n, [])
  | c :: s =>
    if c = 'e' || c = 'E' then
      let (down, t) := match s with
        | some '+' :: t => (false, t)
        | some '-' :: t => (true, t)
        | t => (false, t)
      match digits t with
      | ([], []) => .error .truncated
      | ([], _ :: _) => .error .malformed
      | (ds, t) => .ok ({ n with exponent := some (down, ds) }, t)
    else .ok (n, c :: s)

def fraction (n : Numeral) : Reader Numeral
  | some '.' :: s =>
    match digits s with
    | ([], []) => .error .truncated
    | ([], _ :: _) => .error .malformed
    | (ds, t) => exponent { n with fraction := ds } t
  | s => exponent n s

def whole (negative : Bool) : Reader Numeral := fun s =>
  match digits s with
  | ([], []) => .error .truncated
  | ([], _ :: _) => .error .malformed
  | ('0' :: _ :: _, _) => .error .malformed
  | (ds, t) => fraction ⟨negative, ds, [], none⟩ t

/-- Reads a number; no digit may follow a leading zero. -/
def numeral : Reader Numeral
  | some '-' :: s => whole true s
  | s => whole false s

/-- Reads a number of finite magnitude and tells whether it is an amount. -/
def number : Reader (Option UInt64) := fun s => do
  let (n, t) ← numeral s
  if n.isFinite then .ok (n.amount?, t) else .error .malformed

/-- Whether a number begins with a sign. -/
def startsNumber (c : Sign) : Bool := c = '-' || c.any Decimal.isDigit

/-- Passes over a number; one that ends too early is malformed here. -/
def passNumber : Reader Unit := fun s =>
  match numeral s with
  | .ok (_, t) => .ok ((), t)
  | .error _ => .error .malformed

/-! ## Strings -/

def hexValue? (c : Char) : Option Nat :=
  if '0' ≤ c && c ≤ '9' then some (c.toNat - '0'.toNat)
  else if 'a' ≤ c && c ≤ 'f' then some (c.toNat - 'a'.toNat + 10)
  else if 'A' ≤ c && c ≤ 'F' then some (c.toNat - 'A'.toNat + 10)
  else none

/-- The value of the four hexadecimal digits at the front of a text. The text ends too early if
fewer than four bytes are left of it. -/
def hex4 (s : List Sign) : Except Fault Nat :=
  match s with
  | a :: b :: c :: d :: _ =>
    match a.bind hexValue?, b.bind hexValue?, c.bind hexValue?, d.bind hexValue? with
    | some a, some b, some c, some d => .ok (((a * 16 + b) * 16 + c) * 16 + d)
    | _, _, _, _ => .error .malformed
  | _ => .error (if s.foldr (fun c n => c.size + n) 0 < 4 then .truncated else .malformed)

def letterEscape? (c : Char) : Option Char :=
  if c = '"' || c = '\\' || c = '/' then some c
  else if c = 'b' then some '\x08'
  else if c = 'f' then some '\x0c'
  else if c = 'n' then some '\n'
  else if c = 'r' then some '\r'
  else if c = 't' then some '\t'
  else none

/-- The character of an escape, and how many signs stand for it after the backslash. Surrogates come
in pairs. -/
def strictEscape : List Sign → Except Fault (Char × Nat)
  | [] => .error .truncated
  | c :: s =>
    if c = 'u' then do
      let hi ← hex4 s
      if 0xDC00 ≤ hi && hi ≤ 0xDFFF then .error .malformed
      else if 0xD800 ≤ hi && hi ≤ 0xDBFF then
        match s.drop 4 with
        | [] => .error .truncated
        | [some '\\'] => .error .truncated
        | some '\\' :: some 'u' :: t => do
          let lo ← hex4 t
          if 0xDC00 ≤ lo && lo ≤ 0xDFFF then
            .ok (Char.ofNat ((hi - 0xD800) * 0x400 + (lo - 0xDC00) + 0x10000), 11)
          else .error .malformed
        | _ => .error .malformed
      else .ok (Char.ofNat hi, 5)
    else match c.bind letterEscape? with
      | some d => .ok (d, 1)
      | none => .error .malformed

/-- As `strictEscape`, but any four hexadecimal digits will do; the character is of no use. -/
def laxEscape : List Sign → Except Fault (Char × Nat)
  | [] => .error .truncated
  | c :: s =>
    if c = 'u' then do
      let _ ← hex4 s
      .ok ('u', 5)
    else match c.bind letterEscape? with
      | some d => .ok (d, 1)
      | none => .error .malformed

/-- How the inside of a string is read: what an escape stands for, and whether bytes that are no text
may stand there. -/
structure Quoting where
  escape : List Sign → Except Fault (Char × Nat)
  anyBytes : Bool

namespace Quoting

/-- For strings that are kept. -/
def kept : Quoting := ⟨strictEscape, false⟩

/-- For strings that nobody looks at. -/
def skipped : Quoting := ⟨laxEscape, true⟩

end Quoting

/-- The rest of a string up to its closing quote, after the first `n` signs, which belong to an escape
already read. Whether the string is a text is looked at when all of it has been read. -/
def stringFrom (how : Quoting) (n : Nat) : Reader (List Char)
  | [] => .error .truncated
  | c :: s =>
    match n with
    | n + 1 => stringFrom how n s
    | 0 =>
      match c with
      | none => do
        let (ds, t) ← stringFrom how 0 s
        if how.anyBytes then .ok (ds, t) else .error .malformed
      | some c =>
        if c = '"' then .ok ([], s)
        else if c = '\\' then do
          let (d, k) ← how.escape s
          let (ds, t) ← stringFrom how k s
          .ok (d :: ds, t)
        else if c.toNat < 0x20 then .error .malformed
        else do
          let (ds, t) ← stringFrom how 0 s
          .ok (c :: ds, t)

/-- Reads a string whose opening quote has been taken. -/
def string : Reader (List Char) := stringFrom .kept 0

/-! ## Arrays and objects -/

/-- Reads the items of an array whose bracket has been taken, up to its end. -/
def items (item : Reader Unit) : Nat → Bool → Reader Unit
  | 0, _, _ => .error .truncated
  | fuel + 1, first, s =>
    match skipBlank s with
    | [] => .error .truncated
    | c :: t =>
      if c = ']' then .ok ((), t)
      else if first then do
        let (_, t) ← item (c :: t)
        items item fuel false t
      else if c = ',' then
        match skipBlank t with
        | [] => .error .truncated
        | some ']' :: _ => .error .malformed
        | t => do
          let (_, t) ← item t
          items item fuel false t
      else .error .malformed

def colon (s : List Sign) : Except Fault (List Sign) :=
  match skipBlank s with
  | [] => .error .truncated
  | some ':' :: t => .ok t
  | _ => .error .malformed

/-- Reads the members of an object whose brace has been taken, up to its end. What is gathered from
them goes along as an accumulator; `field` says, for a key, how its value is read into that, and may
refuse the key. -/
def members {κ σ : Type} (key : Reader κ) (field : σ → κ → Except Fault (Reader σ)) :
    Nat → Bool → σ → Reader σ
  | 0, _, _, _ => .error .truncated
  | fuel + 1, first, acc, s =>
    match skipBlank s with
    | [] => .error .truncated
    | c :: t =>
      if c = '}' then .ok (acc, t)
      else if !first && c ≠ ',' then .error .malformed
      else
        match (if first then c :: t else skipBlank t) with
        | [] => .error .truncated
        | some '"' :: t => do
          let (k, t) ← key t
          let read ← field acc k
          let t ← colon t
          let (acc, t) ← read t
          members key field fuel false acc t
        | _ => .error .malformed

/-! ## Skipping -/

/-- What is kept of a skipped value. -/
inductive Gist where
  | null
  | amount (n : UInt64)
  | other
  deriving DecidableEq

/-- A way to skip values: how strings and numbers are passed over. -/
structure Skimming where
  string : Reader Unit
  number : Reader Gist

/-- Only the outline counts. -/
def lax : Skimming where
  string s := (stringFrom .skipped 0 s).map fun p => ((), p.2)
  number s := (passNumber s).map fun p => (.other, p.2)

/-- Everything must be readable. -/
def strict : Skimming where
  string s := (string s).map fun p => ((), p.2)
  number s := (number s).map fun p => (match p.1 with | some n => .amount n | none => .other, p.2)

/-- Skips a value. `depth`, if given, is one more than the number of containers that may still be
entered; the fuel is more than the length of the text. -/
def skip (how : Skimming) : Nat → Option Nat → Reader Gist
  | 0, _, _ => .error .truncated
  | fuel + 1, depth, s =>
    match skipBlank s with
    | [] => .error .truncated
    | c :: t =>
      if c = '"' then (how.string t).map fun p => (.other, p.2)
      else if startsNumber c then how.number (c :: t)
      else if c = 'n' then (expect "ull".toList t).map fun p => (.null, p.2)
      else if c = 't' then (expect "rue".toList t).map fun p => (.other, p.2)
      else if c = 'f' then (expect "alse".toList t).map fun p => (.other, p.2)
      else if c = '[' || c = '{' then
        if depth = some 0 || depth = some 1 then .error .malformed
        else
          let inner : Reader Unit := fun u =>
            (skip how fuel (depth.map (· - 1)) u).map fun p => ((), p.2)
          if c = '[' then (items inner (fuel + 1) true t).map fun p => (.other, p.2)
          else
            (members how.string (fun _ _ => .ok inner) (fuel + 1) true () t).map
              fun p => (.other, p.2)
      else .error .malformed

/-- Skips a value by its outline. -/
def ignore : Reader Unit := fun s => (skip lax (s.length + 1) none s).map fun p => ((), p.2)

/-- How many containers may be nested in a text that is kept. -/
def nesting : Nat := 127

/-- Skips a value that stands directly in an object, but looks at all of it. -/
def gist : Reader Gist := fun s => skip strict (s.length + 1) (some nesting) s

/-! ## Values of a given form -/

/-- Reports that the value at the front of a text has another form than expected, after reading as
much of it as its form needs. -/
def wrongForm {α : Type} (s : List Sign) : Except Fault α :=
  match s with
  | [] => .error .truncated
  | c :: t =>
    let blame {β : Type} (r : Except Fault (β × List Sign)) : Except Fault α :=
      match r with
      | .ok _ => .error .mismatch
      | .error e => .error e
    if c = '"' then blame (string t)
    else if startsNumber c then blame (number (c :: t))
    else if c = 'n' then blame (expect "ull".toList t)
    else if c = 't' then blame (expect "rue".toList t)
    else if c = 'f' then blame (expect "alse".toList t)
    else if c = '[' || c = '{' then .error .mismatch
    else .error .malformed

def amount : Reader UInt64 := fun s =>
  match skipBlank s with
  | [] => .error .truncated
  | c :: t =>
    if startsNumber c then do
      match ← number (c :: t) with
      | (some n, t) => .ok (n, t)
      | (none, _) => .error .mismatch
    else wrongForm (c :: t)

def text : Reader String := fun s =>
  match skipBlank s with
  | some '"' :: t => (string t).map fun p => (String.ofList p.1, p.2)
  | t => wrongForm t

def nullable {α : Type} (value : Reader α) : Reader (Option α) := fun s =>
  match skipBlank s with
  | some 'n' :: t => (expect "ull".toList t).map fun p => (none, p.2)
  | t => (value t).map fun p => (some p.1, p.2)

/-- Reads a name out of a fixed choice. The name may also stand as the only key of an object, with
the value `null`. What is no string in the place of the key is malformed, as for any object. -/
def choice {α : Type} (named : String → Option α) : Reader α := fun s =>
  let name : Reader α := fun t => do
    let (n, t) ← text t
    match named n with
    | some a => .ok (a, t)
    | none => .error .mismatch
  match skipBlank s with
  | [] => .error .truncated
  | some '"' :: t => name ('"' :: t)
  | some '{' :: t =>
    match skipBlank t with
    | [] => .error .truncated
    | some '"' :: t => do
      let (a, t) ← name ('"' :: t)
      let t ← colon t
      let t ← match skipBlank t with
        | some 'n' :: t => (expect "ull".toList t).map (·.2)
        | t => wrongForm t
      match skipBlank t with
      | [] => .error .truncated
      | some '}' :: t => .ok (a, t)
      | _ => .error .malformed
    | _ => .error .malformed
  | _ => .error .malformed

/-! ## Records -/

/-- A slot of a record: its name, whether it has been read, how it is read, and whether it may be
missing at the end of a record written as an array. -/
structure Slot (σ : Type) where
  name : String
  isHeld : σ → Bool
  read : σ → Reader σ
  mayMiss : Bool

/-- How the member under a key is read: a slot at most once, anything else is ignored. -/
def Slot.select {σ : Type} (slots : List (Slot σ)) (acc : σ) (key : List Char) :
    Except Fault (Reader σ) :=
  match slots.find? (fun f => f.name = String.ofList key) with
  | some f => if f.isHeld acc then .error .mismatch else .ok (f.read acc)
  | none => .ok fun s => (ignore s).map fun p => (acc, p.2)

/-- Reads the slots of a record written as an array, in their order, up to its end. -/
def Slot.inOrder {σ : Type} : List (Slot σ) → Bool → σ → Reader σ
  | [], _, acc, s =>
    match skipBlank s with
    | [] => .error .truncated
    | some ']' :: t => .ok (acc, t)
    | _ => .error .malformed
  | f :: fs, first, acc, s =>
    match skipBlank s with
    | [] => .error .truncated
    | c :: t =>
      if c = ']' then
        if f.mayMiss then inOrder fs first acc (c :: t) else .error .mismatch
      else if first then do
        let (acc, t) ← f.read acc (c :: t)
        inOrder fs false acc t
      else if c = ',' then
        match skipBlank t with
        | [] => .error .truncated
        | some ']' :: _ => .error .malformed
        | t => do
          let (acc, t) ← f.read acc t
          inOrder fs false acc t
      else .error .malformed

/-- Completes what was gathered, or reports that something is missing. -/
def complete {σ α : Type} (finish : σ → Option α) (p : σ × List Sign) :
    Except Fault (α × List Sign) :=
  match finish p.1 with
  | some a => .ok (a, p.2)
  | none => .error .mismatch

/-- Reads an object, member by member. -/
def object {σ α : Type} (field : σ → List Char → Except Fault (Reader σ)) (start : σ)
    (finish : σ → Option α) : Reader α := fun s =>
  match skipBlank s with
  | some '{' :: t => members string field (t.length + 1) true start t >>= complete finish
  | t => wrongForm t

/-- Reads a record, written as an object or as an array of its slots. -/
def record {σ α : Type} (slots : List (Slot σ)) (start : σ) (finish : σ → Option α) :
    Reader α := fun s =>
  match skipBlank s with
  | some '[' :: t => Slot.inOrder slots true start t >>= complete finish
  | t => object (Slot.select slots) start finish t

/-- Reads all there is: after the value only blanks may follow. -/
def parseSigns {α : Type} (value : Reader α) (s : List Sign) : Except Fault α := do
  let (a, t) ← value s
  if (skipBlank t).isEmpty then .ok a else .error .malformed

def parse {α : Type} (value : Reader α) (s : List Char) : Except Fault α :=
  parseSigns value (s.map some)

def parseBytes {α : Type} (value : Reader α) (bytes : List UInt8) : Except Fault α :=
  parseSigns value (Sign.ofBytes bytes)

end CouponIssuance.Json.Read
