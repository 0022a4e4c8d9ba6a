import CouponIssuance.Text.Blank
/-!
# Media types

Whether a body is JSON, by the value of its content type: `application/json`, or any type of
`application` with the suffix `json`. Capitals do not count. Parameters may follow, and must be well
formed.
-/
namespace CouponIssuance.Http.MediaType

def isToken (c : Char) : Bool :=
  c.isAlphanum || "!#$%&'*+-.^_`|~".toList.contains c

/-- The characters that may stand between quotes. -/
def isQuotable (c : Char) : Bool := c.toNat > 31 && c.toNat ≠ 127

def isVisible (c : Char) : Bool := c = '\t' || (31 < c.toNat && c.toNat < 127)

/-- Whether what follows a semicolon is a list of parameters. -/
def parametersOk : Nat → List Char → Bool
  | 0, _ => false
  | fuel + 1, s =>
    match s with
    | [] => true
    | ' ' :: s => parametersOk fuel s
    | s =>
      match s.span isToken with
      | (_ :: _, '=' :: '"' :: c :: s) =>
        match (c :: s).takeWhile isQuotable, s.dropWhile fun c => c ≠ '"' && isQuotable c with
        | _ :: _, '"' :: s =>
          match s.dropWhile (· = ' ') with
          | [] => true
          | ';' :: s => parametersOk fuel s
          | _ => false
        | _, _ => false
      | (_ :: _, '=' :: s) =>
        match s.span isToken with
        | (_, []) => true
        | (_ :: _, ';' :: s) => parametersOk fuel s
        | _ => false
      | _ => false

/-- The part of a subtype before its last plus sign, and the part after it. A plus sign at the front
belongs to the name. -/
def splitSuffix (s : List Char) : List Char × Option (List Char) :=
  match Text.splitFirst '+' s.reverse with
  | some (suffix, name) => if name = [] then (s, none) else (name.reverse, some suffix.reverse)
  | none => (s, none)

/-- Whether a type and a subtype in small letters are those of JSON. -/
def isJsonName (type subtype : List Char) : Bool :=
  let (name, suffix) := splitSuffix subtype
  type = "application".toList && (name = "json".toList || suffix = some "json".toList)

/-- Each byte is read as a character, since only visible ones of ASCII count. -/
def isJson (value : List UInt8) : Bool :=
  let s := value.map fun b => Char.ofNat b.toNat
  s.all isVisible &&
  match (s.map Char.toLower).span isToken with
  | (type, '/' :: s) =>
    match s.span isToken with
    | (subtype, []) => isJsonName type subtype
    | (subtype, ';' :: rest) =>
      !subtype.isEmpty && isJsonName type subtype && parametersOk (rest.length + 1) rest
    | _ => false
  | _ => false

end CouponIssuance.Http.MediaType
