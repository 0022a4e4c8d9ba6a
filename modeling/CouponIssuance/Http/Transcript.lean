import CouponIssuance.Http.Router
import CouponIssuance.Snowflake
/-!
# Transcripts

Requests written one a line, as the instant, the method, the target and the body with a blank after
each of the first three; the body may be missing. A server plays a transcript by letting time pass up
to the instant of each request and then answering it.
-/
namespace CouponIssuance.Http

structure Entry where
  instant : Millis
  request : Request

namespace Entry

/-- The request that the parts of a line stand for. A body is JSON. -/
def asked (method target : List Char) (body : Option (List Char)) : Request where
  method := String.ofList method
  target := String.ofList target
  headers := match body with
    | some _ => [("content-type", Text.utf8 "application/json".toList)]
    | none => []
  body := Text.utf8 (body.getD [])

def ofLine? (line : List Char) : Option Entry := do
  let (instant, rest) ← Text.splitFirst ' ' line
  let instant ← (Decimal.parse instant).toOption
  let (method, rest) ← Text.splitFirst ' ' rest
  match Text.splitFirst ' ' rest with
  | some (target, body) => return ⟨instant.toNat, asked method target (some body)⟩
  | none => return ⟨instant.toNat, asked method rest none⟩

end Entry

namespace Response

def bodyText (r : Response) : String :=
  match r.content with
  | .json value => String.ofList value.render
  | .text s => s

/-- The text of a response: the status, the headers, and after an empty line the body. -/
def toText (r : Response) : String :=
  let headers := r.headers.map fun h => s!"{h.1}: {h.2}\n"
  s!"{r.status}\n" ++ String.join headers ++ "\n" ++ r.bodyText

end Response

/-- What a transcript is played on. -/
def platform (now : Millis) : Platform where
  hashing := .standard
  generator := Snowflake.generator now
  stint := 128
  crew := 61
  longestPeriod := 30 * 365 * 86400 * 1000
  emptyParameters := true

/-- Lets time pass up to the instant of an entry, and answers its request. -/
def play (s : Server) (e : Entry) : Server × Response :=
  respond e.request (s.advance (e.instant - s.service.now))

/-- Plays the next entry of a transcript. The server starts at the instant of the first. -/
def playNext (settings : Settings) (started : Option Server) (e : Entry) :
    Except Service.StartFault (Server × Response) :=
  match started with
  | some s => .ok (play s e)
  | none => (Server.start (platform e.instant) settings e.instant).map fun s => play s e

end CouponIssuance.Http
