import CouponIssuance.Json.Value
import CouponIssuance.Refusal
/-!
# Requests and responses

What is exchanged over HTTP, as far as the service looks at it: of a request the method, the target,
the headers and the body; of a response the status, the headers that matter, and the body. The values
of the headers of a request, and its body, are bytes and need not be texts.
-/
namespace CouponIssuance.Http

structure Request where
  method : String
  target : String
  headers : List (String × List UInt8)
  body : List UInt8

namespace Request

/-- The value of the first header of a name, which is written in small letters. -/
def header? (r : Request) (name : String) : Option (List UInt8) :=
  (r.headers.find? fun h => h.1.toLower = name).map Prod.snd

end Request

inductive Content where
  | json (value : Json)
  | text (s : String)

structure Response where
  status : Nat
  headers : List (String × String)
  content : Content

namespace Response

def bare (status : Nat) : Response := ⟨status, [], .text ""⟩

def json (status : Nat) (value : Json) : Response :=
  ⟨status, [("content-type", "application/json")], .json value⟩

def text (status : Nat) (s : String) : Response :=
  ⟨status, [("content-type", "text/plain; charset=utf-8")], .text s⟩

def withHeader (r : Response) (name value : String) : Response :=
  { r with headers := r.headers ++ [(name, value)] }

def withoutBody (r : Response) : Response := { r with content := .text "" }

end Response
end CouponIssuance.Http
