import CouponIssuance.Api.Answer
import CouponIssuance.Api.Form
import CouponIssuance.Http.MediaType
import CouponIssuance.Http.Message
import CouponIssuance.Http.Target
import CouponIssuance.Server
/-!
# The router

Which resource a path names, what can be done with it, and how a request is answered. Where a fixed
path and one with a parameter both fit, the fixed one is meant.

A parameter, a query or a body that cannot be read is refused like any other request that cannot be
granted, before the service sees it. Only the name of a request that is no text is refused in plain
words.
-/
namespace CouponIssuance.Http

/-- What a path can name. Parameters stand as they are written. One at the end of a path is not empty;
whether one before another word may be is up to the platform. -/
inductive Resource where
  | issue
  | redeem
  | validate
  | campaigns
  | campaign (id : List Char)
  | status (request : List Char)
  | coupons (requester : List Char)
  | stock (campaign : List Char)
  | initializeStock (campaign : List Char)
  | systemStatus
  | health
  deriving DecidableEq

namespace Resource

/-- The resource of a campaign by its last word. -/
def ofCampaign (campaign word : List Char) : Option Resource :=
  if word = "stock".toList then some (.stock campaign)
  else if word = "initialize-stock".toList then some (.initializeStock campaign)
  else none

/-- The resource with two words after the first. -/
def ofWords (emptyParameters : Bool) (first second : List Char) : Option Resource :=
  if second = [] then none
  else if first = "status".toList then some (.status second)
  else if first = "campaigns".toList then some (.campaign second)
  else if first = "users".toList then some (.coupons second)
  else if first = "system".toList && second = "status".toList then some .systemStatus
  else if first = [] && !emptyParameters then none
  else ofCampaign first second

def ofPath (emptyParameters : Bool) : List (List Char) → Option Resource
  | [word] => if word = "health".toList then some .health else none
  | [root, word] =>
    if root ≠ "coupons".toList then none
    else if word = "issue".toList then some .issue
    else if word = "redeem".toList then some .redeem
    else if word = "validate".toList then some .validate
    else if word = "campaigns".toList then some .campaigns
    else none
  | [root, first, second] => if root ≠ "coupons".toList then none else ofWords emptyParameters first second
  | _ => none

end Resource

/-- What a request is for. -/
def Request.resource? (r : Request) (platform : Platform) : Option Resource :=
  Resource.ofPath platform.emptyParameters (Target.ofText r.target.toList).path

/-! ## Reading what a request says -/

/-- The number that a parameter of a path spells. -/
def parameter (name : String) (s : List Char) : Except Refusal UInt64 :=
  match decodeText? s with
  | none => .error (.invalidRequest s!"Invalid UTF-8 in `{name}`")
  | some text =>
    match Decimal.parse text.toList with
    | .ok n => .ok n
    | .error _ => .error (.invalidRequest s!"Cannot parse `{text}` to a `u64`")

def bodyLimit : Nat := 2 * 1024 * 1024

def bodyFault : Json.Read.Fault → String
  | .malformed | .truncated => "Failed to parse the request body as JSON"
  | .mismatch => "Failed to deserialize the JSON body into the target type"

/-- The form in the body of a request. Its type is looked at first, then its size. -/
def form {α : Type} (read : Json.Read.Reader α) (r : Request) : Except Refusal α :=
  if !MediaType.isJson ((r.header? "content-type").getD []) then
    .error (.invalidRequest "Expected request with `Content-Type: application/json`")
  else if bodyLimit < r.body.length then
    .error (.invalidRequest "Failed to buffer the request body: length limit exceeded")
  else
    match Json.Read.parseBytes read r.body with
    | .ok form => .ok form
    | .error why => .error (.invalidRequest (bodyFault why))

def queryWait (query : List Char) : Except Refusal (Option UInt64) :=
  match Query.wait? query with
  | .ok wait => .ok wait
  | .error why =>
    .error (.invalidRequest ("Failed to deserialize query string: " ++ why.message))

/-! ## Responses -/

namespace Response

def ofRefusal (r : Refusal) : Response :=
  let response := Response.json r.status r.toJson
  match r.retryAfter? with
  | some secs => response.withHeader "retry-after" (toString secs)
  | none => response

def ofAdmission : Admission → Response
  | .queued ticket => .json 202 ticket.toJson
  | .resolved ticket => .json 200 ticket.toJson

/-- The response to a request that was granted or refused. -/
def ofResult {α : Type} (grant : α → Response) : Except Refusal α → Response
  | .ok a => grant a
  | .error why => .ofRefusal why

end Response

/-- How the server answers: it may change, and it responds. -/
abbrev Handler := Server → Server × Response

/-- Goes on with what has been read of a request, or refuses it and leaves the server alone. -/
def given {α : Type} (read : Except Refusal α) (handle : α → Handler) : Handler := fun s =>
  match read with
  | .ok a => handle a s
  | .error why => (s, .ofRefusal why)

/-- Answers without changing the server. -/
def answer {α : Type} (grant : α → Response) (ask : Service → Except Refusal α) : Handler :=
  fun s => (s, .ofResult grant (ask s.service))

/-- Lets the service do something. -/
def perform {α : Type} (grant : α → Response)
    (act : Service → Service × Except Refusal α) : Handler := fun s =>
  let (service, result) := act s.service
  ({ s with service := service }, .ofResult grant result)

namespace Resource

/-- How the state of a resource is shown, if it has one. -/
def get (query : List Char) : Resource → Option Handler
  | .campaigns => some fun s =>
    (s, .json 200 (.array (s.service.available.map fun p => p.1.toJsonWithStock p.2)))
  | .campaign id => some <| given (parameter "campaign_id" id) fun id =>
    answer (fun c => .json 200 c.toJson) (·.campaign ⟨id⟩)
  | .status request => some fun s =>
    match decodeText? request with
    | none => (s, .text 400 "Invalid URL: Invalid UTF-8 in `request_id`")
    | some request =>
      given (queryWait query) (fun wait s =>
        let (s, result) := s.status ⟨request⟩ wait
        (s, .ofResult (fun r => .json 200 r.toJson) result)) s
  | .coupons requester => some <| given (parameter "requester_id" requester) fun id s =>
    (s, .json 200 (.array ((s.service.couponsOf ⟨id⟩).map Coupon.toJson)))
  | .stock id => some <| given (parameter "campaign_id" id) fun id =>
    answer (fun stock => .json 200 (stock.toJson ⟨id⟩)) (·.stock ⟨id⟩)
  | .systemStatus => some fun s => (s, .json 200 s.service.systemStatus.toJson)
  | .health => some fun s =>
    (s, if s.service.isServing then .text 200 "ok" else .text 503 "shutting down")
  | _ => none

/-- What can be asked of a resource, if anything can. -/
def post (r : Request) : Resource → Option Handler
  | .issue => some <| given (form IssueForm.read r) fun f s =>
    let (s, result) := s.issue f.requester f.campaign
    (s, .ofResult .ofAdmission result)
  | .redeem => some <| given (form RedeemForm.read r) fun f =>
    perform (fun q => .json 200 q.toJson) (·.redeem f.requester f.coupon f.order f.orderId)
  | .validate => some <| given (form ValidateForm.read r) fun f s =>
    (s, .json 200 (s.service.validate f.requester f.coupon f.order).toJson)
  | .campaigns => some <| given (form CampaignDraft.read r) fun draft =>
    perform (fun c => .json 201 c.toJson) (·.register draft)
  | .initializeStock id => some <| given (parameter "campaign_id" id) fun id =>
    perform (fun stock => .json 200 (stock.toJsonOfReset ⟨id⟩)) (·.initializeStock ⟨id⟩)
  | _ => none

/-- The methods of a resource, as they are listed to callers. -/
def allowed (r : Request) (resource : Resource) : String :=
  ",".intercalate <|
    (if (resource.get []).isSome then ["GET", "HEAD"] else []) ++
    (if (resource.post r).isSome then ["POST"] else [])

end Resource

/-- The response to a browser that asks what it may do. -/
def preflight : Response :=
  ((Response.bare 200).withHeader "access-control-allow-methods" "*").withHeader
    "access-control-allow-headers" "*"

/-- Answers a request for a resource. Where the request is refused for its method, and where a browser
asks first, the methods of the resource are listed. -/
def respondFor (resource : Resource) (query : List Char) (r : Request) : Handler := fun s =>
  let listing (response : Response) := response.withHeader "allow" (resource.allowed r)
  let refused := (s, listing (Response.bare 405))
  if r.method = "GET" then ((resource.get query).map fun h => h s).getD refused
  else if r.method = "HEAD" then
    ((resource.get query).map fun h =>
      let (s, response) := h s
      (s, response.withoutBody)).getD refused
  else if r.method = "POST" then ((resource.post r).map fun h => h s).getD refused
  else if r.method = "OPTIONS" then (s, listing preflight)
  else refused

/-- Answers a request. Every response may be read by pages of any origin. -/
def respond (r : Request) : Handler := fun s =>
  let (s, response) :=
    match r.resource? s.platform with
    | some resource => respondFor resource (Target.ofText r.target.toList).query r s
    | none => (s, if r.method = "OPTIONS" then preflight else .bare 404)
  (s, response.withHeader "access-control-allow-origin" "*")

end CouponIssuance.Http
