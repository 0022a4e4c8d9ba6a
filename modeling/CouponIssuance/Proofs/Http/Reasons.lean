import CouponIssuance.Http.Router
/-!
# Callers are told why

A request for a resource, by a method of the resource, is granted, or the response is a JSON object
with the code and the message of a refusal. Two responses are in plain words: that the service is
shutting down, to those who ask for its health, and that the name of a request is no text.

What a request says is read before the service is asked. A request that cannot be read is refused as
invalid, and changes nothing.
-/
namespace CouponIssuance.Http

namespace Response

def Granted (a : Response) : Prop := 200 ≤ a.status ∧ a.status < 300

/-- The response has the status of a refusal, and says in JSON which one it is. -/
structure Refuses (a : Response) (why : Refusal) : Prop where
  status : a.status = why.status
  content : a.content = .json (.object [("error", .text why.code), ("message", .text why.message)])
  contentType : ("content-type", "application/json") ∈ a.headers

/-- The request is granted, or its sender is told why not. -/
inductive Reasoned (a : Response) : Prop
  | granted (h : a.Granted)
  | refused (why : Refusal) (h : a.Refuses why)

variable {a : Response} {why : Refusal}

theorem Refuses.withHeader (h : a.Refuses why) (name value : String) :
    (a.withHeader name value).Refuses why :=
  ⟨h.status, h.content, List.mem_append_left _ h.contentType⟩

theorem Reasoned.withHeader (h : a.Reasoned) (name value : String) :
    (a.withHeader name value).Reasoned := by
  cases h with
  | granted h => exact .granted h
  | refused why h => exact .refused why (h.withHeader name value)

private theorem ofRefusal_refuses (why : Refusal) : (ofRefusal why).Refuses why := by
  have hjson : (Response.json why.status why.toJson).Refuses why := ⟨rfl, rfl, List.mem_singleton_self _⟩
  unfold ofRefusal
  split
  · exact hjson.withHeader ..
  · exact hjson

private theorem ofResult_reasoned {α : Type} {grant : α → Response} (hgrant : ∀ a, (grant a).Granted)
    (result : Except Refusal α) : (ofResult grant result).Reasoned := by
  cases result with
  | ok a => exact .granted (hgrant a)
  | error why => exact .refused why (ofRefusal_refuses why)

private theorem json_granted {status : Nat} (h : 200 ≤ status ∧ status < 300) (value : Json) :
    (Response.json status value).Granted := h

private theorem ofAdmission_granted (a : Admission) : (ofAdmission a).Granted := by
  cases a with
  | queued ticket => exact json_granted (by decide) _
  | resolved ticket => exact json_granted (by decide) _

end Response

open Response

variable {α : Type} {s : Server}

private theorem given_reasoned (read : Except Refusal α) {handle : α → Handler}
    (h : ∀ a, (handle a s).2.Reasoned) : (given read handle s).2.Reasoned := by
  cases read with
  | ok a => exact h a
  | error why => exact .refused why (ofRefusal_refuses why)

private theorem answer_reasoned {grant : α → Response} (hgrant : ∀ a, (grant a).Granted)
    (ask : Service → Except Refusal α) : (answer grant ask s).2.Reasoned :=
  ofResult_reasoned hgrant _

private theorem perform_reasoned {grant : α → Response} (hgrant : ∀ a, (grant a).Granted)
    (act : Service → Service × Except Refusal α) : (perform grant act s).2.Reasoned :=
  ofResult_reasoned hgrant _

/-- A parameter that spells no number. -/
def Unnumbered (parameter : List Char) : Prop :=
  decodeText? parameter = none ∨
    ∃ text why, decodeText? parameter = some text ∧ Decimal.parse text.toList = .error why

/-- A request whose body is not of the type of JSON, too long, or not the form it should be. -/
def Unfit (read : Json.Read.Reader α) (r : Request) : Prop :=
  MediaType.isJson ((r.header? "content-type").getD []) = false ∨
    bodyLimit < r.body.length ∨ ∃ why, Json.Read.parseBytes read r.body = .error why

namespace Resource

/-- The methods by which a resource is reached. -/
def methods : Resource → List String
  | .issue | .redeem | .validate | .initializeStock _ => ["POST"]
  | .campaigns => ["GET", "POST"]
  | .campaign _ | .status _ | .coupons _ | .stock _ | .systemStatus | .health => ["GET"]

/-- The parameter of a resource that is to be a number. -/
def number? : Resource → Option (List Char)
  | .campaign parameter | .coupons parameter | .stock parameter | .initializeStock parameter =>
    some parameter
  | _ => none

/-- The resource is the status of a request whose name is no text. -/
def Garbled : Resource → Prop
  | .status name => decodeText? name = none
  | _ => False

/-- A request for a resource that says something, in the path, in the query or in the body, which
cannot be read. -/
inductive Unreadable (r : Request) : Resource → Prop
  | name {name : List Char} (h : decodeText? name = none) : Unreadable r (.status name)
  | number {resource : Resource} {parameter : List Char} (hnumber : resource.number? = some parameter)
      (h : Unnumbered parameter) : Unreadable r resource
  | wait {name : List Char} {why : Query.Fault}
      (h : Query.wait? (Target.ofText r.target.toList).query = .error why) : Unreadable r (.status name)
  | issue (h : Unfit IssueForm.read r) : Unreadable r .issue
  | redeem (h : Unfit RedeemForm.read r) : Unreadable r .redeem
  | validate (h : Unfit ValidateForm.read r) : Unreadable r .validate
  | draft (hmethod : r.method = "POST") (h : Unfit CampaignDraft.read r) : Unreadable r .campaigns

end Resource

private theorem parameter_eq_error {parameter : List Char} (h : Unnumbered parameter) (name : String) :
    ∃ reason, Http.parameter name parameter = .error (.invalidRequest reason) := by
  rcases h with htext | ⟨text, why, htext, hparse⟩
  · simp only [Http.parameter, htext]
    exact ⟨_, rfl⟩
  · simp only [Http.parameter, htext, hparse]
    exact ⟨_, rfl⟩

private theorem form_eq_error {read : Json.Read.Reader α} {r : Request} (h : Unfit read r) :
    ∃ reason, form read r = .error (.invalidRequest reason) := by
  unfold form
  split
  · exact ⟨_, rfl⟩
  · next htype =>
    split
    · exact ⟨_, rfl⟩
    · next hsize =>
      rcases h with hother | hlong | ⟨why, hparse⟩
      · simp [hother] at htype
      · exact absurd hlong hsize
      · rw [hparse]
        exact ⟨_, rfl⟩

private theorem queryWait_eq_error {query : List Char} {why : Query.Fault} (h : Query.wait? query = .error why) :
    ∃ reason, queryWait query = .error (.invalidRequest reason) := by
  simp only [queryWait, h]
  exact ⟨_, rfl⟩

/-- A response that refuses a request as invalid, and a server that is what it was. -/
def Invalid (s : Server) (a : Server × Response) : Prop :=
  a.1 = s ∧ ∃ reason, a.2.Refuses (.invalidRequest reason)

private theorem given_invalid {read : Except Refusal α} (handle : α → Handler)
    (h : ∃ reason, read = .error (.invalidRequest reason)) : Invalid s (given read handle s) := by
  obtain ⟨reason, rfl⟩ := h
  exact ⟨rfl, reason, ofRefusal_refuses (.invalidRequest reason)⟩

namespace Resource

variable {resource : Resource} {query : List Char} {r : Request} {h : Handler}

private theorem get_reasoned (hget : resource.get query = some h) (hname : ¬ resource.Garbled) :
    (h s).2.Reasoned ∨ resource = .health ∧ (h s).2 = .text 503 "shutting down" := by
  cases resource with
  | issue | redeem | validate | initializeStock => cases hget
  | campaigns =>
    cases hget
    exact .inl (.granted (json_granted (by decide) _))
  | campaign id =>
    cases hget
    exact .inl (given_reasoned _ fun _ => answer_reasoned (fun _ => json_granted (by decide) _) _)
  | status name =>
    cases hget
    cases htext : decodeText? name with
    | none => exact absurd htext hname
    | some text =>
      exact .inl (given_reasoned _ fun _ => ofResult_reasoned (fun _ => json_granted (by decide) _) _)
  | coupons requester =>
    cases hget
    exact .inl (given_reasoned _ fun _ => .granted (json_granted (by decide) _))
  | stock id =>
    cases hget
    exact .inl (given_reasoned _ fun _ => answer_reasoned (fun _ => json_granted (by decide) _) _)
  | systemStatus =>
    cases hget
    exact .inl (.granted (json_granted (by decide) _))
  | health =>
    cases hget
    cases hserving : s.service.isServing with
    | true => exact .inl (.granted (by simp [hserving, Granted, Response.text]))
    | false => exact .inr ⟨rfl, by simp [hserving]⟩

private theorem post_reasoned (hpost : resource.post r = some h) : (h s).2.Reasoned := by
  cases resource with
  | campaign | status | coupons | stock | systemStatus | health => cases hpost
  | issue =>
    cases hpost
    exact given_reasoned _ fun _ => ofResult_reasoned ofAdmission_granted _
  | redeem =>
    cases hpost
    exact given_reasoned _ fun _ => perform_reasoned (fun _ => json_granted (by decide) _) _
  | validate =>
    cases hpost
    exact given_reasoned _ fun _ => .granted (json_granted (by decide) _)
  | campaigns =>
    cases hpost
    exact given_reasoned _ fun _ => perform_reasoned (fun _ => json_granted (by decide) _) _
  | initializeStock id =>
    cases hpost
    exact given_reasoned _ fun _ => perform_reasoned (fun _ => json_granted (by decide) _) _

private theorem get_invalid (hget : resource.get (Target.ofText r.target.toList).query = some h)
    (hmethod : r.method = "GET") (hname : ¬ resource.Garbled) (hunread : resource.Unreadable r) :
    Invalid s (h s) := by
  cases hunread with
  | name htext => exact absurd htext hname
  | number hnumber hfault =>
    cases resource <;> cases hnumber <;> cases hget <;>
      exact given_invalid _ (parameter_eq_error hfault _)
  | @wait name why hwait =>
    cases hget
    cases htext : decodeText? name with
    | none => exact absurd htext hname
    | some text =>
      exact given_invalid _ (queryWait_eq_error hwait)
  | issue | redeem | validate => cases hget
  | draft hpost => simp [hmethod] at hpost

private theorem post_invalid (hpost : resource.post r = some h) (hunread : resource.Unreadable r) :
    Invalid s (h s) := by
  cases hunread with
  | name | wait => cases hpost
  | number hnumber hfault =>
    cases resource <;> cases hnumber <;> cases hpost
    exact given_invalid _ (parameter_eq_error hfault _)
  | issue hfault | redeem hfault | validate hfault | draft _ hfault =>
    cases hpost
    exact given_invalid _ (form_eq_error hfault)

private theorem not_garbled_of_post (hpost : resource.post r = some h) : ¬ resource.Garbled := by
  intro hname
  cases resource with
  | status => cases hpost
  | _ => exact hname

private theorem get_garbled (hget : resource.get query = some h) (hname : resource.Garbled) :
    h s = (s, .text 400 "Invalid URL: Invalid UTF-8 in `request_id`") := by
  cases resource with
  | status name =>
    cases hget
    simp only [show decodeText? name = none from hname]
  | _ => exact hname.elim

private theorem handler_of_mem (hmethod : r.method ∈ resource.methods) (query : List Char) :
    (r.method = "GET" ∧ ∃ h, resource.get query = some h) ∨
      r.method = "POST" ∧ ∃ h, resource.post r = some h := by
  cases resource with
  | campaigns =>
    rcases List.mem_cons.1 hmethod with hmethod | hmethod
    · exact .inl ⟨hmethod, _, rfl⟩
    · exact .inr ⟨List.mem_singleton.1 hmethod, _, rfl⟩
  | issue | redeem | validate | initializeStock =>
    exact .inr ⟨List.mem_singleton.1 hmethod, _, rfl⟩
  | campaign | status | coupons | stock | systemStatus | health =>
    exact .inl ⟨List.mem_singleton.1 hmethod, _, rfl⟩

end Resource

/-- The header by which pages of any origin may read a response. -/
def Response.forAnyOrigin (a : Response) : Response := a.withHeader "access-control-allow-origin" "*"

variable {r : Request} {resource : Resource} {h : Handler}

private theorem respond_get (hpath : r.resource? s.platform = some resource)
    (hmethod : r.method = "GET") (hget : resource.get (Target.ofText r.target.toList).query = some h) :
    respond r s = ((h s).1, (h s).2.forAnyOrigin) := by
  simp [respond, respondFor, hpath, hmethod, hget, Response.forAnyOrigin]

private theorem respond_post (hpath : r.resource? s.platform = some resource)
    (hmethod : r.method = "POST") (hpost : resource.post r = some h) :
    respond r s = ((h s).1, (h s).2.forAnyOrigin) := by
  simp [respond, respondFor, hpath, hmethod, hpost, Response.forAnyOrigin]

private theorem respond_head (hpath : r.resource? s.platform = some resource)
    (hmethod : r.method = "HEAD") (hget : resource.get (Target.ofText r.target.toList).query = some h) :
    respond r s = ((h s).1, (h s).2.forAnyOrigin.withoutBody) := by
  simp [respond, respondFor, hpath, hmethod, hget, Response.forAnyOrigin, withoutBody, withHeader]

/-- A request for a resource by one of its methods is granted, or its sender is told why not; one
that cannot be read is refused as invalid, and the server is what it was. The exceptions are the
health of a service that is shutting down and the status of a request whose name is no text. -/
theorem respond_reasoned (s : Server)
    (hpath : r.resource? s.platform = some resource)
    (hmethod : r.method ∈ resource.methods) :
    (¬ resource.Garbled →
      ((respond r s).2.Reasoned ∨ resource = .health ∧ (respond r s).2.status = 503 ∧
        (respond r s).2.content = .text "shutting down") ∧
      (resource.Unreadable r → (respond r s).1 = s ∧
        ∃ reason, (respond r s).2.Refuses (.invalidRequest reason))) ∧
    (resource.Garbled → (respond r s).1 = s ∧ (respond r s).2.status = 400 ∧
      (respond r s).2.content = .text "Invalid URL: Invalid UTF-8 in `request_id`") ∧
    (r.method = "GET" → respond { r with method := "HEAD" } s =
      ((respond r s).1, (respond r s).2.withoutBody)) := by
  rcases Resource.handler_of_mem hmethod (Target.ofText r.target.toList).query with
    ⟨hverb, h, hget⟩ | ⟨hverb, h, hpost⟩
  · rw [respond_get hpath hverb hget]
    refine ⟨fun hname => ⟨?_, fun hunread => ?_⟩, fun hname => ?_, fun _ => ?_⟩
    · rcases Resource.get_reasoned hget hname with hreasoned | ⟨hhealth, hplain⟩
      · exact .inl (hreasoned.withHeader ..)
      · refine .inr ⟨hhealth, ?_⟩
        rw [hplain]
        exact ⟨rfl, rfl⟩
    · obtain ⟨hsame, reason, hrefuses⟩ := Resource.get_invalid (s := s) hget hverb hname hunread
      exact ⟨hsame, reason, hrefuses.withHeader ..⟩
    · rw [Resource.get_garbled hget hname]
      exact ⟨rfl, rfl, rfl⟩
    · exact respond_head hpath rfl hget
  · rw [respond_post hpath hverb hpost]
    refine ⟨fun _ => ⟨.inl ((Resource.post_reasoned hpost).withHeader ..), fun hunread => ?_⟩,
      fun hname => absurd hname (Resource.not_garbled_of_post hpost), fun hget => ?_⟩
    · obtain ⟨hsame, reason, hrefuses⟩ := Resource.post_invalid (s := s) hpost hunread
      exact ⟨hsame, reason, hrefuses.withHeader ..⟩
    · simp [hverb] at hget

/-- A server that has just been started, with three workers and one campaign. No name can be minted. -/
def newServer : { s : Server //
    Server.start ⟨⟨fun _ => 0, fun _ => 0⟩, fun _ _ => [.pending, .failed "no clock"], 128, 2, 1000,
      true⟩
      { numWorkers := 3, storeShards := 1, seeds := [(⟨1⟩, 5)], sound := by decide } 0 = .ok s } :=
  ⟨_, rfl⟩

def stockOfABC : Request := ⟨"GET", "/coupons/abc/stock", [], []⟩

/-- A body of one byte, which is no text. -/
def garbledBody : Request :=
  ⟨"POST", "/coupons/issue", [("content-type", Text.utf8 "application/json".toList)], [0xFF]⟩

def firstIssue : Request :=
  ⟨"POST", "/coupons/issue", [("content-type", Text.utf8 "application/json".toList)],
    Text.utf8 "\x7b\"requesterId\":1,\"campaignId\":1\x7d".toList⟩

theorem respond_reasoned_stockOfABC :
    ((respond stockOfABC newServer.1).1 = newServer.1 ∧
      ∃ reason, (respond stockOfABC newServer.1).2.Refuses (.invalidRequest reason)) ∧
    ((respond garbledBody newServer.1).1 = newServer.1 ∧
      ∃ reason, (respond garbledBody newServer.1).2.Refuses (.invalidRequest reason)) ∧
    (respond firstIssue newServer.1).2.Reasoned ∧
    (respond firstIssue newServer.1).2.status = 500 := by
  refine ⟨?_, ?_, ?_, ?_⟩
  · have htext : decodeText? "abc".toList = some "abc" := by decide +kernel
    have hpath : stockOfABC.resource? newServer.1.platform = some (.stock "abc".toList) := by decide
    have hunread : (Resource.stock "abc".toList).Unreadable stockOfABC :=
      .number rfl (.inr ⟨"abc", _, htext, by rfl⟩)
    exact ((respond_reasoned newServer.1 hpath (by decide)).1 id).2 hunread
  · have hpath : garbledBody.resource? newServer.1.platform = some .issue := by decide
    have hunread : Resource.issue.Unreadable garbledBody := .issue (.inr (.inr ⟨_, by rfl⟩))
    exact ((respond_reasoned newServer.1 hpath (by decide)).1 id).2 hunread
  · have hpath : firstIssue.resource? newServer.1.platform = some .issue := by decide
    rcases ((respond_reasoned newServer.1 hpath (by decide)).1 id).1 with hreasoned | ⟨hhealth, -⟩
    · exact hreasoned
    · cases hhealth
  · decide +kernel

/-- Asks for the status of a request under a name of one byte, which is no text. -/
def garbledName : Request := ⟨"GET", "/coupons/status/%FF", [], []⟩

/-- The request cannot be read, and its sender is told so in plain words. -/
theorem garbledName_not_reasoned :
    garbledName.resource? newServer.1.platform = some (.status "%FF".toList) ∧
    garbledName.method ∈ (Resource.status "%FF".toList).methods ∧
    (Resource.status "%FF".toList).Unreadable garbledName ∧
    (respond garbledName newServer.1).2.content =
      .text "Invalid URL: Invalid UTF-8 in `request_id`" ∧
    ¬ (respond garbledName newServer.1).2.Reasoned ∧
    ∀ reason, ¬ (respond garbledName newServer.1).2.Refuses (.invalidRequest reason) := by
  have hpath : garbledName.resource? newServer.1.platform = some (.status "%FF".toList) := by decide
  have hname : decodeText? "%FF".toList = none := by decide +kernel
  have hanswer : (respond garbledName newServer.1).2 =
      (Response.text 400 "Invalid URL: Invalid UTF-8 in `request_id`").forAnyOrigin := by
    rw [respond_get hpath rfl rfl, hname]
  have hplain : ∀ why, ¬ (respond garbledName newServer.1).2.Refuses why := by
    intro why hrefuses
    have hcontent := hrefuses.content
    rw [hanswer] at hcontent
    cases hcontent
  refine ⟨hpath, by decide, .name hname, by rw [hanswer]; rfl, ?_, fun reason => hplain _⟩
  intro hreasoned
  cases hreasoned with
  | granted hgranted =>
    rw [hanswer] at hgranted
    exact absurd hgranted.2 (by decide)
  | refused why hrefuses => exact hplain why hrefuses

end CouponIssuance.Http
