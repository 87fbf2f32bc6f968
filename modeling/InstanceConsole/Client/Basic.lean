import InstanceConsole.Client.Error
import InstanceConsole.Json.Reader
import InstanceConsole.Json.Writer
import InstanceConsole.Page.Event
import InstanceConsole.Web.Url.Parser

/-!
# The client of the backend

The backend answers two questions, each a request that posts a JSON document to a URL below a base
URL: how many instances meet some criteria, and which instances a payload asks for. An answer with
a status of success has a body that must decode; any other status is reported with its body.
-/

set_option autoImplicit false

namespace InstanceConsole

structure Client where
  base : Url
  /-- How many instances come with each selection. -/
  pageSize : UInt32 := 10
  deriving DecidableEq, Repr

/-- A document posted to a URL. -/
structure PostRequest where
  url : Url
  body : String
  deriving DecidableEq, Repr

/-- What comes of a request: an answer with its status and body, or none. -/
inductive Exchange
  | reply (status : Nat) (body : String)
  | unanswered
  deriving DecidableEq, Repr

/-- What carries requests, from a state that may change with each of them. -/
abbrev Transport (σ : Type) := σ → PostRequest → Exchange × σ

def PostRequest.contentType : String := "application/json"

namespace Client

/-- The client of the backend at a base URL, whose path is made to end in a slash. -/
def ofText (domains : DomainMapping) (baseUrl : String) : Except ClientError Client :=
  match Url.parse domains baseUrl with
  | .ok url => .ok { base := url.withTrailingSlash }
  | .error e => .error (.invalidUrl e)

/-! ## URLs -/

/-- The URL of a resource below the base. -/
def resource (c : Client) (relative : List String) : Except ClientError Url :=
  match c.base.join relative with
  | .ok url => .ok url
  | .error e => .error (.invalidUrl e)

/-- Where the instances that meet criteria are counted. -/
def countUrl (c : Client) : Except ClientError Url :=
  c.resource ["api", "workflow-instances", "count"]

/-- The query that asks for the first page. -/
def firstPage (pageSize : UInt32) : String :=
  "firstResult=0&maxResults=" ++ Numeral.text pageSize.toNat

/-- Where the instances of a selection are asked for. -/
def selectionUrl (c : Client) : Except ClientError Url :=
  (c.resource ["api", "workflow-instances"]).map fun url =>
    { url with query := some (firstPage c.pageSize) }

/-! ## Requests -/

/-- The URL without the user name and the password, which travel apart from it, unless they are
no text. -/
def withoutCredentials (u : Url) : Url :=
  let text? (s : String) : Option String := Utf8.decodeStrict (Percent.decode s.toList)
  match text? u.username with
  | none => u
  | some username =>
      if username = "" ∧ (u.password = "" ∨ text? u.password = none) then u
      else { u with username := "", password := "" }

/-- The request that posts a document to a URL. -/
def post (url : Url) (body : Json) : Except ClientError PostRequest :=
  let url := withoutCredentials url
  if url.scheme = "http" ∨ url.scheme = "https" then .ok { url, body := body.compact }
  else .error (.request (.unfetchable url.text))

/-- The body of a count: a single query with the criteria. -/
def countBody (criteria : Criteria) : Json := .record [("queries", .arr [criteria.toJson])]

def countRequest (c : Client) (criteria : Criteria) : Except ClientError PostRequest :=
  c.countUrl.bind (post · (countBody criteria))

def detailsRequest (c : Client) (payload : SelectionPayload) : Except ClientError PostRequest :=
  c.selectionUrl.bind (post · payload.toJson)

/-! ## Answers -/

/-- The count in the body of an answer. -/
def countOfJson? (j : Json) : Option UInt64 := do
  let fields ← Json.openRecord? ["count"] j
  fields.required "count" Json.count?

/-- The value that an exchange brings. -/
def result {α : Type} (decode : Json → Option α) (request : PostRequest) :
    Exchange → Except ClientError α
  | .unanswered => .error (.request (.unanswered request.url.text))
  | .reply status body =>
      if 200 ≤ status ∧ status < 300 then
        match (Json.read body).bind decode with
        | some value => .ok value
        | none => .error (.request .undecodable)
      else .error (.status status body)

/-- Sends a request, if there is one to send, and takes the value from the answer. -/
def fetch {σ α : Type} (transport : Transport σ) (decode : Json → Option α)
    (request : Except ClientError PostRequest) (state : σ) : Except ClientError α × σ :=
  match request with
  | .error e => (.error e, state)
  | .ok request =>
      let (exchange, state) := transport state request
      (result decode request exchange, state)

/-- The backend behind a transport. -/
def backend {σ : Type} (c : Client) (transport : Transport σ) : Backend σ where
  count state criteria := fetch transport countOfJson? (c.countRequest criteria) state
  details state payload := fetch transport InstancesDetails.ofJson? (c.detailsRequest payload) state

end Client

end InstanceConsole
