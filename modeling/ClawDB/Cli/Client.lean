/-
# `ClawDB.Cli.Client` — the HTTP client under the commands

A command is a program over two operations: it sends a request and is told what became of it,
or it waits.  What became of a request is the network's to say: no reply, or a reply with any
status and any body.

The path of a request is kept as the text that the command formats, with whatever it put into
it; what a URL makes of that text is for `Server.Router`.  The address of the server is left out.
-/
import ClawDB.Cli.Types
import ClawDB.Lib.Retry
import ClawDB.Lib.Text

namespace ClawDB.Cli

open Effect
open Json

/-! ## Requests and replies -/

inductive Method where
  | get
  | post
  | patch
  | delete
deriving DecidableEq

structure HttpRequest where
  method : Method
  /-- what is put behind the address; a query may stand in it -/
  path : String
  /-- the pairs that `RequestBuilder::query` adds -/
  query : List (String × String)
  body : Option Value
  /-- the token of the `Authorization` header -/
  bearer : Option String
deriving DecidableEq

/-- A `reqwest::Error`. -/
structure ReqwestError where
  isConnect : Bool
  isTimeout : Bool
  text : String
deriving DecidableEq

/-- The bytes of a body. -/
inductive Payload where
  | empty
  | json (v : Value)
  /-- no JSON -/
  | text (s : String)
  /-- they do not all arrive -/
  | cut (e : ReqwestError)
deriving DecidableEq

structure Reply where
  status : Nat
  retryAfter : Option String
  payload : Payload
deriving DecidableEq

/-- What became of a request. -/
inductive Outcome where
  | failed (e : ReqwestError)
  | replied (reply : Reply)
deriving DecidableEq

inductive NetOp where
  | send (request : HttpRequest)
  | sleep (millis : Nat)

@[reducible] def NetOp.Ret : NetOp → Type
  | .send _ => Outcome
  | .sleep _ => Unit

@[reducible] def Net : Effect.Sig := ⟨NetOp, NetOp.Ret⟩

def send (request : HttpRequest) : Prog Net Outcome := Prog.perform (F := Net) (.send request)

def sleep (millis : Nat) : Prog Net Unit := Prog.perform (F := Net) (.sleep millis)

/-! ## Errors -/

inductive JsonError where
  | malformed
  | data (e : DecodeError)
deriving DecidableEq

/-- The errors a command that talks to the server can end with. -/
inductive CliError where
  | unauthorized (message : String)
  | permissionDenied (message : String)
  | notFound (message : String)
  | rateLimited (retryAfterSecs : Nat)
  | serviceUnavailable
  | api (status : Nat) (message : String)
  | connection (message : String)
  | io (message : String)
  | json (e : JsonError)
  | tomlDe (message : String)
deriving DecidableEq

/-- A command: it can end with an error. -/
abbrev Cmd := Try Net CliError

/-- The exit code of the process. -/
def exitCode : Except CliError Unit → Nat
  | .ok _ => 0
  | .error (.unauthorized _) => 77
  | .error (.permissionDenied _) => 77
  | .error (.notFound _) => 1
  | .error (.rateLimited _) => 75
  | .error .serviceUnavailable => 69
  | .error (.connection _) => 68
  | .error _ => 1

/-- The exit code tells success from every error. -/
theorem exitCode_eq_zero_iff (r : Except CliError Unit) : exitCode r = 0 ↔ r = .ok () := by
  rcases r with e | ⟨⟩
  · cases e <;> simp [exitCode]
  · simp [exitCode]

/-! ## Reading a reply -/

/-- The reason phrases of the `http` crate. -/
class Reasons where
  /-- `StatusCode::canonical_reason` -/
  canonicalReason : Nat → Option String

/-- Those of a few statuses. -/
@[reducible] def Reasons.sample : Reasons where
  canonicalReason
    | 200 => some "OK"
    | 204 => some "No Content"
    | 404 => some "Not Found"
    | 500 => some "Internal Server Error"
    | 502 => some "Bad Gateway"
    | 503 => some "Service Unavailable"
    | _ => none

def mapReqwestErr (e : ReqwestError) : CliError :=
  if e.isConnect || e.isTimeout then .connection "is clawdb-server running?"
  else .connection e.text

/-- `StatusCode::is_success`. -/
def Reply.isSuccess (reply : Reply) : Bool := decide (200 ≤ reply.status ∧ reply.status < 300)

/-- `resp.json().await.unwrap_or_default()` -/
def Payload.apiErrorBody : Payload → ApiErrorBody
  | .json v =>
      match ApiErrorBody.decode v with
      | .ok body => body
      | .error _ => .default
  | _ => .default

def extractError [Reasons] (reply : Reply) : CliError :=
  let retryAfter := (reply.retryAfter.bind (Text.parseUnsigned UInt64.size)).getD 60
  let body := reply.payload.apiErrorBody
  let msg := (body.detail.or body.message).getD body.error
  let msg := if msg = "" then (Reasons.canonicalReason reply.status).getD "unknown" else msg
  match reply.status with
  | 401 => .unauthorized "run `clawdb session create` first"
  | 403 => .permissionDenied msg
  | 404 => .notFound msg
  | 429 => .rateLimited retryAfter
  | 503 => .serviceUnavailable
  | status => .api status msg

variable {α : Type}

def fromValue (d : Decoder α) (v : Value) : Except CliError α :=
  (d v).mapError fun e => .json (.data e)

/-- An empty body is read as `null`. -/
def Payload.read (d : Decoder α) : Payload → Except CliError α
  | .empty => fromValue d .null
  | .json v => fromValue d v
  | .text _ => .error (.json .malformed)
  | .cut e => .error (.connection e.text)

namespace Client

variable [Reasons]

def handleResponse (d : Decoder α) (reply : Reply) : Except CliError α :=
  if reply.isSuccess then reply.payload.read d else .error (extractError reply)

/-- What `send_and_parse` makes of what became of a request. -/
def parsed (d : Decoder α) : Outcome → Except CliError α
  | .failed e => .error (mapReqwestErr e)
  | .replied reply => handleResponse d reply

/-- What `send_no_body` makes of it: the body of a success is not read. -/
def acknowledged : Outcome → Except CliError Unit
  | .failed e => .error (mapReqwestErr e)
  | .replied reply => if reply.isSuccess then .ok () else .error (extractError reply)

end Client

/-! ## The client -/

def isRetryable : CliError → Bool
  | .serviceUnavailable | .connection _ => true
  | .api status _ => decide (500 ≤ status)
  | _ => false

/-- `RETRY_DELAYS`, in milliseconds. -/
def retryDelays : List Nat := [200, 400, 800]

/-- The loop of `get_q`, `delete` and `retry_json`. -/
def retrying (request : HttpRequest) (read : Outcome → Except CliError α) : Cmd α :=
  ExceptT.mk (Prog.retry (send request >>= fun o => .pure (read o)) sleep isRetryable retryDelays)

structure ClawDBClient where
  token : Option String

namespace ClawDBClient

variable [Reasons] (client : ClawDBClient)

def retryJson (method : Method) (path : String) (body : Option Value) (d : Decoder α) : Cmd α :=
  retrying ⟨method, path, [], body, client.token⟩ (Client.parsed d)

/-- GET a JSON resource. -/
def get (path : String) (d : Decoder α) : Cmd α := client.retryJson .get path none d

/-- GET with URL query parameters. -/
def getQ (path : String) (params : List (String × String)) (d : Decoder α) : Cmd α :=
  retrying ⟨.get, path, params, none, client.token⟩ (Client.parsed d)

/-- POST a JSON body and receive a JSON response. -/
def post (path : String) (body : Value) (d : Decoder α) : Cmd α :=
  client.retryJson .post path (some body) d

/-- PATCH a resource with a JSON body and receive a JSON response. -/
def patch (path : String) (body : Value) (d : Decoder α) : Cmd α :=
  client.retryJson .patch path (some body) d

/-- DELETE a resource. -/
def delete (path : String) : Cmd Unit :=
  retrying ⟨.delete, path, [], none, client.token⟩ Client.acknowledged

end ClawDBClient

end ClawDB.Cli
