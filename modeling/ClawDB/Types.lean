/-
# `ClawDB.Types` — the values that cross the wrapper's interface

The wrapper's own types are transcribed; the component crates' types keep the
fields this repository reads.  A component value that is only passed on to the
client is kept as what `serde` makes of it, a `Json.Value`.

`Crates` collects the pure functions of other crates that the wrapper calls:
nothing is assumed of them beyond their types.
-/
import ClawDB.Lib.Json
import ClawDB.Lib.Text

namespace ClawDB

open Json (Value)

/-- A UUID, as a number.  Generated ones never repeat; see `Effects`. -/
abbrev Uuid := Nat

/-- A UTC instant, in milliseconds. -/
abbrev DateTime := Int

/-- The bits of an `f32`; scores are passed on, never computed with. -/
abbrev F32 := BitVec 32

/-- `claw_core::MemoryType`. -/
inductive MemoryType where
  | semantic
  | episodic
  | working
  | procedural
deriving DecidableEq

/-- The functions of other crates. -/
class Crates where
  /-- `Uuid::parse_str` -/
  parseStr : String → Option Uuid
  /-- `Uuid::to_string`, and `Serialize for Uuid` -/
  uuidToString : Uuid → String
  /-- `serde_json::from_str::<Value>` -/
  fromStr : String → Option Value
  /-- `DateTime::to_rfc3339` -/
  toRfc3339 : DateTime → String
  /-- `claw_core::MemoryType::as_str` -/
  asStr : MemoryType → String

/-! ### One set of these functions

As the crates document them: hyphenated lower-case UUIDs, RFC 3339 in UTC.  Of
JSON texts it reads the literals only. -/

namespace Crates

def hexDigit (n : Nat) : Char :=
  if n < 10 then Char.ofNat (48 + n) else Char.ofNat (87 + n)

def hexValue (c : Char) : Option Nat :=
  if '0' ≤ c ∧ c ≤ '9' then some (c.toNat - 48)
  else if 'a' ≤ c ∧ c ≤ 'f' then some (c.toNat - 87)
  else if 'A' ≤ c ∧ c ≤ 'F' then some (c.toNat - 55)
  else none

/-- The last `k` hexadecimal digits of `n`. -/
def hex : Nat → Nat → List Char
  | 0, _ => []
  | k + 1, n => hex k (n / 16) ++ [hexDigit (n % 16)]

def hyphenate (cs : List Char) : List Char :=
  cs.take 8 ++ '-' :: (cs.drop 8).take 4 ++ '-' :: (cs.drop 12).take 4 ++
    '-' :: (cs.drop 16).take 4 ++ '-' :: cs.drop 20

def unhex (cs : List Char) : Option Nat :=
  cs.foldlM (fun n c => (hexValue c).map (n * 16 + ·)) 0

def parseHyphenated (s : String) : Option Uuid :=
  let digits := s.toList.filter (· != '-')
  if digits.length = 32 ∧ hyphenate digits = s.toList then unhex digits else none

def decimal (width n : Nat) : String :=
  let digits := Nat.toDigits 10 n
  String.ofList (List.replicate (width - digits.length) '0' ++ digits)

/-- Year, month and day of a day count from 1970-01-01. -/
def civil (days : Int) : Int × Nat × Nat :=
  let z := days + 719468
  let era := z / 146097
  let doe := (z % 146097).toNat
  let yoe := (doe - doe / 1460 + doe / 36524 - doe / 146096) / 365
  let doy := doe - (365 * yoe + yoe / 4 - yoe / 100)
  let mp := (5 * doy + 2) / 153
  let month := if mp < 10 then mp + 3 else mp - 9
  (yoe + era * 400 + (if month ≤ 2 then 1 else 0), month, doy - (153 * mp + 2) / 5 + 1)

def rfc3339 (t : DateTime) : String :=
  let (year, month, day) := civil (t / 86400000)
  let ms := (t % 86400000).toNat
  decimal 4 year.toNat ++ "-" ++ decimal 2 month ++ "-" ++ decimal 2 day ++ "T" ++
    decimal 2 (ms / 3600000) ++ ":" ++ decimal 2 (ms / 60000 % 60) ++ ":" ++
    decimal 2 (ms / 1000 % 60) ++ (if ms % 1000 = 0 then "" else "." ++ decimal 3 (ms % 1000)) ++
    "+00:00"

@[reducible] def sample : Crates where
  parseStr := parseHyphenated
  uuidToString id := String.ofList (hyphenate (hex 32 id))
  fromStr
    | "null" => some .null
    | "true" => some (.bool true)
    | "false" => some (.bool false)
    | _ => none
  toRfc3339 := rfc3339
  asStr
    | .semantic => "semantic"
    | .episodic => "episodic"
    | .working => "working"
    | .procedural => "procedural"

end Crates

/-- `claw_core::MemoryRecord`. -/
structure MemoryRecord where
  id : Uuid
  content : String
  memoryType : MemoryType
  tags : List String
deriving DecidableEq

/-- What `claw_guard` keeps of a session. -/
structure GuardSession where
  id : Uuid
  agentId : Uuid
  workspaceId : Uuid
  role : String
  scopes : List String
  token : String
  expiresAt : DateTime
deriving DecidableEq

/-- Public session type returned by the wrapper. -/
structure ClawDBSession where
  id : Uuid
  agentId : Uuid
  workspaceId : Uuid
  role : String
  scopes : List String
  token : String
  expiresAt : DateTime
deriving DecidableEq

inductive GuardError where
  | sessionExpired
  | sessionRevoked
  | invalidToken
  | other (message : String)
deriving DecidableEq

/-- Unified error type for the wrapper. -/
inductive ClawDBError where
  | core (message : String)
  | vector (message : String)
  | branch (message : String)
  | sync (message : String)
  | guard (e : GuardError)
  | reflect (message : String)
  | permissionDenied (reason : String)
  | componentDisabled (component : String)
  | componentInit (component message : String)
  | config (message : String)
  | sessionInvalid
  | transaction (message : String)
  | serialization (message : String)
  | io (message : String)
deriving DecidableEq

/-- Events emitted by wrapper operations. -/
inductive ClawEvent where
  | memoryWritten (memoryId : String) (workspaceId : Uuid)
  | searchExecuted (query : String) (hits : Nat)
  | branchCreated (branchId : Uuid) (name : String)
  | branchMerged (source target : Uuid) (merged : UInt32)
  | syncCompleted (pushed pulled : UInt32)
  | reflectCycleRun (factsExtracted : UInt32)
  | policyDenied (agentId : Uuid) (resource reason : String)
  | sessionCreated (sessionId agentId : Uuid)
deriving DecidableEq

/-! ## Results -/

/-- Result returned after storing a memory. -/
structure RememberResult where
  memoryId : Uuid
  indexed : Bool
deriving DecidableEq

/-- `claw_vector::SearchResult`. -/
structure SearchResult where
  id : Uuid
  score : F32
  text : Option String
  metadata : Value

/-- A normalized search hit returned by the wrapper. -/
structure SearchHit where
  id : Uuid
  score : F32
  content : String
  memoryType : String
  tags : List String
  metadata : Value
deriving DecidableEq

/-- Summary of a sync round. -/
structure SyncSummary where
  pushed : UInt32
  pulled : UInt32
  conflicts : UInt32
  durationMs : UInt64
deriving DecidableEq

/-- Summary of a reflect run. -/
structure ReflectSummary where
  jobId : Option String
  status : String
  message : String
  skipped : Bool
deriving DecidableEq

def ReflectSummary.skippedSummary : ReflectSummary :=
  ⟨none, "skipped", "reflect client not configured", true⟩

/-- Aggregate wrapper health status. -/
structure HealthStatus where
  ok : Bool
  components : List (String × Bool)

/-! ## Component values -/

/-- `claw_branch::Branch`, with its serialisation. -/
structure Branch where
  id : Uuid
  name : String
  json : Value

inductive MergeStrategy where
  | ours
  | theirs
  | union
  | manual
deriving DecidableEq

/-- `claw_branch::MergeResult`: the fields read here, and the `rest`. -/
structure MergeResult where
  success : Bool
  applied : UInt32
  skipped : UInt32
  conflicts : List Value
  durationMs : UInt64
  rest : List (String × Value)
  rest_fresh : ∀ kv ∈ rest,
    kv.1 ∉ ["success", "applied", "skipped", "conflicts", "duration_ms"]

/-- The counters of a diff. -/
structure DiffStats where
  added : UInt32
  removed : UInt32
  modified : UInt32
  unchanged : UInt32

/-- `claw_branch::DiffResult`: it keeps its counters under `stats`. -/
structure DiffResult where
  stats : DiffStats
  divergenceScore : Value
  rest : List (String × Value)
  rest_fresh : ∀ kv ∈ rest,
    kv.1 ∉ ["stats", "divergence_score", "added", "removed", "modified"]

/-- `claw_sync` push statistics. -/
structure PushStats where
  deltasSent : UInt32
  json : Value

/-- `claw_sync` pull statistics. -/
structure PullStats where
  deltasReceived : UInt32
  opsSkipped : UInt32
  json : Value

/-- One full sync round. -/
structure SyncRound where
  push : PushStats
  pull : PullStats
  durationMs : UInt64

/-- `claw_sync::engine::SyncStatus`. -/
structure SyncStatus where
  connected : Bool
  lastError : Option String
  json : Value

/-- The reflect service's answer to a triggered job. -/
structure TriggeredJob where
  jobId : String
  status : String
  message : String

/-! ## Server state -/

/-- A memory staged in a pending transaction. -/
structure StagedMemory where
  content : String
  memoryType : String
  tags : List String
  metadata : Value
deriving DecidableEq

/-- A transaction begun over HTTP or gRPC and not yet committed or rolled back. -/
structure PendingTransaction where
  id : Uuid
  session : ClawDBSession
  stagedMemories : List StagedMemory
deriving DecidableEq

end ClawDB
