/-
# `ClawDB.Cli.Commands` — the commands that talk to the server

One definition for each subcommand, in the order of its source file: what it sends, as what it
reads the reply, and what it makes of it.  What a command prints is left out; whether it ends
with an error is what the process reports.

What comes from outside the command and the network is an argument: the text of a file, a policy
file once it is parsed, and how saving a token ends where the user wants it saved.
-/
import ClawDB.Cli.Client
import ClawDB.Engine

namespace ClawDB.Cli

open Effect
open Json

/-! ## Arguments -/

structure RememberArgs where
  content : Option String
  /-- `--type`, where it is given -/
  memoryType : Option String
  tags : Option String
  metadata : Option String
  /-- what reading the file gives, where `--file` is given -/
  file : Option (Except String String)

structure SearchArgs where
  query : String
  topK : UInt32
  semantic : Bool
  filter : Option String

inductive MemoryCommand where
  | remember (args : RememberArgs)
  | search (args : SearchArgs)
  | list (type : Option String) (limit : Nat)
  | get (id : String)
  | update (id content : String)
  | delete (id : String)

structure SessionCreateArgs where
  agentId : Uuid
  role : String
  scopes : String
  ttl : UInt64

inductive SessionCommand where
  | create (args : SessionCreateArgs) (saved : Except String Unit)
  | revoke (sessionId : String)
  | whoami
  | activeCount

inductive BranchStatus where
  | active
  | merged
  | discarded
deriving DecidableEq

inductive MergeStrategy where
  | lastWrite
  | sourceWins
  | theirs
deriving DecidableEq

inductive BranchCommand where
  | create (name : String) («from» : Option String)
  | list (status : Option BranchStatus)
  | get (branchId : String)
  | byName (name : String)
  | trunk
  | merge (sourceId targetId : String) (strategy : Option MergeStrategy)
  | diff (sourceId targetId : String)
  | archive (branchId : String)
  | discard (branchId : String)

inductive SyncCommand where
  | run (dryRun : Bool)
  | push
  | pull
  | reconcile
  | status

inductive ReflectJobKind where
  | full
  | summarise
  | extract
  | decay
  | all
deriving DecidableEq

inductive ReflectCommand where
  | run (job : Option ReflectJobKind) (dryRun : Bool) (agentId : Option Uuid)
  | jobs (agentId status : Option String) (limit : UInt32)
  | job (jobId : String)
  | facts (agentId : String)
  | preferences (agentId : String)
  | contradictions (agentId : String)
  | resolve (agentId contradictionId strategy : String) (mergedValue : Option Value)

inductive TxCommand where
  | begin
  | remember (txId content : String)
  | rememberTyped (txId content : String) (type tags metadata : Option String)
  | commit (txId : String)
  | rollback (txId : String)

inductive PolicyCommand where
  | list
  | add (file : Except CliError Value)
  | remove (policyId : String)
  | test (agentId : Uuid) (role task resource : String)

inductive Command where
  | status
  | session (command : SessionCommand)
  | remember (args : RememberArgs)
  | search (args : SearchArgs)
  | «recall» (id : String) (ids : List String)
  | memory (command : MemoryCommand)
  | branch (command : BranchCommand)
  | sync (command : SyncCommand)
  | reflect (command : ReflectCommand)
  | tx (command : TxCommand)
  | policy (command : PolicyCommand)

/-! ## Texts -/

def BranchStatus.str : BranchStatus → String
  | .active => "active"
  | .merged => "merged"
  | .discarded => "discarded"

def MergeStrategy.display : MergeStrategy → String
  | .lastWrite => "last_write_wins"
  | .sourceWins => "source_wins"
  | .theirs => "theirs"

def ReflectJobKind.display : ReflectJobKind → String
  | .full => "full"
  | .summarise => "summarise"
  | .extract => "extract"
  | .decay => "decay"
  | .all => "all"

/-- `split(',')`, each part trimmed, the empty ones left out. -/
def commaSeparated (s : String) : List String :=
  ((Text.splitAt ',' s).map Text.trim).filter fun part => decide (part ≠ "")

variable [Crates] [Reasons] (client : ClawDBClient)

/-! ## `status`, `session` -/

def status : Cmd Unit := do
  let _ ← client.get "/v1/health" HealthResponse.decode
  pure ()

def SessionCreateArgs.body (args : SessionCreateArgs) : Value :=
  .object [("agent_id", uuid args.agentId), ("role", .string args.role),
    ("scopes", strings ((Text.splitAt ',' args.scopes).map Text.trim)),
    ("ttl_secs", .nat args.ttl.toNat)]

def ioResult : Except String Unit → Cmd Unit
  | .ok u => pure u
  | .error message => throw (.io message)

def SessionCommand.execute : SessionCommand → Cmd Unit
  | .create args saved => do
      let _ ← client.post "/v1/sessions" args.body SessionInfo.decode
      ioResult saved
  | .revoke sessionId => client.delete ("/v1/sessions/" ++ sessionId)
  | .whoami => do
      let _ ← client.get "/v1/sessions/me" SessionInfo.decode
      pure ()
  | .activeCount => do
      let _ ← client.get "/v1/sessions/active/count" ActiveSessionCountResponse.decode
      pure ()

/-! ## `remember`, `search`, `recall`, `memory` -/

/-- The file's text, where one is given. -/
def RememberArgs.text (args : RememberArgs) : Except CliError String :=
  match args.file with
  | some (.ok text) => .ok text
  | some (.error message) => .error (.io message)
  | none => .ok (args.content.getD "")

def RememberArgs.metadataValue (args : RememberArgs) : Except CliError Value :=
  match args.metadata with
  | some raw =>
      match Crates.fromStr raw with
      | some v => .ok v
      | none => .error (.json .malformed)
  | none => .ok .null

def RememberArgs.tagList (args : RememberArgs) : List String := commaSeparated (args.tags.getD "")

def RememberArgs.body (args : RememberArgs) (content : String) (metadata : Value) : Value :=
  .object [("content", .string content),
    ("memory_type", .string (args.memoryType.getD "message")),
    ("metadata", metadata),
    ("tags", strings args.tagList)]

def RememberArgs.execute (args : RememberArgs) : Cmd Unit := do
  let content ← ExceptT.mk (.pure args.text)
  let metadata ← ExceptT.mk (.pure args.metadataValue)
  let _ ← client.post "/v1/memories" (args.body content metadata) CreateMemoryResponse.decode
  pure ()

def SearchArgs.params (args : SearchArgs) : List (String × String) :=
  [("q", args.query), ("top_k", toString args.topK.toNat), ("semantic", toString args.semantic)] ++
    (args.filter.map fun f => ("filter", f)).toList

def SearchArgs.execute (args : SearchArgs) : Cmd Unit := do
  let _ ← client.getQ "/v1/memories/search" args.params (vec SearchHit.decode)
  pure ()

def recallOne (id : String) : Cmd MemoryRecord :=
  client.get ("/v1/memories/" ++ id) MemoryRecord.decode

/-- The `for` loop of `recall`. -/
def recallAll : List String → Cmd Unit
  | [] => pure ()
  | id :: ids => do
      let _ ← recallOne client id
      recallAll ids

def MemoryCommand.execute : MemoryCommand → Cmd Unit
  | .remember args => args.execute client
  | .search args => args.execute client
  | .list type limit => do
      let _ ← client.getQ "/v1/memories"
        ([("limit", toString limit)] ++ (type.map fun t => ("type", t)).toList)
        (vec MemoryRecord.decode)
      pure ()
  | .delete id => client.delete ("/v1/memories/" ++ id)
  | .get id => do
      let _ ← client.get ("/v1/memories/" ++ id) MemoryRecord.decode
      pure ()
  | .update id content => do
      let _ ← client.patch ("/v1/memories/" ++ id) (.object [("content", .string content)])
        anyValue
      pure ()

/-! ## `branch` -/

def branchCreateBody (name : String) («from» : Option String) : Value :=
  .object ((«from».map fun parent => ("from", Value.string parent)).toList ++
    [("name", .string name)])

/-- `or_else(|_| Ok(Null))`: whatever went wrong. -/
def orNull (c : Cmd Value) : Cmd Value :=
  ExceptT.mk (c.run >>= fun
    | .ok v => .pure (.ok v)
    | .error _ => .pure (.ok .null))

def listPath : Option BranchStatus → String
  | some status => "/v1/branches?status=" ++ status.str
  | none => "/v1/branches"

def BranchCommand.execute : BranchCommand → Cmd Unit
  | .create name parent => do
      let _ ← client.post "/v1/branches" (branchCreateBody name parent) BranchRecord.decode
      pure ()
  | .list status => do
      let _ ← client.get (listPath status) (vec BranchRecord.decode)
      pure ()
  | .get branchId => do
      let _ ← client.get ("/v1/branches/" ++ branchId) BranchRecord.decode
      pure ()
  | .byName name => do
      let _ ← client.get ("/v1/branches/by-name/" ++ name) BranchRecord.decode
      pure ()
  | .trunk => do
      let _ ← client.get "/v1/branches/trunk" BranchRecord.decode
      pure ()
  | .archive branchId => do
      let _ ← orNull
        (client.post ("/v1/branches/" ++ branchId ++ "/archive") (.object []) anyValue)
      pure ()
  | .merge sourceId targetId strategy => do
      let _ ← client.post ("/v1/branches/" ++ sourceId ++ "/merge")
        (.object [("strategy", .string (strategy.getD .lastWrite).display),
          ("target_id", .string targetId)]) MergeResult.decode
      pure ()
  | .diff sourceId targetId => do
      let _ ← client.get ("/v1/branches/" ++ sourceId ++ "/diff?target=" ++ targetId)
        DiffResult.decode
      pure ()
  | .discard branchId => client.delete ("/v1/branches/" ++ branchId)

/-! ## `sync`, `reflect` -/

def SyncCommand.execute : SyncCommand → Cmd Unit
  | .run dryRun => do
      let _ ← client.post "/v1/sync" (.object [("dry_run", .bool dryRun)]) SyncResult.decode
      pure ()
  | .push => do
      let _ ← client.post "/v1/sync/push" (.object []) SyncActionResult.decode
      pure ()
  | .pull => do
      let _ ← client.post "/v1/sync/pull" (.object []) SyncActionResult.decode
      pure ()
  | .reconcile => do
      let _ ← client.post "/v1/sync/reconcile" (.object []) SyncActionResult.decode
      pure ()
  | .status => do
      let _ ← client.get "/v1/sync/status" SyncStatusResponse.decode
      pure ()

def reflectBodyOf (job : ReflectJobKind) (dryRun : Bool) (agentId : Option Uuid) : Value :=
  .object ((agentId.map fun id => ("agent_id", uuid id)).toList ++
    [("dry_run", .bool dryRun), ("job", .string job.display)])

def ReflectCommand.execute : ReflectCommand → Cmd Unit
  | .run kind dryRun agentId => do
      let _ ← client.post "/v1/reflect" (reflectBodyOf (kind.getD .full) dryRun agentId)
        ReflectJob.decode
      pure ()
  | .jobs agentId status limit => do
      let _ ← client.getQ "/v1/reflect/jobs"
        ([("limit", toString limit.toNat)] ++ (agentId.map fun a => ("agent_id", a)).toList ++
          (status.map fun s => ("status", s)).toList) (vec ReflectJobDetail.decode)
      pure ()
  | .job jobId => do
      let _ ← client.get ("/v1/reflect/jobs/" ++ jobId) ReflectJobDetail.decode
      pure ()
  | .facts agentId => do
      let _ ← client.get ("/v1/reflect/facts/" ++ agentId) (vec ExtractedFact.decode)
      pure ()
  | .preferences agentId => do
      let _ ← client.get ("/v1/reflect/preferences/" ++ agentId) (vec Preference.decode)
      pure ()
  | .contradictions agentId => do
      let _ ← client.get ("/v1/reflect/contradictions/" ++ agentId) (vec Contradiction.decode)
      pure ()
  | .resolve agentId contradictionId strategy mergedValue => do
      let _ ← client.post
        ("/v1/reflect/contradictions/" ++ agentId ++ "/" ++ contradictionId ++ "/resolve")
        (.object [("merged_value", mergedValue.getD .null), ("strategy", .string strategy)])
        Contradiction.decode
      pure ()

/-! ## `tx` -/

/-- A metadata text that is no JSON is taken for an empty object. -/
def txMetadata (metadata : Option String) : Value :=
  (Crates.fromStr (metadata.getD "{}")).getD (.object [])

def txTypedBody (content : String) (type tags metadata : Option String) : Value :=
  .object [("content", .string content),
    ("metadata", txMetadata metadata),
    ("tags", strings (commaSeparated (tags.getD ""))),
    ("type", .string (type.getD "semantic"))]

/-- `staged`, `committed` and `rolled_back` are printed, and go no further. -/
def TxCommand.execute : TxCommand → Cmd Unit
  | .begin => do
      let _ ← client.post "/v1/tx" (.object []) TxBeginResponse.decode
      pure ()
  | .remember txId content => do
      let _ ← client.post ("/v1/tx/" ++ txId ++ "/memories")
        (.object [("content", .string content)]) TxStagedResponse.decode
      pure ()
  | .rememberTyped txId content type tags metadata => do
      let _ ← client.post ("/v1/tx/" ++ txId ++ "/memories/typed")
        (txTypedBody content type tags metadata) TxStagedResponse.decode
      pure ()
  | .commit txId => do
      let _ ← client.post ("/v1/tx/" ++ txId ++ "/commit") (.object []) TxCommitResponse.decode
      pure ()
  | .rollback txId => do
      let _ ← client.post ("/v1/tx/" ++ txId ++ "/rollback") (.object []) TxRollbackResponse.decode
      pure ()

/-! ## `policy` -/

def PolicyCommand.execute : PolicyCommand → Cmd Unit
  | .list => do
      let _ ← client.get "/v1/policies" (vec PolicyRecord.decode)
      pure ()
  | .add file => do
      let asJson ← ExceptT.mk (.pure file)
      let _ ← client.post "/v1/policies" asJson PolicyRecord.decode
      pure ()
  | .remove policyId => client.delete ("/v1/policies/" ++ policyId)
  | .test agentId role task resource => do
      let _ ← client.post "/v1/policies/test"
        (.object [("agent_id", uuid agentId), ("resource", .string resource),
          ("role", .string role), ("task", .string task)]) PolicyTestResult.decode
      pure ()

/-- The dispatch of `main`. -/
def Command.execute : Command → Cmd Unit
  | .status => Cli.status client
  | .session command => command.execute client
  | .remember args => args.execute client
  | .search args => args.execute client
  | .«recall» id ids => recallAll client (id :: ids)
  | .memory command => command.execute client
  | .branch command => command.execute client
  | .sync command => command.execute client
  | .reflect command => command.execute client
  | .tx command => command.execute client
  | .policy command => command.execute client

end ClawDB.Cli
