/-
# `ClawDB.Cli` — the command line reads the server's replies

The CLI decodes each HTTP reply into a type of its own, declared apart from the
server's.  `Success` lists the replies and the value each was written from;
`Agrees` says that the CLI reads it without error and shows the value's own
identifiers and counters.

`success_agrees_iff` says of which replies that is true.  A reply that carries a key
together with its alias, a list where a number is read, a number one level deeper
than it is read, or a `null` where a string is read, is not read back.
-/
import ClawDB.Server.Wire

namespace ClawDB.Cli

open Json

/-! ## The CLI's types -/

structure SessionInfo where
  sessionId : String
  token : String
  agentId : String
  role : String
  scopes : List String
  expiresAt : Option String

structure BranchRecord where
  id : String
  name : String
  status : String
  createdAt : Option String
  parentId : Option String

structure MergeResult where
  merged : Nat
  conflicts : Nat

structure DiffResult where
  added : Nat
  modified : Nat
  removed : Nat

structure SyncResult where
  pushed : Nat
  pulled : Nat
  conflicts : Nat

structure ReflectJob where
  jobId : String
  status : String
  memoriesProcessed : Option Nat
  summariesCreated : Option Nat

structure CreateMemoryResponse where
  id : String

structure TxBeginResponse where
  txId : String

structure TxStagedResponse where
  staged : Bool
  memoryId : Option String

structure TxCommitResponse where
  committed : Bool
  count : Nat

structure TxRollbackResponse where
  rolledBack : Bool

/-! ### Their derived readers

Of several errors in one reply the first field's is given; `serde` gives the first
in the text. -/

def SessionInfo.decode : Decoder SessionInfo := fun v => do
  let fields ← members v
  let sessionId ← defaulted "session_id" ["id"] string "" fields
  let token ← required "token" [] string fields
  let agentId ← defaulted "agent_id" [] string "" fields
  let role ← defaulted "role" [] string "" fields
  let scopes ← defaulted "scopes" [] (vec string) [] fields
  let expiresAt ← optional "expires_at" string fields
  pure ⟨sessionId, token, agentId, role, scopes, expiresAt⟩

def BranchRecord.decode : Decoder BranchRecord := fun v => do
  let fields ← members v
  let id ← required "id" ["branch_id"] string fields
  let name ← required "name" [] string fields
  let status ← defaulted "status" [] string "" fields
  let createdAt ← optional "created_at" string fields
  let parentId ← optional "parent_id" string fields
  pure ⟨id, name, status, createdAt, parentId⟩

def MergeResult.decode : Decoder MergeResult := fun v => do
  let fields ← members v
  let merged ← defaulted "merged" [] u64 0 fields
  let conflicts ← defaulted "conflicts" [] u64 0 fields
  pure ⟨merged, conflicts⟩

def DiffResult.decode : Decoder DiffResult := fun v => do
  let fields ← members v
  let added ← defaulted "added" [] u64 0 fields
  let modified ← defaulted "modified" [] u64 0 fields
  let removed ← defaulted "removed" [] u64 0 fields
  pure ⟨added, modified, removed⟩

def SyncResult.decode : Decoder SyncResult := fun v => do
  let fields ← members v
  let pushed ← defaulted "pushed" [] u64 0 fields
  let pulled ← defaulted "pulled" [] u64 0 fields
  let conflicts ← defaulted "conflicts" [] u64 0 fields
  pure ⟨pushed, pulled, conflicts⟩

def ReflectJob.decode : Decoder ReflectJob := fun v => do
  let fields ← members v
  let jobId ← defaulted "job_id" [] string "" fields
  let status ← defaulted "status" [] string "" fields
  let memoriesProcessed ← optional "memories_processed" u64 fields
  let summariesCreated ← optional "summaries_created" u64 fields
  pure ⟨jobId, status, memoriesProcessed, summariesCreated⟩

def CreateMemoryResponse.decode : Decoder CreateMemoryResponse := fun v => do
  let fields ← members v
  let id ← required "id" ["memory_id"] string fields
  pure ⟨id⟩

def TxBeginResponse.decode : Decoder TxBeginResponse := fun v => do
  let fields ← members v
  let txId ← required "tx_id" [] string fields
  pure ⟨txId⟩

def TxStagedResponse.decode : Decoder TxStagedResponse := fun v => do
  let fields ← members v
  let staged ← defaulted "staged" [] bool false fields
  let memoryId ← optional "memory_id" string fields
  pure ⟨staged, memoryId⟩

def TxCommitResponse.decode : Decoder TxCommitResponse := fun v => do
  let fields ← members v
  let committed ← required "committed" [] bool fields
  let count ← defaulted "count" [] u64 0 fields
  pure ⟨committed, count⟩

def TxRollbackResponse.decode : Decoder TxRollbackResponse := fun v => do
  let fields ← members v
  let rolledBack ← defaulted "rolled_back" [] bool false fields
  pure ⟨rolledBack⟩

/-- `handle_response` on a successful reply: an empty body is read as `null`. -/
def handleResponse {α : Type} (d : Decoder α) (body : Option Value) : Except DecodeError α :=
  d (body.getD .null)

/-! ## The replies, and what is to be shown of them -/

/-- A successful reply, with the value its handler serialises. -/
inductive Success where
  | createSession (session : ClawDBSession)
  | whoami (session : ClawDBSession)
  | remember (result : RememberResult)
  | createBranch (id : Uuid) (name : String)
  | mergeBranch (result : ClawDB.MergeResult)
  | diffBranch (result : ClawDB.DiffResult)
  | sync (summary : SyncSummary)
  | reflect (summary : ReflectSummary)
  | beginTransaction (txId : Uuid)
  | txRemember
  | txRememberTyped
  | commitTransaction
  | rollbackTransaction

namespace Success

variable [Crates]

def body : Success → Value
  | createSession s => sessionBody s
  | whoami s => sessionBody s
  | remember r => rememberedBody r
  | createBranch id name => branchCreatedBody id name
  | mergeBranch r => mergeBody r
  | diffBranch r => diffBody r
  | sync s => syncBody s
  | reflect s => reflectBody s
  | beginTransaction txId => txBegunBody txId
  | txRemember => stagedBody
  | txRememberTyped => stagedBody
  | commitTransaction => committedBody
  | rollbackTransaction => rolledBackBody

/-- What the CLI shows is what the session has. -/
def ShowsSession (s : ClawDBSession) (info : SessionInfo) : Prop :=
  info.sessionId = Crates.uuidToString s.id ∧ info.agentId = Crates.uuidToString s.agentId ∧
    info.token = s.token ∧ info.role = s.role ∧ info.scopes = s.scopes ∧
    info.expiresAt = some (Crates.toRfc3339 s.expiresAt)

/-- The CLI reads the reply as `α`, and what it then shows is right. -/
def Reads {α : Type} (v : Success) (d : Decoder α) (shows : α → Prop) : Prop :=
  ∃ a, handleResponse d (some v.body) = .ok a ∧ shows a

def Agrees : Success → Prop
  | createSession s => (createSession s).Reads SessionInfo.decode (ShowsSession s)
  | whoami s => (whoami s).Reads SessionInfo.decode (ShowsSession s)
  | remember r => (remember r).Reads CreateMemoryResponse.decode fun m =>
      m.id = Crates.uuidToString r.memoryId
  | createBranch id name => (createBranch id name).Reads BranchRecord.decode fun b =>
      b.id = Crates.uuidToString id ∧ b.name = name
  | mergeBranch r => (mergeBranch r).Reads MergeResult.decode fun m =>
      m.merged = r.applied.toNat ∧ m.conflicts = r.conflicts.length
  | diffBranch r => (diffBranch r).Reads DiffResult.decode fun d =>
      d.added = r.stats.added.toNat ∧ d.modified = r.stats.modified.toNat ∧
        d.removed = r.stats.removed.toNat
  | sync s => (sync s).Reads SyncResult.decode fun r =>
      r.pushed = s.pushed.toNat ∧ r.pulled = s.pulled.toNat ∧ r.conflicts = s.conflicts.toNat
  | reflect s => (reflect s).Reads ReflectJob.decode fun j =>
      j.jobId = s.jobId.getD "" ∧ j.status = s.status
  | beginTransaction txId => (beginTransaction txId).Reads TxBeginResponse.decode fun r =>
      r.txId = Crates.uuidToString txId
  | txRemember => txRemember.Reads TxStagedResponse.decode fun r => r.staged = true
  | txRememberTyped => txRememberTyped.Reads TxStagedResponse.decode fun r => r.staged = true
  | commitTransaction => commitTransaction.Reads TxCommitResponse.decode fun r =>
      r.committed = true
  | rollbackTransaction => rollbackTransaction.Reads TxRollbackResponse.decode fun r =>
      r.rolledBack = true

/-- The replies whose text the CLI's type was made for. -/
def Readable : Success → Prop
  | createSession _ | whoami _ | createBranch _ _ | mergeBranch _ => False
  | diffBranch r => r.stats.added = 0 ∧ r.stats.modified = 0 ∧ r.stats.removed = 0
  | reflect s => s.jobId ≠ none
  | _ => True

end Success

/-! ## What the readers make of the bodies -/

/-- Every counter the server sends fits the CLI's. -/
theorem u64_uint32 (n : UInt32) : u64 (.nat n.toNat) = .ok n.toNat :=
  u64_nat (Nat.lt_of_lt_of_le n.toNat_lt (by decide))

section Identifiers

variable [Crates]

/-- The body has `id` and `session_id`, which are one field. -/
theorem decode_session (s : ClawDBSession) :
    SessionInfo.decode (sessionBody s) = .error (.duplicateField "session_id") := rfl

theorem decode_remembered (r : RememberResult) :
    CreateMemoryResponse.decode (rememberedBody r) = .ok ⟨Crates.uuidToString r.memoryId⟩ := rfl

/-- The body has `id` and `branch_id`, which are one field. -/
theorem decode_branchCreated (id : Uuid) (name : String) :
    BranchRecord.decode (branchCreatedBody id name) = .error (.duplicateField "id") := rfl

theorem decode_txBegun (txId : Uuid) :
    TxBeginResponse.decode (txBegunBody txId) = .ok ⟨Crates.uuidToString txId⟩ := rfl

end Identifiers

/-- `conflicts` is a list in the body and a number in the CLI's type. -/
theorem decode_merge (r : ClawDB.MergeResult) (m : MergeResult) :
    MergeResult.decode (mergeBody r) ≠ .ok m := by
  obtain ⟨success, applied, skipped, conflicts, durationMs, rest, hrest⟩ := r
  have hfresh : occurrences ["conflicts"] rest = [] :=
    occurrences_eq_nil fun kv hkv h => hrest kv hkv (by rw [List.mem_singleton.mp h]; decide)
  have hocc : ∀ fields, occurrences ["conflicts"] fields = [.array conflicts] →
      ∀ merged : Except DecodeError Nat, (do
        let merged ← merged
        let conflicts ← defaulted "conflicts" [] u64 0 fields
        pure (⟨merged, conflicts⟩ : MergeResult)) ≠ .ok m := by
    intro fields h merged
    rw [defaulted, field_single h]
    cases merged with
    | error e => exact fun he => nomatch he
    | ok n => exact fun he => nomatch he
  refine hocc _ ?_ _
  rw [occurrences_append, hfresh]
  rfl

/-- The counters stand under `stats`; at the top level the CLI finds none. -/
theorem decode_diff (r : ClawDB.DiffResult) : DiffResult.decode (diffBody r) = .ok ⟨0, 0, 0⟩ := by
  obtain ⟨stats, divergenceScore, rest, hrest⟩ := r
  have habsent : ∀ name ∈ ["added", "removed", "modified"],
      defaulted name [] u64 0
        ([("stats", diffStatsBody stats), ("divergence_score", divergenceScore)] ++ rest) =
          .ok 0 := by
    intro name hname
    have hhead : name ≠ "stats" ∧ name ≠ "divergence_score" := by
      constructor <;> rintro rfl <;> revert hname <;> decide
    have hfresh : occurrences [name] rest = [] := by
      refine occurrences_eq_nil fun kv hkv h => hrest kv hkv ?_
      rw [List.mem_singleton.mp h]
      exact List.mem_cons_of_mem _ (List.mem_cons_of_mem _ hname)
    refine field_absent ?_
    rw [occurrences_append, hfresh, List.append_nil]
    exact occurrences_eq_nil (by simp [Ne.symm hhead.1, Ne.symm hhead.2])
  refine bind_ok rfl (bind_ok (habsent "added" (by decide)) ?_)
  exact bind_ok (habsent "modified" (by decide)) (bind_ok (habsent "removed" (by decide)) rfl)

theorem decode_sync (s : SyncSummary) : SyncResult.decode (syncBody s) =
    .ok ⟨s.pushed.toNat, s.pulled.toNat, s.conflicts.toNat⟩ := by
  refine bind_ok rfl (bind_ok ((field_single rfl).trans (u64_uint32 s.pushed)) ?_)
  refine bind_ok ((field_single rfl).trans (u64_uint32 s.pulled)) ?_
  exact bind_ok ((field_single rfl).trans (u64_uint32 s.conflicts)) rfl

/-- A `job_id` of `null` is there, so its default does not apply, and is no string. -/
theorem decode_reflect (s : ReflectSummary) : ReflectJob.decode (reflectBody s) =
    match s.jobId with
    | some jobId => .ok ⟨jobId, s.status, none, none⟩
    | none => .error (.invalidType "a string") := by
  obtain ⟨jobId, status, message, skipped⟩ := s
  cases jobId with
  | some jobId => rfl
  | none => rfl

/-! ## Which replies are read back -/

namespace Success

variable [Crates]

theorem reads_ok {α : Type} {v : Success} {d : Decoder α} {shows : α → Prop} {a : α}
    (h : d v.body = .ok a) : v.Reads d shows ↔ shows a := by
  constructor
  · rintro ⟨b, hb, hs⟩
    obtain rfl : a = b := Except.ok.inj (h.symm.trans hb)
    exact hs
  · exact fun hs => ⟨a, h, hs⟩

theorem not_reads {α : Type} {v : Success} {d : Decoder α} {shows : α → Prop}
    (h : ∀ a, d v.body ≠ .ok a) : ¬ v.Reads d shows := by
  rintro ⟨a, ha, -⟩
  exact h a ha

theorem not_reads_error {α : Type} {v : Success} {d : Decoder α} {shows : α → Prop}
    {e : DecodeError} (h : d v.body = .error e) : ¬ v.Reads d shows :=
  not_reads fun _ ha => nomatch h.symm.trans ha

/-- The CLI shows a reply's identifiers and counters as they were sent exactly when the
reply is one it can read. -/
theorem success_agrees_iff (v : Success) : v.Agrees ↔ v.Readable := by
  cases v with
  | createSession s => exact iff_of_false (not_reads_error (decode_session s)) id
  | whoami s => exact iff_of_false (not_reads_error (decode_session s)) id
  | remember r => exact iff_of_true ((reads_ok (decode_remembered r)).mpr rfl) trivial
  | createBranch id name =>
      exact iff_of_false (not_reads_error (decode_branchCreated id name)) fun h => h
  | mergeBranch r => exact iff_of_false (not_reads (decode_merge r)) id
  | diffBranch r =>
      refine (reads_ok (decode_diff r)).trans ?_
      simp only [Readable, ← UInt32.toNat_inj]
      exact ⟨fun ⟨ha, hm, hr⟩ => ⟨ha.symm, hm.symm, hr.symm⟩,
        fun ⟨ha, hm, hr⟩ => ⟨ha.symm, hm.symm, hr.symm⟩⟩
  | sync s =>
      exact iff_of_true ((reads_ok (v := .sync s) (decode_sync s)).mpr ⟨rfl, rfl, rfl⟩) trivial
  | reflect s =>
      have hdecode := decode_reflect s
      cases hj : s.jobId with
      | some jobId =>
          rw [hj] at hdecode
          refine iff_of_true ((reads_ok hdecode).mpr ⟨?_, rfl⟩) ?_
          · rw [hj]; rfl
          · exact fun h => nomatch hj.symm.trans h
      | none =>
          rw [hj] at hdecode
          exact iff_of_false (not_reads_error hdecode) (fun h => h hj)
  | beginTransaction txId => exact iff_of_true ((reads_ok (decode_txBegun txId)).mpr rfl) trivial
  | txRemember => exact iff_of_true ⟨⟨true, none⟩, rfl, rfl⟩ trivial
  | txRememberTyped => exact iff_of_true ⟨⟨true, none⟩, rfl, rfl⟩ trivial
  | commitTransaction => exact iff_of_true ⟨⟨true, 0⟩, rfl, rfl⟩ trivial
  | rollbackTransaction => exact iff_of_true ⟨⟨true⟩, rfl, rfl⟩ trivial

end Success

section Witnesses

attribute [local instance] Crates.sample

/-- Creating a branch: the server has created it, the CLI reports an error. -/
theorem branch_reply_unreadable :
    handleResponse BranchRecord.decode (some (Success.createBranch 7 "draft").body) =
        .error (.duplicateField "id") ∧
      ¬ (Success.createBranch 7 "draft").Agrees := by
  refine ⟨rfl, ?_⟩
  rintro ⟨b, hb, -⟩
  exact nomatch hb

end Witnesses

end ClawDB.Cli
