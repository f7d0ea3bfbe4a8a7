/-
# `ClawDB.World` — what is assumed of the components

`World` is the joint state of the component crates, the random source and the map
of pending transactions.  `sem` is the relation between an operation, the world
it finds, its reply and the world it leaves: the documented behaviour the
repository relies on, and nothing else.  Every fallible call may fail at any
time, and a failed call leaves its component as it was.

* `claw_guard` is a table of sessions and a set of revoked ids; a validated token
  is one the table binds, a created session binds what was asked for.
* `claw_core` is a table of records, at most one for an id.  Rows inserted in a core
  transaction are kept aside until its commit succeeds; a transaction that is rolled
  back, whose commit fails, or that is dropped leaves none.
* `claw_vector` is a list of documents, each with an id the engine drew itself.
* `claw_branch` and `claw_sync` work on the core's database file: their calls may
  leave any rows behind.
* Random ids never repeat.

`reference` is one deterministic set of components with this behaviour.
-/
import ClawDB.Effects
import Mathlib.Logic.Function.Basic
import Mathlib.Data.List.Nodup
import Mathlib.Logic.Relation

namespace ClawDB

open Effect
open Json (Value)

/-- A document of the vector engine. -/
structure Doc where
  id : Uuid
  workspaceId : String
  collection : String
  text : String
  metadata : Value
deriving DecidableEq

/-- A document as a search returns it. -/
def Doc.result (d : Doc) (score : F32) : SearchResult := ⟨d.id, score, some d.text, d.metadata⟩

structure World where
  sessions : List GuardSession
  revoked : List Uuid
  rows : List MemoryRecord
  /-- the rows kept aside by each open core transaction -/
  opened : TxHandle → Option (List MemoryRecord)
  /-- the handles given out so far -/
  handles : List TxHandle
  docs : List Doc
  /-- the random ids drawn so far -/
  used : List Uuid
  transactions : Uuid → Option PendingTransaction

/-- `pending.staged_memories.push(staged)`. -/
def PendingTransaction.push (p : PendingTransaction) (staged : StagedMemory) :
    PendingTransaction :=
  { p with stagedMemories := p.stagedMemories ++ [staged] }

def World.setTransaction (w : World) (id : Uuid) (p : Option PendingTransaction) : World :=
  { w with transactions := Function.update w.transactions id p }

@[simp] theorem World.setTransaction_same (w : World) (id : Uuid) (p : Option PendingTransaction) :
    (w.setTransaction id p).transactions id = p :=
  Function.update_self ..

theorem World.setTransaction_ne (w : World) {id id' : Uuid} (h : id' ≠ id)
    (p : Option PendingTransaction) :
    (w.setTransaction id p).transactions id' = w.transactions id' :=
  Function.update_of_ne h ..

theorem World.setTransaction_self {w : World} {id : Uuid} {p : Option PendingTransaction}
    (h : w.transactions id = p) : w.setTransaction id p = w := by
  subst h
  unfold World.setTransaction
  rw [Function.update_eq_self]

/-- What is pending after an update was written there, or was pending before. -/
theorem World.setTransaction_cases {w : World} {id id' : Uuid} {p : Option PendingTransaction}
    {pending : PendingTransaction} (h : (w.setTransaction id' p).transactions id = some pending) :
    id = id' ∧ p = some pending ∨ w.transactions id = some pending := by
  by_cases hid : id = id'
  · subst hid
    exact .inl ⟨rfl, (w.setTransaction_same id p).symm.trans h⟩
  · exact .inr ((w.setTransaction_ne hid p).symm.trans h)

/-- The world of a fresh data directory. -/
def World.empty : World := ⟨[], [], [], fun _ => none, [], [], [], fun _ => none⟩

/-! ## The relation -/

/-- A fallible call: an error changes nothing, success is described by `ok`. -/
def fallible {ε α : Type} (w : World) (ok : α → World → Prop) : Except ε α → World → Prop
  | .ok a, w' => ok a w'
  | .error _, w' => w' = w

def GuardOp.sem (w : World) : (o : GuardOp) → o.Ret → World → Prop
  | .validateSession token => fallible w fun g w' =>
      w' = w ∧ g ∈ w.sessions ∧ g.token = token ∧ g.id ∉ w.revoked
  | .createSession agentId workspaceId role scopes _ => fallible w fun g w' =>
      g.agentId = agentId ∧ g.workspaceId = workspaceId ∧ g.role = role ∧ g.scopes = scopes ∧
      g.id ∉ w.used ∧ (∀ s ∈ w.sessions, s.token ≠ g.token) ∧
      w' = { w with sessions := w.sessions ++ [g], used := g.id :: w.used }
  | .revokeSession sessionId => fallible w fun _ w' =>
      w' = { w with revoked := sessionId :: w.revoked }
  | .countSessions => fallible w fun _ w' => w' = w

def setContent (id : Uuid) (content : String) (r : MemoryRecord) : MemoryRecord :=
  if r.id = id then { r with content := content } else r

def CoreOp.sem (w : World) : (o : CoreOp) → o.Ret → World → Prop
  | .insertMemory record => fallible w fun id w' =>
      id = record.id ∧ (∀ r ∈ w.rows, r.id ≠ record.id) ∧
      w' = { w with rows := w.rows ++ [record] }
  | .getMemory id => fallible w fun r w' => w' = w ∧ r ∈ w.rows ∧ r.id = id
  | .listMemories _ => fallible w fun rs w' => w' = w ∧ ∀ r ∈ rs, r ∈ w.rows
  | .updateMemory id content => fallible w fun _ w' =>
      w' = { w with rows := w.rows.map (setContent id content) }
  | .deleteMemory id => fallible w fun _ w' =>
      w' = { w with rows := w.rows.filter fun r => decide (r.id ≠ id) }
  | .ftsSearch _ => fallible w fun rs w' => w' = w ∧ ∀ r ∈ rs, r ∈ w.rows
  | .stats => fallible w fun _ w' => w' = w
  | .beginTransaction => fallible w fun tx w' =>
      tx ∉ w.handles ∧
      w' = { w with handles := tx :: w.handles, opened := Function.update w.opened tx (some []) }
  | .txInsertMemory tx record => fallible w fun id w' =>
      id = record.id ∧ ∃ kept, w.opened tx = some kept ∧ (∀ r ∈ kept, r.id ≠ record.id) ∧
      w' = { w with opened := Function.update w.opened tx (some (kept ++ [record])) }
  | .txCommit tx => fun
      | .ok _, w' => ∃ kept, w.opened tx = some kept ∧
          (∀ r ∈ kept, ∀ r' ∈ w.rows, r'.id ≠ r.id) ∧
          w' = { w with rows := w.rows ++ kept, opened := Function.update w.opened tx none }
      | .error _, w' => w' = { w with opened := Function.update w.opened tx none }
  | .txRollback tx => fun _ w' => w' = { w with opened := Function.update w.opened tx none }

def VectorOp.sem (w : World) : (o : VectorOp) → o.Ret → World → Prop
  | .upsertInWorkspace workspaceId collection text metadata => fallible w fun id w' =>
      id ∉ w.used ∧ w' = { w with
        docs := w.docs ++ [⟨id, workspaceId, collection, text, metadata⟩], used := id :: w.used }
  | .searchTextInWorkspace workspaceId collection _ limit => fallible w fun rs w' =>
      w' = w ∧ rs.length ≤ limit ∧ ∀ r ∈ rs, ∃ d ∈ w.docs,
        d.workspaceId = workspaceId ∧ d.collection = collection ∧ r = d.result r.score
  | .stats => fallible w fun _ w' => w' = w

def HostOp.sem (w : World) : (o : HostOp) → o.Ret → World → Prop
  | .newV4 => fun id w' => id ∉ w.used ∧ w' = { w with used := id :: w.used }
  | .count _ => fun _ w' => w' = w
  | .emit _ => fun _ w' => w' = w
  | .checkKey _ _ => fun _ w' => w' = w
  | .renderMetrics => fun _ w' => w' = w

def TxsOp.sem (w : World) : (o : TxsOp) → o.Ret → World → Prop
  | .insert id pending => fun _ w' =>
      w' = w.setTransaction id (some pending)
  | .push id staged => fun found w' =>
      found = (w.transactions id).isSome ∧
      w' = w.setTransaction id ((w.transactions id).map (·.push staged))
  | .remove id => fun pending w' =>
      pending = w.transactions id ∧ w' = w.setTransaction id none

/-- Only the rows may have changed. -/
def rowsMayChange (w w' : World) : Prop := ∃ rows, w' = { w with rows := rows }

def Op.sem : Prog.Rel Sig World
  | .guard o, w, r, w' => o.sem w r w'
  | .core o, w, r, w' => o.sem w r w'
  | .vector o, w, r, w' => o.sem w r w'
  | .branch _, w, _, w' => rowsMayChange w w'
  | .sync _, w, _, w' => rowsMayChange w w'
  | .reflect _, w, _, w' => w' = w
  | .host o, w, r, w' => o.sem w r w'
  | .txs o, w, r, w' => o.sem w r w'

/-! ## What an operation can do to the world

One lemma for each component; every frame fact below is read off them. -/

section Frames

variable {w w' : World}

theorem fallible_cases {ε α : Type} {ok : α → World → Prop} {r : Except ε α}
    (h : fallible w ok r w') : w' = w ∨ ∃ a, r = .ok a ∧ ok a w' := by
  cases r with
  | ok a => exact .inr ⟨a, rfl, h⟩
  | error e => exact .inl h

theorem GuardOp.sem_cases {o : GuardOp} {r : o.Ret} (h : o.sem w r w') :
    w' = w ∨
    (∃ g : GuardSession, g.id ∉ w.used ∧ (∀ s ∈ w.sessions, s.token ≠ g.token) ∧
      w' = { w with sessions := w.sessions ++ [g], used := g.id :: w.used }) ∨
    ∃ id, w' = { w with revoked := id :: w.revoked } := by
  cases o with
  | validateSession token =>
      obtain h | ⟨g, -, h, -⟩ := fallible_cases h <;> exact .inl h
  | createSession agentId workspaceId role scopes ttlSecs =>
      obtain h | ⟨g, -, -, -, -, -, hid, htok, hw⟩ := fallible_cases h
      · exact .inl h
      · exact .inr (.inl ⟨g, hid, htok, hw⟩)
  | revokeSession id =>
      obtain h | ⟨_, -, h⟩ := fallible_cases h
      · exact .inl h
      · exact .inr (.inr ⟨id, h⟩)
  | countSessions => obtain h | ⟨_, -, h⟩ := fallible_cases h <;> exact .inl h

/-- The core touches its rows and its open transactions. -/
theorem CoreOp.sem_frame {o : CoreOp} {r : o.Ret} (h : o.sem w r w') :
    ∃ rows opened handles,
      w' = { w with rows := rows, opened := opened, handles := handles } := by
  cases o with
  | insertMemory record =>
      obtain rfl | ⟨_, -, -, -, rfl⟩ := fallible_cases h <;> exact ⟨_, _, _, rfl⟩
  | getMemory id => obtain rfl | ⟨_, -, rfl, -⟩ := fallible_cases h <;> exact ⟨_, _, _, rfl⟩
  | listMemories t => obtain rfl | ⟨_, -, rfl, -⟩ := fallible_cases h <;> exact ⟨_, _, _, rfl⟩
  | updateMemory id content =>
      obtain rfl | ⟨_, -, rfl⟩ := fallible_cases h <;> exact ⟨_, _, _, rfl⟩
  | deleteMemory id => obtain rfl | ⟨_, -, rfl⟩ := fallible_cases h <;> exact ⟨_, _, _, rfl⟩
  | ftsSearch query => obtain rfl | ⟨_, -, rfl, -⟩ := fallible_cases h <;> exact ⟨_, _, _, rfl⟩
  | stats => obtain rfl | ⟨_, -, rfl⟩ := fallible_cases h <;> exact ⟨_, _, _, rfl⟩
  | beginTransaction =>
      obtain rfl | ⟨_, -, -, rfl⟩ := fallible_cases h <;> exact ⟨_, _, _, rfl⟩
  | txInsertMemory tx record =>
      obtain rfl | ⟨_, -, -, kept, -, -, rfl⟩ := fallible_cases h <;> exact ⟨_, _, _, rfl⟩
  | txCommit tx =>
      cases r with
      | ok a => obtain ⟨kept, -, -, rfl⟩ := h; exact ⟨_, _, _, rfl⟩
      | error e => subst h; exact ⟨_, _, _, rfl⟩
  | txRollback tx => subst h; exact ⟨_, _, _, rfl⟩

theorem VectorOp.sem_cases {o : VectorOp} {r : o.Ret} (h : o.sem w r w') :
    w' = w ∨ ∃ d : Doc, d.id ∉ w.used ∧
      w' = { w with docs := w.docs ++ [d], used := d.id :: w.used } := by
  cases o with
  | upsertInWorkspace workspaceId collection text metadata =>
      obtain h | ⟨id, -, hid, h⟩ := fallible_cases h
      · exact .inl h
      · exact .inr ⟨⟨id, workspaceId, collection, text, metadata⟩, hid, h⟩
  | searchTextInWorkspace workspaceId collection query limit =>
      obtain h | ⟨_, -, h, -⟩ := fallible_cases h <;> exact .inl h
  | stats => obtain h | ⟨_, -, h⟩ := fallible_cases h <;> exact .inl h

theorem HostOp.sem_cases {o : HostOp} {r : o.Ret} (h : o.sem w r w') :
    w' = w ∨ ∃ id ∉ w.used, w' = { w with used := id :: w.used } := by
  cases o with
  | newV4 => exact .inr ⟨r, h⟩
  | count m => exact .inl h
  | emit event => exact .inl h
  | checkKey limiter key => exact .inl h
  | renderMetrics => exact .inl h

theorem TxsOp.sem_frame {o : TxsOp} {r : o.Ret} (h : o.sem w r w') :
    ∃ transactions, w' = { w with transactions := transactions } := by
  cases o with
  | insert id pending => exact ⟨_, h⟩
  | push id staged => exact ⟨_, h.2⟩
  | remove id => exact ⟨_, h.2⟩

variable {o : Op} {r : o.Ret}

/-- The session table only grows, and no new session takes an old one's token. -/
theorem Op.sem_sessions (h : Op.sem o w r w') : w'.sessions = w.sessions ∨
    ∃ g : GuardSession, (∀ s ∈ w.sessions, s.token ≠ g.token) ∧
      w'.sessions = w.sessions ++ [g] := by
  cases o with
  | guard o =>
      obtain rfl | ⟨g, -, htok, rfl⟩ | ⟨id, rfl⟩ := GuardOp.sem_cases h
      · exact .inl rfl
      · exact .inr ⟨g, htok, rfl⟩
      · exact .inl rfl
  | core o => obtain ⟨_, _, _, rfl⟩ := CoreOp.sem_frame h; exact .inl rfl
  | vector o => obtain rfl | ⟨_, -, rfl⟩ := VectorOp.sem_cases h <;> exact .inl rfl
  | branch o => obtain ⟨_, rfl⟩ := h; exact .inl rfl
  | sync o => obtain ⟨_, rfl⟩ := h; exact .inl rfl
  | reflect o => cases h; exact .inl rfl
  | host o => obtain rfl | ⟨_, -, rfl⟩ := HostOp.sem_cases h <;> exact .inl rfl
  | txs o => obtain ⟨_, rfl⟩ := TxsOp.sem_frame h; exact .inl rfl

/-- No two sessions share a token. -/
def World.TokensDistinct (w : World) : Prop := (w.sessions.map GuardSession.token).Nodup

theorem Op.sem_tokensDistinct (h : Op.sem o w r w') (hw : w.TokensDistinct) :
    w'.TokensDistinct := by
  unfold World.TokensDistinct
  obtain he | ⟨g, htok, he⟩ := Op.sem_sessions h
  · rw [he]; exact hw
  · rw [he, List.map_append, List.nodup_append]
    refine ⟨hw, by simp, ?_⟩
    intro a ha b hb hab
    obtain ⟨s, hs, rfl⟩ := List.mem_map.mp ha
    obtain rfl := List.mem_singleton.mp hb
    exact htok s hs hab

theorem Op.sem_sessions_mono (h : Op.sem o w r w') {g : GuardSession} (hg : g ∈ w.sessions) :
    g ∈ w'.sessions := by
  obtain he | ⟨g', -, he⟩ := Op.sem_sessions h
  · rw [he]; exact hg
  · rw [he]; exact List.mem_append_left _ hg

theorem World.TokensDistinct.eq {g g' : GuardSession} (hw : w.TokensDistinct)
    (hg : g ∈ w.sessions) (hg' : g' ∈ w.sessions) (ht : g.token = g'.token) : g = g' :=
  List.inj_on_of_nodup_map hw hg hg' ht

/-- One operation of anybody. -/
def World.Next (w w' : World) : Prop := ∃ (o : Op) (r : o.Ret), Op.sem o w r w'

/-- Any history of operations. -/
abbrev World.Later : World → World → Prop := Relation.ReflTransGen World.Next

/-- An operation of one party, while the others go on. -/
def Op.shared : Prog.Rel Sig World :=
  fun o w r w' => ∃ w₁, World.Later w w₁ ∧ Op.sem o w₁ r w'

theorem Op.sem_shared (o : Op) (w : World) (r : o.Ret) (w' : World) (h : Op.sem o w r w') :
    Op.shared o w r w' :=
  ⟨w, .refl, h⟩

theorem World.Later.tokensDistinct (h : World.Later w w') (hw : w.TokensDistinct) :
    w'.TokensDistinct := by
  induction h with
  | refl => exact hw
  | tail _ hn ih => obtain ⟨o, r, hs⟩ := hn; exact Op.sem_tokensDistinct hs ih

theorem World.Later.session_mem (h : World.Later w w') {g : GuardSession}
    (hg : g ∈ w.sessions) : g ∈ w'.sessions := by
  induction h with
  | refl => exact hg
  | tail _ hn ih => obtain ⟨o, r, hs⟩ := hn; exact Op.sem_sessions_mono hs ih

end Frames

/-! ## One set of components with this behaviour

Ids are drawn by counting up, the clock stands at the epoch, searches return every
document of the workspace, and nothing fails that can succeed.  The components whose
replies carry no assumption answer that they are offline. -/

namespace World

/-- An id that was not drawn before. -/
def fresh (ids : List Nat) : Nat := ids.foldr max 0 + 1

theorem fresh_notMem (ids : List Nat) : fresh ids ∉ ids := by
  suffices ∀ n ∈ ids, n < fresh ids from fun h => Nat.lt_irrefl _ (this _ h)
  intro n hn
  induction ids with
  | nil => cases hn
  | cons m ids ih =>
      simp only [fresh, List.foldr_cons] at ih ⊢
      rcases List.mem_cons.mp hn with rfl | hn
      · omega
      · have := ih hn; omega

/-- The token the reference guard binds to a session id. -/
def tokenOf (id : Uuid) : String := "token-" ++ toString id

end World

open World

def GuardOp.reference : (o : GuardOp) → World → o.Ret × World
  | .validateSession token, w =>
      match w.sessions.find? fun g => decide (g.token = token ∧ g.id ∉ w.revoked) with
      | some g => (.ok g, w)
      | none => (.error .invalidToken, w)
  | .createSession agentId workspaceId role scopes ttlSecs, w =>
      let id := fresh w.used
      if ∀ s ∈ w.sessions, s.token ≠ tokenOf id then
        let g : GuardSession := ⟨id, agentId, workspaceId, role, scopes, tokenOf id, ttlSecs * 1000⟩
        (.ok g, { w with sessions := w.sessions ++ [g], used := id :: w.used })
      else (.error (.other "token taken"), w)
  | .revokeSession sessionId, w => (.ok (), { w with revoked := sessionId :: w.revoked })
  | .countSessions, w => (.ok w.sessions.length, w)

def CoreOp.reference : (o : CoreOp) → World → o.Ret × World
  | .insertMemory record, w =>
      if ∀ r ∈ w.rows, r.id ≠ record.id then
        (.ok record.id, { w with rows := w.rows ++ [record] })
      else (.error "duplicate id", w)
  | .getMemory id, w =>
      match w.rows.find? fun r => decide (r.id = id) with
      | some r => (.ok r, w)
      | none => (.error "not found", w)
  | .listMemories memoryType, w =>
      (.ok (w.rows.filter fun r => memoryType.all fun t => decide (r.memoryType = t)), w)
  | .updateMemory id content, w =>
      (.ok (), { w with rows := w.rows.map (setContent id content) })
  | .deleteMemory id, w =>
      (.ok (), { w with rows := w.rows.filter fun r => decide (r.id ≠ id) })
  | .ftsSearch _, w => (.ok w.rows, w)
  | .stats, w => (.ok (), w)
  | .beginTransaction, w =>
      let tx := fresh w.handles
      (.ok tx, { w with
        handles := tx :: w.handles, opened := Function.update w.opened tx (some []) })
  | .txInsertMemory tx record, w =>
      match w.opened tx with
      | some kept =>
          if ∀ r ∈ kept, r.id ≠ record.id then
            (.ok record.id,
              { w with opened := Function.update w.opened tx (some (kept ++ [record])) })
          else (.error "duplicate id", w)
      | none => (.error "no transaction", w)
  | .txCommit tx, w =>
      let closed := { w with opened := Function.update w.opened tx none }
      match w.opened tx with
      | some kept =>
          if ∀ r ∈ kept, ∀ r' ∈ w.rows, r'.id ≠ r.id then
            (.ok (), { closed with rows := w.rows ++ kept })
          else (.error "duplicate id", closed)
      | none => (.error "no transaction", closed)
  | .txRollback tx, w => (.ok (), { w with opened := Function.update w.opened tx none })

def VectorOp.reference : (o : VectorOp) → World → o.Ret × World
  | .upsertInWorkspace workspaceId collection text metadata, w =>
      let id := fresh w.used
      (.ok id, { w with
        docs := w.docs ++ [⟨id, workspaceId, collection, text, metadata⟩], used := id :: w.used })
  | .searchTextInWorkspace workspaceId collection _ limit, w =>
      (.ok (((w.docs.filter fun d => decide (d.workspaceId = workspaceId ∧
        d.collection = collection)).map fun d => d.result 0).take limit), w)
  | .stats, w => (.ok (), w)

def BranchOp.offline : (o : BranchOp) → o.Ret
  | .forkTrunk _ | .fork .. | .get _ | .list | .getByName _ | .trunk | .merge .. | .diff .. |
    .discard _ | .archive _ => .error "offline"

def SyncOp.offline : (o : SyncOp) → o.Ret
  | .syncNow | .pushNow | .pullNow | .reconcile => .error "offline"
  | .status => ⟨false, some "offline", .null⟩

def ReflectOp.offline : (o : ReflectOp) → o.Ret
  | .triggerJob .. | .getFacts _ | .listJobs .. | .getJob _ | .getPreferences _ |
    .getContradictions _ | .resolveContradiction .. => .error "offline"

def HostOp.reference : (o : HostOp) → World → o.Ret × World
  | .newV4, w => (fresh w.used, { w with used := fresh w.used :: w.used })
  | .count _, w => ((), w)
  | .emit _, w => ((), w)
  | .checkKey _ _, w => (true, w)
  | .renderMetrics, w => ("", w)

def TxsOp.reference : (o : TxsOp) → World → o.Ret × World
  | .insert id pending, w => ((), w.setTransaction id (some pending))
  | .push id staged, w =>
      ((w.transactions id).isSome,
        w.setTransaction id ((w.transactions id).map (·.push staged)))
  | .remove id, w => (w.transactions id, w.setTransaction id none)

def Op.reference : Prog.Handler Sig World
  | .guard o, w => o.reference w
  | .core o, w => o.reference w
  | .vector o, w => o.reference w
  | .branch o, w => (o.offline, w)
  | .sync o, w => (o.offline, w)
  | .reflect o, w => (o.offline, w)
  | .host o, w => o.reference w
  | .txs o, w => o.reference w

theorem GuardOp.reference_sem (o : GuardOp) (w : World) :
    o.sem w (o.reference w).1 (o.reference w).2 := by
  cases o with
  | validateSession token =>
      simp only [reference]
      split
      next g hg =>
          have hp := List.find?_some hg
          simp only [decide_eq_true_eq] at hp
          exact ⟨rfl, List.mem_of_find?_eq_some hg, hp⟩
      next => rfl
  | createSession agentId workspaceId role scopes ttlSecs =>
      simp only [reference]
      split
      next hfree => exact ⟨rfl, rfl, rfl, rfl, fresh_notMem _, hfree, rfl⟩
      next => rfl
  | revokeSession sessionId => exact rfl
  | countSessions => exact rfl

theorem CoreOp.reference_sem (o : CoreOp) (w : World) :
    o.sem w (o.reference w).1 (o.reference w).2 := by
  cases o with
  | insertMemory record =>
      simp only [reference]
      split
      next hfree => exact ⟨rfl, hfree, rfl⟩
      next => rfl
  | getMemory id =>
      simp only [reference]
      split
      next r hr => exact ⟨rfl, List.mem_of_find?_eq_some hr, by simpa using List.find?_some hr⟩
      next => rfl
  | listMemories memoryType => exact ⟨rfl, fun r hr => (List.mem_filter.mp hr).1⟩
  | updateMemory id content => exact rfl
  | deleteMemory id => exact rfl
  | ftsSearch query => exact ⟨rfl, fun r hr => hr⟩
  | stats => exact rfl
  | beginTransaction => exact ⟨fresh_notMem _, rfl⟩
  | txInsertMemory tx record =>
      simp only [reference]
      split
      next kept hk =>
          split
          next hfree => exact ⟨rfl, kept, hk, hfree, rfl⟩
          next => rfl
      next => rfl
  | txCommit tx =>
      simp only [reference]
      split
      next kept hk =>
          split
          next hfree => exact ⟨kept, hk, hfree, rfl⟩
          next => rfl
      next => rfl
  | txRollback tx => exact rfl

theorem VectorOp.reference_sem (o : VectorOp) (w : World) :
    o.sem w (o.reference w).1 (o.reference w).2 := by
  cases o with
  | upsertInWorkspace workspaceId collection text metadata => exact ⟨fresh_notMem _, rfl⟩
  | searchTextInWorkspace workspaceId collection query limit =>
      refine ⟨rfl, List.length_take_le .., fun r hr => ?_⟩
      obtain ⟨d, hd, rfl⟩ := List.mem_map.mp (List.mem_of_mem_take hr)
      obtain ⟨hm, hp⟩ := List.mem_filter.mp hd
      simp only [decide_eq_true_eq] at hp
      exact ⟨d, hm, hp.1, hp.2, rfl⟩
  | stats => exact rfl

theorem HostOp.reference_sem (o : HostOp) (w : World) :
    o.sem w (o.reference w).1 (o.reference w).2 := by
  cases o with
  | newV4 => exact ⟨fresh_notMem _, rfl⟩
  | count m => exact rfl
  | emit event => exact rfl
  | checkKey limiter key => exact rfl
  | renderMetrics => exact rfl

theorem TxsOp.reference_sem (o : TxsOp) (w : World) :
    o.sem w (o.reference w).1 (o.reference w).2 := by
  cases o with
  | insert id pending => exact rfl
  | push id staged => exact ⟨rfl, rfl⟩
  | remove id => exact ⟨rfl, rfl⟩

/-- The reference components do what is assumed of the real ones. -/
theorem Op.reference_refines : Prog.Handler.Refines Op.reference Op.sem
  | .guard o, w => o.reference_sem w
  | .core o, w => o.reference_sem w
  | .vector o, w => o.reference_sem w
  | .branch _, w => ⟨w.rows, rfl⟩
  | .sync _, w => ⟨w.rows, rfl⟩
  | .reflect _, _ => rfl
  | .host o, w => o.reference_sem w
  | .txs o, w => o.reference_sem w

end ClawDB
