/-
# `Query.Plan` — queries, and the steps they are planned into

The types of `query/types.rs` and the `MemoryPlanner` of `query/planner.rs`.  A plan is a list
of steps; a step is a leaf, or a group of steps.  `leaves` flattens a step in the order in
which the executor comes to its leaves: both kinds of group are run from left to right.

The planner never fails and draws one id for each plan, which is an argument here.
-/
import ClawDB.Types

namespace ClawDB.Planning

open Json (Value)

/-- A high-level query directed at one or more ClawDB subsystems. -/
inductive Query where
  | remember (agentId : Uuid) (content memoryType : String) (metadata : Value)
      (tags : List String)
  | search (agentId : Uuid) (text : String) (semantic : Bool) (topK : Nat)
      (filter : Option Value) (alpha : F32)
  | recall (agentId : Uuid) (memoryIds : List Uuid)
  | branch (agentId : Uuid) (parent name : String) (description : Option String)
  | merge (agentId : Uuid) (source target strategy : String)
  | diff (agentId : Uuid) (branchA branchB : String)
  | sync (agentId : Uuid)
  | reflect (agentId : Uuid) (jobType : String) (dryRun : Bool)
  | raw (sql : String) (params : List Value) (entityType : String)

namespace Query

/-- The primary subsystem component this query targets. -/
def targetComponent : Query → String
  | .remember .. | .recall .. => "core"
  | .search _ _ semantic _ _ _ => if semantic then "vector" else "core"
  | .branch .. | .merge .. | .diff .. => "branch"
  | .sync .. => "sync"
  | .reflect .. => "reflect"
  | .raw .. => "core"

/-- The agent of this query, or a nil UUID for raw queries. -/
def agentId : Query → Uuid
  | .remember agentId .. | .search agentId .. | .recall agentId .. | .branch agentId ..
  | .merge agentId .. | .diff agentId .. | .sync agentId .. | .reflect agentId .. => agentId
  | .raw .. => 0

end Query

/-- A single step within a `QueryPlan`. -/
inductive QueryStep where
  | coreRead (sql : String)
  | coreWrite (sql : String)
  | vectorSearch (collection : String) (topK : Nat)
  | vectorUpsert (collection : String)
  | syncPush
  | syncPull
  | branchOp (branchName : String)
  | reflectJob (jobType : String)
  | guardCheck (action : String)
  | parallel (steps : List QueryStep)
  | sequential (steps : List QueryStep)

/-- An ordered, annotated execution plan. -/
structure QueryPlan where
  id : Uuid
  query : Query
  steps : List QueryStep
  estimatedMs : Option Nat
  guardApplied : Bool

/-! ## Leaves -/

mutual

/-- The leaves of a step, in the order in which they are run. -/
def QueryStep.leaves : QueryStep → List QueryStep
  | .parallel steps => leafSequence steps
  | .sequential steps => leafSequence steps
  | step => [step]

def leafSequence : List QueryStep → List QueryStep
  | [] => []
  | step :: steps => step.leaves ++ leafSequence steps

end

@[simp] theorem leafSequence_nil : leafSequence [] = [] := rfl

@[simp] theorem leafSequence_cons (step : QueryStep) (steps : List QueryStep) :
    leafSequence (step :: steps) = step.leaves ++ leafSequence steps := rfl

@[simp] theorem leafSequence_append (steps steps' : List QueryStep) :
    leafSequence (steps ++ steps') = leafSequence steps ++ leafSequence steps' := by
  induction steps with
  | nil => rfl
  | cons step steps ih => rw [List.cons_append, leafSequence_cons, ih, leafSequence_cons,
      List.append_assoc]

/-- A group runs as its members do, one after the other. -/
@[simp] theorem leaves_parallel (steps : List QueryStep) :
    (QueryStep.parallel steps).leaves = leafSequence steps := rfl

@[simp] theorem leaves_sequential (steps : List QueryStep) :
    (QueryStep.sequential steps).leaves = leafSequence steps := rfl

@[simp] theorem leaves_coreRead (sql : String) :
    (QueryStep.coreRead sql).leaves = [.coreRead sql] := rfl

@[simp] theorem leaves_guardCheck (action : String) :
    (QueryStep.guardCheck action).leaves = [.guardCheck action] := rfl

/-! ## `MemoryPlanner` -/

namespace MemoryPlanner

def planRemember : List QueryStep :=
  [.guardCheck "memory.write",
    .parallel [.coreWrite "INSERT INTO memory_records ...", .vectorUpsert "memories"]]

/-- `top_k * 2` wraps around in `usize`. -/
def planSemanticSearch (topK : Nat) : List QueryStep :=
  [.guardCheck "memory.read",
    .vectorSearch "memories" (topK * 2 % UInt64.size),
    .coreRead "SELECT * FROM memory_records WHERE id IN (...)",
    .guardCheck "memory.read.row_level"]

def planKeywordSearch : List QueryStep :=
  [.guardCheck "memory.read",
    .coreRead "SELECT * FROM memory_records WHERE content LIKE ?"]

def planRecall : List QueryStep :=
  [.guardCheck "memory.read",
    .coreRead "SELECT * FROM memory_records WHERE id IN (...)"]

def planBranchFork : List QueryStep :=
  [.guardCheck "branch.create",
    .coreRead "PRAGMA wal_checkpoint(TRUNCATE)",
    .branchOp ""]

def planMerge (target : String) : List QueryStep :=
  [.guardCheck "branch.merge",
    .branchOp (target ++ ".preview"),
    .guardCheck "branch.merge.conflict_resources",
    .branchOp target]

def planDiff : List QueryStep :=
  [.guardCheck "branch.diff", .branchOp "diff"]

def planSync : List QueryStep :=
  [.guardCheck "sync", .syncPush, .syncPull]

def planReflect (jobType : String) : List QueryStep :=
  [.guardCheck "reflect", .reflectJob jobType]

def planSteps : Query → List QueryStep × Option Nat
  | .remember .. => (planRemember, some 10)
  | .search _ _ semantic topK _ _ =>
      if semantic then (planSemanticSearch topK, some 30) else (planKeywordSearch, some 15)
  | .recall .. => (planRecall, some 5)
  | .branch .. => (planBranchFork, some 100)
  | .merge _ _ target _ => (planMerge target, some 100)
  | .diff .. => (planDiff, some 20)
  | .sync .. => (planSync, none)
  | .reflect _ jobType _ => (planReflect jobType, none)
  | .raw sql _ _ => ([.guardCheck "raw_sql", .coreRead sql], some 10)

/-- Plans the execution of `query`. -/
def plan (id : Uuid) (query : Query) : QueryPlan where
  id := id
  query := query
  steps := (planSteps query).1
  estimatedMs := (planSteps query).2
  guardApplied := true

end MemoryPlanner

end ClawDB.Planning
