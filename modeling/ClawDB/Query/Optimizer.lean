/-
# `Query.Optimizer` — two passes over the steps of a plan

`query/optimizer.rs`.  Both passes edit the vector of top-level steps in place while an index
walks along it; `mergeFrom` and `promoteFrom` are those loops.  What has been walked past is
never looked at again, so a loop at position `pre.length` of `pre ++ rest` leaves `pre` alone
and does to `rest` what a recursion on `rest` does: `merged` and `promoted`.

`joinRuns` is what the first pass is for, said without an index: every maximal run of reads
becomes one.  The second pass only brackets steps, and brackets do not show in a leaf sequence.
-/
import ClawDB.Query.Plan
import Mathlib.Data.List.Chain

namespace ClawDB.Planning

namespace QueryOptimizer

/-! ## The passes -/

def isIndependent : QueryStep → Bool
  | .vectorSearch .. | .vectorUpsert _ | .syncPush | .syncPull => true
  | _ => false

theorem length_join {steps : List QueryStep} {i : Nat} (h : i + 1 < steps.length)
    (step : QueryStep) : ((steps.set i step).eraseIdx (i + 1)).length = steps.length - 1 := by
  rw [List.length_eraseIdx_of_lt (by rw [List.length_set]; exact h), List.length_set]

theorem length_bracket {steps : List QueryStep} {i : Nat} (h : i + 1 < steps.length)
    (step : QueryStep) :
    (((steps.eraseIdx i).eraseIdx i).insertIdx i step).length = steps.length - 1 := by
  have h₁ : (steps.eraseIdx i).length = steps.length - 1 :=
    List.length_eraseIdx_of_lt (by omega)
  have h₂ : ((steps.eraseIdx i).eraseIdx i).length = steps.length - 2 := by
    rw [List.length_eraseIdx_of_lt (by omega), h₁]
    rfl
  rw [List.length_insertIdx_of_le_length (by omega), h₂]
  omega

/-- The loop of `merge_adjacent_core_reads`, at index `i`. -/
def mergeFrom (steps : List QueryStep) (i : Nat) : List QueryStep :=
  if h : i + 1 < steps.length then
    match steps[i], steps[i + 1] with
    | .coreRead a, .coreRead b =>
        mergeFrom ((steps.set i (.coreRead (a ++ "; " ++ b))).eraseIdx (i + 1)) i
    | _, _ => mergeFrom steps (i + 1)
  else steps
termination_by steps.length - i
decreasing_by
  · rw [length_join h]
    omega
  · omega

/-- The loop of `promote_parallel`, at index `i`. -/
def promoteFrom (steps : List QueryStep) (i : Nat) : List QueryStep :=
  if h : i + 1 < steps.length then
    if isIndependent steps[i] && isIndependent steps[i + 1] then
      promoteFrom (((steps.eraseIdx i).eraseIdx i).insertIdx i
        (.parallel [steps[i], steps[i + 1]])) (i + 1)
    else promoteFrom steps (i + 1)
  else steps
termination_by steps.length - i
decreasing_by
  · rw [length_bracket h]
    omega
  · omega

def mergeAdjacentCoreReads (steps : List QueryStep) : List QueryStep := mergeFrom steps 0

def promoteParallel (steps : List QueryStep) : List QueryStep := promoteFrom steps 0

/-- Applies all optimisation passes. -/
def optimise (plan : QueryPlan) : QueryPlan :=
  { plan with steps := promoteParallel (mergeAdjacentCoreReads plan.steps) }

/-! ## The loops as recursions -/

def merged : List QueryStep → List QueryStep
  | .coreRead a :: .coreRead b :: rest => merged (.coreRead (a ++ "; " ++ b) :: rest)
  | step :: rest => step :: merged rest
  | [] => []
termination_by steps => steps.length

def promoted : List QueryStep → List QueryStep
  | a :: b :: rest =>
      if isIndependent a && isIndependent b then .parallel [a, b] :: promoted rest
      else a :: promoted (b :: rest)
  | steps => steps

section Loops

variable {pre rest : List QueryStep} {x y : QueryStep}

theorem getElem_first (h : pre.length < (pre ++ x :: rest).length) :
    (pre ++ x :: rest)[pre.length] = x := by
  simp

theorem getElem_second (h : pre.length + 1 < (pre ++ x :: y :: rest).length) :
    (pre ++ x :: y :: rest)[pre.length + 1] = y := by
  simp [List.getElem_append_right]

/-- Two steps are left at the position of the index. -/
theorem two_left : pre.length + 1 < (pre ++ x :: y :: rest).length := by
  simp

theorem not_two_left (h : rest.length ≤ 1) : ¬pre.length + 1 < (pre ++ rest).length := by
  rw [List.length_append]
  omega

theorem insertIdx_first : (pre ++ rest).insertIdx pre.length x = pre ++ x :: rest := by
  induction pre with
  | nil => rfl
  | cons y pre ih => exact congrArg (y :: ·) ih

/-- The index moves past a step. -/
theorem moved_past (f : List QueryStep → Nat → List QueryStep) {rest' : List QueryStep}
    (h : f ((pre ++ [x]) ++ rest) (pre ++ [x]).length = (pre ++ [x]) ++ rest') :
    f (pre ++ x :: rest) (pre.length + 1) = pre ++ x :: rest' := by
  simpa using h

theorem mergeFrom_read {a b : String} :
    mergeFrom (pre ++ .coreRead a :: .coreRead b :: rest) pre.length =
      mergeFrom (pre ++ .coreRead (a ++ "; " ++ b) :: rest) pre.length := by
  rw [mergeFrom, dif_pos two_left]
  simp only [getElem_first, getElem_second]
  congr 1
  rw [List.set_append_right _ _ (Nat.le_refl _), Nat.sub_self,
    List.eraseIdx_append_of_length_le (by omega)]
  simp

theorem mergeFrom_other (h : ∀ a b, x = .coreRead a → y ≠ .coreRead b) :
    mergeFrom (pre ++ x :: y :: rest) pre.length =
      mergeFrom (pre ++ x :: y :: rest) (pre.length + 1) := by
  conv => lhs; rw [mergeFrom, dif_pos two_left]
  simp only [getElem_first, getElem_second]

theorem mergeFrom_last (h : rest.length ≤ 1) :
    mergeFrom (pre ++ rest) pre.length = pre ++ rest := by
  rw [mergeFrom, dif_neg (not_two_left h)]

theorem promoteFrom_pair (h : (isIndependent x && isIndependent y) = true) :
    promoteFrom (pre ++ x :: y :: rest) pre.length =
      promoteFrom (pre ++ .parallel [x, y] :: rest) (pre.length + 1) := by
  rw [promoteFrom, dif_pos two_left]
  simp only [getElem_first, getElem_second]
  rw [if_pos h]
  congr 1
  rw [List.eraseIdx_append_of_length_le (Nat.le_refl _), Nat.sub_self,
    List.eraseIdx_cons_zero, List.eraseIdx_append_of_length_le (Nat.le_refl _), Nat.sub_self,
    List.eraseIdx_cons_zero]
  exact insertIdx_first

theorem promoteFrom_other (h : ¬(isIndependent x && isIndependent y) = true) :
    promoteFrom (pre ++ x :: y :: rest) pre.length =
      promoteFrom (pre ++ x :: y :: rest) (pre.length + 1) := by
  conv => lhs; rw [promoteFrom, dif_pos two_left]
  simp only [getElem_first, getElem_second]
  rw [if_neg h]

theorem promoteFrom_last (h : rest.length ≤ 1) :
    promoteFrom (pre ++ rest) pre.length = pre ++ rest := by
  rw [promoteFrom, dif_neg (not_two_left h)]

/-- The loop leaves what it has walked past alone. -/
theorem mergeFrom_eq (rest pre : List QueryStep) :
    mergeFrom (pre ++ rest) pre.length = pre ++ merged rest := by
  fun_induction merged rest generalizing pre with
  | case1 a b rest ih => rw [mergeFrom_read, ih]
  | case2 step rest hother ih =>
      cases rest with
      | nil => rw [mergeFrom_last (Nat.le_refl _), merged]
      | cons y rest =>
          have hpair : ∀ a b, step = .coreRead a → y ≠ .coreRead b := by
            rintro a b rfl rfl
            exact hother a b rest rfl rfl
          rw [mergeFrom_other hpair]
          exact moved_past mergeFrom (ih _)
  | case3 => exact mergeFrom_last (Nat.zero_le 1)

theorem promoteFrom_eq (rest pre : List QueryStep) :
    promoteFrom (pre ++ rest) pre.length = pre ++ promoted rest := by
  fun_induction promoted rest generalizing pre with
  | case1 a b rest h ih =>
      rw [promoteFrom_pair h]
      exact moved_past promoteFrom (ih _)
  | case2 a b rest h ih =>
      rw [promoteFrom_other h]
      exact moved_past promoteFrom (ih _)
  | case3 steps hshort =>
      refine promoteFrom_last ?_
      match steps, hshort with
      | [], _ => exact Nat.zero_le 1
      | [_], _ => exact Nat.le_refl 1
      | a :: b :: rest, h => exact absurd rfl (h a b rest)

theorem mergeAdjacentCoreReads_eq (steps : List QueryStep) :
    mergeAdjacentCoreReads steps = merged steps :=
  mergeFrom_eq steps []

theorem promoteParallel_eq (steps : List QueryStep) :
    promoteParallel steps = promoted steps :=
  promoteFrom_eq steps []

end Loops

/-! ## What the first pass is for -/

/-- The texts of the reads a list begins with. -/
def readRun : List QueryStep → List String
  | .coreRead sql :: rest => sql :: readRun rest
  | _ => []

/-- What follows them. -/
def afterRun : List QueryStep → List QueryStep
  | .coreRead _ :: rest => afterRun rest
  | steps => steps

theorem length_afterRun (steps : List QueryStep) : (afterRun steps).length ≤ steps.length := by
  fun_induction afterRun steps with
  | case1 sql rest ih =>
      rw [List.length_cons]
      omega
  | case2 => exact Nat.le_refl _

/-- Each maximal run of adjacent reads becomes one read of their texts, joined. -/
def joinRuns : List QueryStep → List QueryStep
  | .coreRead sql :: rest =>
      .coreRead ("; ".intercalate (sql :: readRun rest)) :: joinRuns (afterRun rest)
  | step :: rest => step :: joinRuns rest
  | [] => []
termination_by steps => steps.length
decreasing_by
  · have := length_afterRun rest
    rw [List.length_cons]
    omega
  · simp

def isRead : QueryStep → Bool
  | .coreRead _ => true
  | _ => false

theorem intercalate_join (sep a b : String) (rest : List String) :
    sep.intercalate ((a ++ sep ++ b) :: rest) = sep.intercalate (a :: b :: rest) := rfl

theorem merged_keep {step : QueryStep} {rest : List QueryStep}
    (h : ∀ a b tail, step = .coreRead a → rest ≠ .coreRead b :: tail) :
    merged (step :: rest) = step :: merged rest := by
  rw [merged]
  exact fun a b tail hstep hrest => h a b tail hstep hrest

/-- A run of reads is joined from the left, one after the other. -/
theorem merged_run (rest : List QueryStep) (sql : String) :
    merged (.coreRead sql :: rest) =
      .coreRead ("; ".intercalate (sql :: readRun rest)) :: merged (afterRun rest) := by
  induction rest generalizing sql with
  | nil => exact merged_keep (by simp)
  | cons step rest ih =>
      cases step with
      | coreRead sql' =>
          rw [merged, ih, intercalate_join]
          rfl
      | _ => exact merged_keep (by simp)

theorem merged_eq (steps : List QueryStep) : merged steps = joinRuns steps := by
  fun_induction joinRuns steps with
  | case1 sql rest ih => rw [merged_run, ih]
  | case2 step rest hother ih =>
      rw [merged_keep, ih]
      exact fun a _ _ hstep => absurd hstep (hother a)
  | case3 => rw [merged]

/-! ## What the second pass leaves -/

/-- Brackets do not show. -/
theorem leafSequence_promoted (steps : List QueryStep) :
    leafSequence (promoted steps) = leafSequence steps := by
  fun_induction promoted steps with
  | case1 a b rest h ih => simp [ih]
  | case2 a b rest h ih => rw [leafSequence_cons, ih]; rfl
  | case3 => rfl

/-! ## A second time

Neither pass finds anything to do where two adjacent steps never both concern it; that is what
each pass leaves, and the second pass does not bring two reads together. -/

/-- Of two adjacent steps, at most one is of the kind. -/
def Apart (kind : QueryStep → Bool) : List QueryStep → Prop
  | a :: b :: rest => ¬(kind a = true ∧ kind b = true) ∧ Apart kind (b :: rest)
  | _ => True

section Twice

variable {kind : QueryStep → Bool} {step : QueryStep} {steps : List QueryStep}

theorem Apart.tail (h : Apart kind (step :: steps)) : Apart kind steps := by
  cases steps with
  | nil => trivial
  | cons b rest => exact h.2

/-- A step may stand in front if it is not of the kind, or what follows does not begin so. -/
theorem Apart.cons (h : Apart kind steps)
    (hfirst : kind step = true → ∀ b ∈ steps.head?, kind b = false) :
    Apart kind (step :: steps) := by
  cases steps with
  | nil => trivial
  | cons b rest =>
      refine ⟨fun hboth => ?_, h⟩
      have := hfirst hboth.1 b rfl
      rw [hboth.2] at this
      cases this

theorem merged_of_apart (h : Apart isRead steps) : merged steps = steps := by
  fun_induction merged steps with
  | case1 a b rest ih => exact absurd ⟨rfl, rfl⟩ h.1
  | case2 step rest hother ih => rw [ih h.tail]
  | case3 => rfl

theorem promoted_of_apart (h : Apart isIndependent steps) : promoted steps = steps := by
  fun_induction promoted steps with
  | case1 a b rest hboth ih => exact absurd (Bool.and_eq_true_iff.mp hboth) h.1
  | case2 a b rest hboth ih => rw [ih h.tail]
  | case3 => rfl

theorem head_afterRun (steps : List QueryStep) :
    ∀ b ∈ (afterRun steps).head?, isRead b = false := by
  fun_induction afterRun steps with
  | case1 sql rest ih => exact ih
  | case2 steps hother =>
      intro b hb
      cases steps with
      | nil => cases hb
      | cons step rest =>
          obtain rfl := Option.some.inj hb
          cases step with
          | coreRead sql => exact absurd rfl (hother sql rest)
          | _ => rfl

theorem head_joinRuns (h : ∀ b ∈ steps.head?, isRead b = false) :
    ∀ b ∈ (joinRuns steps).head?, isRead b = false := by
  cases steps with
  | nil =>
      intro b hb
      rw [joinRuns] at hb
      cases hb
  | cons step rest =>
      cases step with
      | coreRead sql => exact nomatch h _ rfl
      | _ =>
          rw [joinRuns]
          · exact h
          · exact fun sql hsql => nomatch hsql

theorem apart_joinRuns (steps : List QueryStep) : Apart isRead (joinRuns steps) := by
  fun_induction joinRuns steps with
  | case1 sql rest ih => exact ih.cons fun _ => head_joinRuns (head_afterRun rest)
  | case2 step rest hother ih =>
      refine ih.cons fun hread => ?_
      cases step with
      | coreRead sql => exact absurd rfl (hother sql)
      | _ => cases hread
  | case3 => trivial

theorem head_promoted (b : QueryStep) (rest : List QueryStep) :
    ∀ c ∈ (promoted (b :: rest)).head?, c = b ∨ ∃ l, c = .parallel l := by
  intro c hc
  cases rest with
  | nil => exact .inl (Option.some.inj hc).symm
  | cons d rest =>
      rw [promoted] at hc
      split at hc
      · exact .inr ⟨_, (Option.some.inj hc).symm⟩
      · exact .inl (Option.some.inj hc).symm

/-- A bracket separates. -/
theorem apart_promoted (hbracket : ∀ l, kind (.parallel l) = false) (h : Apart kind steps) :
    Apart kind (promoted steps) := by
  fun_induction promoted steps with
  | case1 a b rest hboth ih =>
      refine (ih h.tail.tail).cons fun hp => ?_
      rw [hbracket] at hp
      cases hp
  | case2 a b rest hboth ih =>
      refine (ih h.tail).cons fun ha c hc => ?_
      rcases head_promoted b rest c hc with rfl | ⟨l, rfl⟩
      · exact Bool.eq_false_iff.mpr fun hb => h.1 ⟨ha, hb⟩
      · exact hbracket l
  | case3 => exact h

theorem apart_independent (steps : List QueryStep) : Apart isIndependent (promoted steps) := by
  fun_induction promoted steps with
  | case1 a b rest hboth ih => exact ih.cons fun hp => nomatch hp
  | case2 a b rest hboth ih =>
      refine ih.cons fun ha c hc => ?_
      rcases head_promoted b rest c hc with rfl | ⟨l, rfl⟩
      · exact Bool.eq_false_iff.mpr fun hb => hboth (Bool.and_eq_true_iff.mpr ⟨ha, hb⟩)
      · rfl
  | case3 steps hshort =>
      match steps, hshort with
      | [], _ => trivial
      | [_], _ => trivial
      | a :: b :: rest, h => exact absurd rfl (h a b rest)

end Twice

theorem optimise_of_apart {plan : QueryPlan} (hreads : Apart isRead plan.steps)
    (hindependent : Apart isIndependent plan.steps) : optimise plan = plan := by
  unfold optimise
  rw [mergeAdjacentCoreReads_eq, merged_of_apart hreads, promoteParallel_eq,
    promoted_of_apart hindependent]

theorem optimise_steps (plan : QueryPlan) :
    (optimise plan).steps = promoted (joinRuns plan.steps) := by
  show promoteParallel (mergeAdjacentCoreReads plan.steps) = _
  rw [promoteParallel_eq, mergeAdjacentCoreReads_eq, merged_eq]

theorem leafSequence_optimise (plan : QueryPlan) :
    leafSequence (optimise plan).steps = leafSequence (joinRuns plan.steps) := by
  rw [optimise_steps, leafSequence_promoted]

theorem optimise_twice (plan : QueryPlan) : optimise (optimise plan) = optimise plan := by
  have hreads : Apart isRead (promoted (joinRuns plan.steps)) :=
    apart_promoted (fun _ => rfl) (apart_joinRuns plan.steps)
  apply optimise_of_apart <;> rw [optimise_steps]
  · exact hreads
  · exact apart_independent _

/-! ## Guard checks -/

theorem readRun_guard (action : String) (before after : List QueryStep) :
    readRun (before ++ .guardCheck action :: after) = readRun before := by
  fun_induction readRun before with
  | case1 sql rest ih => exact congrArg (sql :: ·) ih
  | case2 steps hother =>
      cases steps with
      | nil => rfl
      | cons step rest =>
          cases step with
          | coreRead sql => exact absurd rfl (hother sql rest)
          | _ => rfl

theorem afterRun_guard (action : String) (before after : List QueryStep) :
    afterRun (before ++ .guardCheck action :: after) =
      afterRun before ++ .guardCheck action :: after := by
  fun_induction afterRun before with
  | case1 sql rest ih => exact ih
  | case2 steps hother =>
      cases steps with
      | nil => rfl
      | cons step rest =>
          cases step with
          | coreRead sql => exact absurd rfl (hother sql rest)
          | _ => rfl

/-- A guard check is a border: what stands before it and what stands after it are joined each
for itself. -/
theorem joinRuns_guard (action : String) (before after : List QueryStep) :
    joinRuns (before ++ .guardCheck action :: after) =
      joinRuns before ++ .guardCheck action :: joinRuns after := by
  fun_induction joinRuns before with
  | case1 sql rest ih =>
      rw [List.cons_append, joinRuns, readRun_guard, afterRun_guard, ih]
      rfl
  | case2 step rest hother ih =>
      rw [List.cons_append, joinRuns, ih]
      · rfl
      · exact fun sql hsql => hother sql hsql
  | case3 =>
      rw [List.nil_append, joinRuns]
      · rfl
      · exact fun sql hsql => nomatch hsql

theorem others_afterRun (steps : List QueryStep) :
    (leafSequence (afterRun steps)).filter (fun leaf => !isRead leaf) =
      (leafSequence steps).filter fun leaf => !isRead leaf := by
  fun_induction afterRun steps with
  | case1 sql rest ih => rw [ih]; rfl
  | case2 => rfl

/-- Leaves other than reads stay as they are, where they are. -/
theorem others_joinRuns (steps : List QueryStep) :
    (leafSequence (joinRuns steps)).filter (fun leaf => !isRead leaf) =
      (leafSequence steps).filter fun leaf => !isRead leaf := by
  fun_induction joinRuns steps with
  | case1 sql rest ih =>
      show (leafSequence (joinRuns (afterRun rest))).filter _ = (leafSequence rest).filter _
      rw [ih, others_afterRun]
  | case2 step rest hother ih =>
      rw [leafSequence_cons, leafSequence_cons, List.filter_append, ih, List.filter_append]
  | case3 => rfl

end QueryOptimizer

open QueryOptimizer

/-- Optimising joins the maximal runs of adjacent top-level reads and changes the leaf sequence
in no other way: no leaf passes a guard check, none is lost or doubled.  Doing it again changes
nothing. -/
theorem optimise_keeps_leaves (plan : QueryPlan) :
    leafSequence (optimise plan).steps = leafSequence (joinRuns plan.steps) ∧
      (leafSequence (optimise plan).steps).filter (fun leaf => !isRead leaf) =
        (leafSequence plan.steps).filter (fun leaf => !isRead leaf) ∧
      (∀ before action after,
        leafSequence (optimise { plan with steps := before ++ .guardCheck action :: after }).steps =
          leafSequence (optimise { plan with steps := before }).steps ++ .guardCheck action ::
            leafSequence (optimise { plan with steps := after }).steps) ∧
      optimise (optimise plan) = optimise plan := by
  refine ⟨leafSequence_optimise plan, ?_, ?_, optimise_twice plan⟩
  · rw [leafSequence_optimise, others_joinRuns]
  · intro before action after
    rw [leafSequence_optimise, leafSequence_optimise, leafSequence_optimise, joinRuns_guard,
      leafSequence_append, leafSequence_cons, leaves_guardCheck]
    rfl

end ClawDB.Planning
