/-
# `Lib.Retry` — trying again, a bounded number of times

`retry` makes an attempt, and makes it again after each of a list of waits as long as it ends in
an error of the kind that is worth it.  The number of waits bounds the number of attempts.

`exec_retry` is the rule for it: an invariant that an attempt and the wait after it keep holds
when the last attempt begins, and the whole ends as that attempt does.

`retryWith` is the same for attempts that share a local variable, which a failed attempt may
have changed.  `Tried` is how such a retry went, attempt by attempt, with the events of each.
-/
import ClawDB.Lib.Trace

namespace Effect

namespace Prog

variable {F : Sig} {α ε σ : Type}

section

variable (attempt : Prog F (Except ε α)) (wait : Nat → Prog F Unit) (retryable : ε → Bool)

/-- What comes after an attempt: its result, or a wait and the rest. -/
def afterAttempt (again : Prog F (Except ε α)) (pause : Prog F Unit) :
    Except ε α → Prog F (Except ε α)
  | .ok a => .pure (.ok a)
  | .error e => if retryable e then pause >>= fun _ => again else .pure (.error e)

/-- An attempt, and one more after each wait. -/
def retry : List Nat → Prog F (Except ε α)
  | [] => attempt
  | delay :: delays => attempt >>= afterAttempt retryable (retry delays) (wait delay)

theorem afterAttempt_retry {retryable : ε → Bool} {again : Prog F (Except ε α)}
    {pause : Prog F Unit} {e : ε} (h : retryable e = true) :
    afterAttempt retryable again pause (.error e) = pause >>= fun _ => again :=
  if_pos h

theorem afterAttempt_stop {retryable : ε → Bool} {again : Prog F (Except ε α)}
    {pause : Prog F Unit} {e : ε} (h : ¬ retryable e = true) :
    afterAttempt retryable again pause (.error e) = .pure (.error e) :=
  if_neg h

end

variable {R : Rel F σ} {attempt : Prog F (Except ε α)} {wait : Nat → Prog F Unit}
  {retryable : ε → Bool} {delays : List Nat} {delay : Nat} {s s' s₁ s₂ : σ} {r : Except ε α}
  {e : ε}

/-- A result, and an error of another kind, are final. -/
theorem exec_retry_done (h : Exec R attempt s r s')
    (hfinal : ∀ e, r = .error e → retryable e = false) :
    Exec R (retry attempt wait retryable delays) s r s' := by
  cases delays with
  | nil => exact h
  | cons delay delays =>
      refine exec_bind.mpr ⟨r, s', h, ?_⟩
      cases r with
      | ok a => exact .pure ..
      | error e =>
          rw [afterAttempt_stop (Bool.eq_false_iff.mp (hfinal e rfl))]
          exact .pure ..

theorem exec_retry_again (h : Exec R attempt s (.error e) s₁) (hretry : retryable e = true)
    (hwait : Exec R (wait delay) s₁ () s₂)
    (hrest : Exec R (retry attempt wait retryable delays) s₂ r s') :
    Exec R (retry attempt wait retryable (delay :: delays)) s r s' := by
  refine exec_bind.mpr ⟨_, s₁, h, ?_⟩
  rw [afterAttempt_retry hretry]
  exact exec_bind.mpr ⟨(), s₂, hwait, hrest⟩

/-- An invariant of the attempts made so far holds before the last one. -/
theorem exec_retry {I : Nat → σ → Prop}
    (hstep : ∀ n s s₁ s₂ e delay, I n s → Exec R attempt s (.error e) s₁ → retryable e = true →
      Exec R (wait delay) s₁ () s₂ → I (n + 1) s₂)
    {n : Nat} (hI : I n s) (h : Exec R (retry attempt wait retryable delays) s r s') :
    ∃ m ≤ n + delays.length, ∃ s₁, I m s₁ ∧ Exec R attempt s₁ r s' := by
  induction delays generalizing n s with
  | nil => exact ⟨n, Nat.le_refl n, s, hI, h⟩
  | cons delay delays ih =>
      obtain ⟨r₁, s₁, hattempt, hrest⟩ := exec_bind.mp h
      cases r₁ with
      | ok a =>
          obtain ⟨rfl, rfl⟩ := exec_pure.mp hrest
          exact ⟨n, Nat.le_add_right .., s, hI, hattempt⟩
      | error e =>
          by_cases hretry : retryable e = true
          · rw [afterAttempt_retry hretry] at hrest
            obtain ⟨_, s₂, hwait, hrest⟩ := exec_bind.mp hrest
            obtain ⟨m, hm, hlast⟩ := ih (hstep n s s₁ s₂ e delay hI hattempt hretry hwait) hrest
            refine ⟨m, ?_, hlast⟩
            rw [List.length_cons]
            omega
          · rw [afterAttempt_stop hretry] at hrest
            obtain ⟨rfl, rfl⟩ := exec_pure.mp hrest
            exact ⟨n, Nat.le_add_right .., s, hI, hattempt⟩

/-- The whole ends as an attempt does. -/
theorem exec_retry_last (h : Exec R (retry attempt wait retryable delays) s r s') :
    ∃ s₁, Exec R attempt s₁ r s' := by
  obtain ⟨_, -, s₁, -, hlast⟩ :=
    exec_retry (I := fun _ _ => True) (fun _ _ _ _ _ _ _ _ _ _ => trivial) (n := 0) trivial h
  exact ⟨s₁, hlast⟩

/-! ## Attempts that share a local variable -/

section Local

variable {L : Type} (attempt : L → Prog F (Except ε α × L)) (wait : Nat → Prog F Unit)
  (retryable : ε → Bool)

def afterTry (again : L → Prog F (Except ε α × L)) (pause : Prog F Unit) :
    Except ε α × L → Prog F (Except ε α × L)
  | (.ok a, l) => .pure (.ok a, l)
  | (.error e, l) => if retryable e then pause >>= fun _ => again l else .pure (.error e, l)

def retryWith : List Nat → L → Prog F (Except ε α × L)
  | [], l => attempt l
  | delay :: delays, l => attempt l >>= afterTry retryable (retryWith delays) (wait delay)

variable (R) in
/-- How a retry went: all its events, those of each attempt that was made again, and those of
the last attempt. -/
inductive Tried : List Nat → L → σ → List (Exchange F) → List (List (Exchange F)) →
    List (Exchange F) → Except ε α × L → σ → Prop where
  | last {delays l s s' evs r} : ExecTrace R (attempt l) s evs r s' →
      Tried delays l s evs [] evs r s'
  | again {delay delays l l₁ s s₁ s₂ s' evs pause rest failed last e r} :
      ExecTrace R (attempt l) s evs (.error e, l₁) s₁ → retryable e = true →
      ExecTrace R (wait delay) s₁ pause () s₂ →
      Tried delays l₁ s₂ rest failed last r s' →
      Tried (delay :: delays) l s (evs ++ pause ++ rest) (evs :: failed) last r s'

variable {attempt wait retryable} {l : L} {evs : List (Exchange F)} {out : Except ε α × L}

theorem traced_retryWith
    (h : ExecTrace R (retryWith attempt wait retryable delays l) s evs out s') :
    ∃ failed last, Tried R attempt wait retryable delays l s evs failed last out s' := by
  induction delays generalizing l s evs with
  | nil => exact ⟨[], evs, .last h⟩
  | cons delay delays ih =>
      obtain ⟨first, rest, ⟨r₁, l₁⟩, s₁, rfl, hattempt, hrest⟩ := traced_bind.mp h
      cases r₁ with
      | ok a =>
          obtain ⟨rfl, rfl, rfl⟩ := traced_pure.mp hrest
          rw [List.append_nil]
          exact ⟨[], first, .last hattempt⟩
      | error e =>
          simp only [afterTry] at hrest
          split at hrest
          next hretry =>
              obtain ⟨pause, rest, _, s₂, rfl, hwait, hrest⟩ := traced_bind.mp hrest
              obtain ⟨failed, last, ht⟩ := ih hrest
              rw [← List.append_assoc]
              exact ⟨first :: failed, last, .again hattempt hretry hwait ht⟩
          next =>
              obtain ⟨rfl, rfl, rfl⟩ := traced_pure.mp hrest
              rw [List.append_nil]
              exact ⟨[], first, .last hattempt⟩

end Local

end Prog

end Effect
