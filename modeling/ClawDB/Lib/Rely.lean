/-
# `Lib.Rely` — a program, and what goes on around it

A program owns its steps and not its surroundings: between two of its operations, before the
first and after the last, the surroundings may move on by any number of steps of their own.
`Amidst` is every moment of such a run.

`Upholds` says of a program, from a state, that `inv` holds at every one of these moments and `Q`
of what it ends with.  Its rules are those of a calculus of pre- and postconditions, but for one
thing: at an assertion between two operations the program has to be able to rest (`Rests`), that
is, the surroundings keep it.
-/
import ClawDB.Lib.Prog
import Mathlib.Logic.Relation

namespace Effect

open Relation

/-- What the surroundings keep, and what is enough for `inv`. -/
structure Rests {σ : Type} (env : σ → σ → Prop) (inv A : σ → Prop) : Prop where
  keeps : ∀ s s', env s s' → A s → A s'
  inv : ∀ s, A s → inv s

theorem Rests.later {σ : Type} {env : σ → σ → Prop} {inv A : σ → Prop} (hA : Rests env inv A)
    {s s' : σ} (h : ReflTransGen env s s') (hs : A s) : A s' := by
  induction h with
  | refl => exact hs
  | tail _ hstep ih => exact hA.keeps _ _ hstep ih

namespace Prog

variable {F : Sig} {α β ε ι σ : Type}

/-- The moments of a run: what is left of the program, and the state. -/
inductive Amidst (R : Rel F σ) (env : σ → σ → Prop) (init : σ → Prop) (p : Prog F α) :
    Prog F α → σ → Prop where
  | start {s : σ} : init s → Amidst R env init p p s
  | own {o : F.Op} {k : F.Ret o → Prog F α} {s s' : σ} {r : F.Ret o} :
      Amidst R env init p (.op o k) s → R o s r s' → Amidst R env init p (k r) s'
  | around {q : Prog F α} {s s' : σ} :
      Amidst R env init p q s → env s s' → Amidst R env init p q s'

variable (R : Rel F σ) (env : σ → σ → Prop) (inv : σ → Prop)

/-- From `s` on, `inv` holds at every moment, and `Q` of the result at every moment after. -/
def Upholds : Prog F α → (α → σ → Prop) → σ → Prop
  | .pure a, Q, s => ∀ s', ReflTransGen env s s' → inv s' ∧ Q a s'
  | .op o k, Q, s => ∀ s', ReflTransGen env s s' → inv s' ∧
      ∀ r s'', R o s' r s'' → (k r).Upholds Q s''

variable {R env inv} {p : Prog F α} {s : σ}

theorem upholds_pure {a : α} {Q : α → σ → Prop} {A : σ → Prop} (hA : Rests env inv A) (hs : A s)
    (h : ∀ s, A s → Q a s) : (Prog.pure a).Upholds R env inv Q s := by
  intro s' hlater
  have hs' : A s' := hA.later hlater hs
  exact ⟨hA.inv s' hs', h s' hs'⟩

theorem upholds_op {o : F.Op} {k : F.Ret o → Prog F α} {Q : α → σ → Prop} {A : σ → Prop}
    (hA : Rests env inv A) (hs : A s)
    (h : ∀ s r s', A s → R o s r s' → (k r).Upholds R env inv Q s') :
    (Prog.op o k).Upholds R env inv Q s := by
  intro s' hlater
  have hs' : A s' := hA.later hlater hs
  exact ⟨hA.inv s' hs', fun r s'' hr => h s' r s'' hs' hr⟩

/-- The surroundings may move on before the program does. -/
theorem Upholds.later {Q : α → σ → Prop} (hp : p.Upholds R env inv Q s) {s' : σ}
    (h : ReflTransGen env s s') : p.Upholds R env inv Q s' := by
  cases p with
  | pure a => exact fun s'' h' => hp s'' (h.trans h')
  | op o k => exact fun s'' h' => hp s'' (h.trans h')

theorem Upholds.mono {Q Q' : α → σ → Prop} (hQ : ∀ a s, Q a s → Q' a s)
    (hp : p.Upholds R env inv Q s) : p.Upholds R env inv Q' s := by
  induction p generalizing s with
  | pure a => exact fun s' h => ⟨(hp s' h).1, hQ a s' (hp s' h).2⟩
  | op o k ih =>
      exact fun s' h => ⟨(hp s' h).1, fun r s'' hr => ih r ((hp s' h).2 r s'' hr)⟩

theorem Upholds.bind {f : α → Prog F β} {Q : α → σ → Prop} {Q' : β → σ → Prop}
    (hp : p.Upholds R env inv Q s) (hf : ∀ a s, Q a s → (f a).Upholds R env inv Q' s) :
    (p >>= f).Upholds R env inv Q' s := by
  induction p generalizing s with
  | pure a => exact hf a s (hp s .refl).2
  | op o k ih => exact fun s' h => ⟨(hp s' h).1, fun r s'' hr => ih r ((hp s' h).2 r s'' hr)⟩

/-- What a program upholds holds at every moment of its runs. -/
theorem Amidst.upholds {init : σ → Prop} {Q : α → σ → Prop} {q : Prog F α}
    (hp : ∀ s, init s → p.Upholds R env inv Q s) (h : Amidst R env init p q s) :
    q.Upholds R env inv Q s := by
  induction h with
  | start hs => exact hp _ hs
  | own _ hr ih => exact (ih _ .refl).2 _ _ hr
  | around _ hstep ih => exact ih.later (.single hstep)

theorem Upholds.now {Q : α → σ → Prop} (hp : p.Upholds R env inv Q s) : inv s := by
  cases p with
  | pure a => exact (hp s .refl).1
  | op o k => exact (hp s .refl).1

theorem Upholds.ended {a : α} {Q : α → σ → Prop} (hp : (Prog.pure a).Upholds R env inv Q s) :
    Q a s :=
  (hp s .refl).2

/-! ## Against a handler -/

/-- The program after `n` operations against a handler, with nothing going on around it. -/
def advance (h : Handler F σ) : Nat → Prog F α → σ → Prog F α × σ
  | n + 1, .op o k, s => advance h n (k (h o s).1) (h o s).2
  | _, p, s => (p, s)

theorem Amidst.advance {h : Handler F σ} (hR : h.Refines R) {init : σ → Prop} {q : Prog F α}
    (hq : Amidst R env init p q s) (n : Nat) :
    Amidst R env init p (q.advance h n s).1 (q.advance h n s).2 := by
  induction n generalizing q s with
  | zero => cases q <;> exact hq
  | succ n ih =>
      cases q with
      | pure a => exact hq
      | op o k => exact ih (.own hq (hR o s))

end Prog

namespace Try

open Prog

variable {F : Sig} {α β ε ε' ι σ : Type} {R : Rel F σ} {env : σ → σ → Prop} {inv : σ → Prop} {s : σ}

/-- What holds of a result, or of an error. -/
def Outcome (Q : α → σ → Prop) (E : ε → σ → Prop) : Except ε α → σ → Prop
  | .ok a => Q a
  | .error e => E e

/-- One operation, and what is made of its reply. -/
theorem upholds_call {o : F.Op} {f : F.Ret o → Except ε α} {A : σ → Prop} {Q : α → σ → Prop}
    {E : ε → σ → Prop} (hA : Rests env inv A) (hs : A s) (hQ : ∀ a, Rests env inv (Q a))
    (hE : ∀ e, Rests env inv (E e)) (h : ∀ s r s', A s → R o s r s' → Outcome Q E (f r) s') :
    (Prog.op o fun r => .pure (f r)).Upholds R env inv (Outcome Q E) s := by
  refine upholds_op hA hs fun s r s' hs hr => ?_
  have hout : Outcome Q E (f r) s' := h s r s' hs hr
  cases hf : f r with
  | ok a =>
      rw [hf] at hout
      exact upholds_pure (hQ a) hout fun s hs => hs
  | error e =>
      rw [hf] at hout
      exact upholds_pure (hE e) hout fun s hs => hs

/-- A program whose errors are converted. -/
theorem upholds_of {p : Prog F (Except ε' α)} {e : ε' → ε} {Q : α → σ → Prop} {E : σ → Prop}
    (hp : p.Upholds R env inv (Outcome Q fun _ => E) s) (hQ : ∀ a, Rests env inv (Q a))
    (hE : Rests env inv E) : (of p e).run.Upholds R env inv (Outcome Q fun _ => E) s := by
  refine hp.bind fun r s hr => ?_
  cases r with
  | ok a => exact upholds_pure (hQ a) hr fun s hs => hs
  | error e' => exact upholds_pure hE hr fun s hs => hs

/-- A program that cannot fail. -/
theorem upholds_lift {p : Prog F α} {Q : α → σ → Prop} {E : ε → σ → Prop}
    (hp : p.Upholds R env inv Q s) (hQ : ∀ a, Rests env inv (Q a)) :
    (lift p : Try F ε α).run.Upholds R env inv (Outcome Q E) s :=
  hp.bind fun a _ ha => upholds_pure (hQ a) ha fun _ hs => hs

/-- What follows a program that returned; on an error nothing follows. -/
theorem upholds_bind {x : Try F ε α} {f : α → Try F ε β} {Q : α → σ → Prop} {E : ε → σ → Prop}
    {Q' : Except ε β → σ → Prop} (hx : x.run.Upholds R env inv (Outcome Q E) s)
    (hE : ∀ e, Rests env inv (E e)) (hE' : ∀ e s, E e s → Q' (.error e) s)
    (hf : ∀ a s, Q a s → (f a).run.Upholds R env inv Q' s) :
    (x >>= f).run.Upholds R env inv Q' s := by
  rw [run_bind]
  refine hx.bind fun r s hr => ?_
  cases r with
  | ok a => exact hf a s hr
  | error e => exact upholds_pure (hE e) hr (hE' e)

/-- The same for each of a list, one after the other. -/
def each (f : ι → Try F ε Unit) : List ι → Try F ε Unit
  | [] => pure ()
  | i :: is => do
      f i
      each f is

/-- The rule for such a loop: `I` says how things stand when some have had their turn. -/
theorem upholds_each {f : ι → Try F ε Unit} {I : List ι → σ → Prop} {E : ε → σ → Prop}
    (hI : ∀ done, Rests env inv (I done)) (hE : ∀ e, Rests env inv (E e))
    (hf : ∀ done i s, I done s →
      (f i).run.Upholds R env inv (Outcome (fun _ => I (done ++ [i])) E) s)
    (is done : List ι) (hs : I done s) :
    (each f is).run.Upholds R env inv (Outcome (fun _ => I (done ++ is)) E) s := by
  induction is generalizing done s with
  | nil =>
      rw [List.append_nil]
      exact upholds_pure (hI done) hs fun s hs => hs
  | cons i is ih =>
      refine upholds_bind (hf done i s hs) hE (fun e s he => he) fun _ s hs => ?_
      have h := ih (done ++ [i]) hs
      rwa [List.append_assoc, List.singleton_append] at h

end Try

end Effect
