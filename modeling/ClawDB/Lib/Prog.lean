/-
# `Lib.Prog` — programs over an effect signature, and three ways of reading them

A program that talks to components it does not own is a tree: at each node it
performs one operation and goes on with whatever the component replies.  Nothing
is said about what the components do; that is supplied afterwards, and the same
tree is read in three ways.

| | |
| :-- | :-- |
| `run`, `calls` | against a handler: the components are functions of a state |
| `Exec` | against a relation: the components may reply anything the relation allows |
| `wp` | against a local protocol: what the program may ask next, given what it was told so far |

`Within` is the purely syntactic reading: every operation of the tree satisfies
a predicate, whatever the replies.

Fallible programs are `ExceptT ε (Prog F)`; the lemmas on `.run` at the end of
each section are what a client uses, so that no proof unfolds `ExceptT.bind`.
-/
import Mathlib.Tactic.Common

namespace Effect

/-- An effect signature: the operations, and the type each one replies with. -/
structure Sig where
  Op : Type
  Ret : Op → Type

/-- A program over `F` with result `α`. -/
inductive Prog (F : Sig) (α : Type) : Type where
  | pure (a : α)
  | op (o : F.Op) (k : F.Ret o → Prog F α)

namespace Prog

variable {F : Sig} {α β γ ε σ M : Type}

def bind : Prog F α → (α → Prog F β) → Prog F β
  | .pure a, f => f a
  | .op o k, f => .op o fun r => (k r).bind f

instance : Monad (Prog F) where
  pure := .pure
  bind := bind

/-- The program that performs `o` and returns the reply. -/
def perform (o : F.Op) : Prog F (F.Ret o) := .op o .pure

@[simp] theorem pure_bind' (a : α) (f : α → Prog F β) : (Prog.pure a >>= f) = f a := rfl

@[simp] theorem op_bind (o : F.Op) (k : F.Ret o → Prog F α) (f : α → Prog F β) :
    (Prog.op o k >>= f) = .op o fun r => k r >>= f := rfl

theorem bind_pure' (p : Prog F α) : (p >>= fun a => Prog.pure a) = p := by
  induction p with
  | pure a => rfl
  | op o k ih => rw [op_bind]; exact congrArg _ (funext ih)

theorem bind_assoc' (p : Prog F α) (f : α → Prog F β) (g : β → Prog F γ) :
    (p >>= f >>= g) = (p >>= fun a => f a >>= g) := by
  induction p with
  | pure a => rfl
  | op o k ih => simp only [op_bind]; exact congrArg _ (funext ih)

instance : LawfulMonad (Prog F) := LawfulMonad.mk' (Prog F) bind_pure' (fun _ _ => rfl) bind_assoc'

/-! ## Against a handler -/

/-- The components as a function of their joint state. -/
abbrev Handler (F : Sig) (σ : Type) := (o : F.Op) → σ → F.Ret o × σ

def run (h : Handler F σ) : Prog F α → σ → α × σ
  | .pure a, s => (a, s)
  | .op o k, s => (k (h o s).1).run h (h o s).2

/-- The operations a run performs, in order. -/
def calls (h : Handler F σ) : Prog F α → σ → List F.Op
  | .pure _, _ => []
  | .op o k, s => o :: (k (h o s).1).calls h (h o s).2

@[simp] theorem run_op (h : Handler F σ) (o : F.Op) (k : F.Ret o → Prog F α) (s : σ) :
    (Prog.op o k).run h s = (k (h o s).1).run h (h o s).2 := rfl

@[simp] theorem calls_pure (h : Handler F σ) (a : α) (s : σ) :
    (Prog.pure a : Prog F α).calls h s = [] := rfl

@[simp] theorem calls_op (h : Handler F σ) (o : F.Op) (k : F.Ret o → Prog F α) (s : σ) :
    (Prog.op o k).calls h s = o :: (k (h o s).1).calls h (h o s).2 := rfl

theorem run_bind (h : Handler F σ) (p : Prog F α) (f : α → Prog F β) (s : σ) :
    (p >>= f).run h s = (f (p.run h s).1).run h (p.run h s).2 := by
  induction p generalizing s with
  | pure a => rfl
  | op o k ih => exact ih _ _

theorem calls_bind (h : Handler F σ) (p : Prog F α) (f : α → Prog F β) (s : σ) :
    (p >>= f).calls h s = p.calls h s ++ (f (p.run h s).1).calls h (p.run h s).2 := by
  induction p generalizing s with
  | pure a => rfl
  | op o k ih => exact congrArg (o :: ·) (ih _ _)

/-! ## Against a relation -/

/-- `R o s r s'`: in state `s` the operation `o` may reply `r` and leave `s'`. -/
abbrev Rel (F : Sig) (σ : Type) := (o : F.Op) → σ → F.Ret o → σ → Prop

/-- One complete execution of a program, from `s` to `s'` with result `a`. -/
inductive Exec (R : Rel F σ) : Prog F α → σ → α → σ → Prop where
  | pure (a : α) (s : σ) : Exec R (.pure a) s a s
  | op {o : F.Op} {k : F.Ret o → Prog F α} {s s' s'' : σ} {r : F.Ret o} {a : α} :
      R o s r s' → Exec R (k r) s' a s'' → Exec R (.op o k) s a s''

variable {R : Rel F σ}

@[simp] theorem exec_pure {a b : α} {s s' : σ} :
    Exec R (.pure a : Prog F α) s b s' ↔ b = a ∧ s' = s := by
  constructor
  · intro h; cases h; exact ⟨rfl, rfl⟩
  · rintro ⟨rfl, rfl⟩; exact .pure ..

theorem exec_op {o : F.Op} {k : F.Ret o → Prog F α} {s s'' : σ} {a : α} :
    Exec R (.op o k) s a s'' ↔ ∃ r s', R o s r s' ∧ Exec R (k r) s' a s'' := by
  constructor
  · intro h
    cases h with
    | op hr hk => exact ⟨_, _, hr, hk⟩
  · rintro ⟨r, s', hr, hk⟩; exact .op hr hk

theorem exec_bind {p : Prog F α} {f : α → Prog F β} {s s'' : σ} {b : β} :
    Exec R (p >>= f) s b s'' ↔ ∃ a s', Exec R p s a s' ∧ Exec R (f a) s' b s'' := by
  induction p generalizing s with
  | pure a =>
      constructor
      · intro h; exact ⟨a, s, .pure .., h⟩
      · rintro ⟨a', s', hp, hf⟩
        obtain ⟨rfl, rfl⟩ := exec_pure.mp hp
        exact hf
  | op o k ih =>
      simp only [op_bind, exec_op, ih]
      constructor
      · rintro ⟨r, s₁, hr, a, s₂, hk, hf⟩; exact ⟨a, s₂, ⟨r, s₁, hr, hk⟩, hf⟩
      · rintro ⟨a, s₂, ⟨r, s₁, hr, hk⟩, hf⟩; exact ⟨r, s₁, hr, a, s₂, hk, hf⟩

theorem exec_perform {o : F.Op} {s s' : σ} {r : F.Ret o} :
    Exec R (perform o) s r s' ↔ R o s r s' := by
  unfold perform
  rw [exec_op]
  constructor
  · rintro ⟨r', s₁, hr, hk⟩
    obtain ⟨rfl, rfl⟩ := exec_pure.mp hk
    exact hr
  · exact fun hr => ⟨r, s', hr, .pure ..⟩

/-- `h` replies only what `R` allows. -/
def Handler.Refines (h : Handler F σ) (R : Rel F σ) : Prop :=
  ∀ o s, R o s (h o s).1 (h o s).2

/-- Running against a handler is one of the executions the relation has. -/
theorem exec_run {h : Handler F σ} (hR : h.Refines R) (p : Prog F α) (s : σ) :
    Exec R p s (p.run h s).1 (p.run h s).2 := by
  induction p generalizing s with
  | pure a => exact .pure ..
  | op o k ih => exact .op (hR o s) (ih _ _)

theorem Exec.mono {R' : Rel F σ} (hR : ∀ o s r s', R o s r s' → R' o s r s') {p : Prog F α}
    {s s' : σ} {a : α} (h : Exec R p s a s') : Exec R' p s a s' := by
  induction h with
  | pure a s => exact .pure a s
  | op hr _ ih => exact .op (hR _ _ _ _ hr) ih

/-! ## Syntactically -/

/-- Every operation the program can ever perform satisfies `P`. -/
def Within (P : F.Op → Prop) : Prog F α → Prop
  | .pure _ => True
  | .op o k => P o ∧ ∀ r, (k r).Within P

@[simp] theorem within_pure {P : F.Op → Prop} (a : α) :
    (Prog.pure a : Prog F α).Within P ↔ True := Iff.rfl

@[simp] theorem within_op {P : F.Op → Prop} (o : F.Op) (k : F.Ret o → Prog F α) :
    (Prog.op o k).Within P ↔ P o ∧ ∀ r, (k r).Within P := Iff.rfl

theorem Within.bind {P : F.Op → Prop} {p : Prog F α} {f : α → Prog F β}
    (hp : p.Within P) (hf : ∀ a, (f a).Within P) : (p >>= f).Within P := by
  induction p with
  | pure a => exact hf a
  | op o k ih => exact ⟨hp.1, fun r => ih r (hp.2 r)⟩

theorem Within.mono {P Q : F.Op → Prop} (hPQ : ∀ o, P o → Q o) {p : Prog F α}
    (hp : p.Within P) : p.Within Q := by
  induction p with
  | pure a => trivial
  | op o k ih => exact ⟨hPQ o hp.1, fun r => ih r (hp.2 r)⟩

theorem Within.calls {P : F.Op → Prop} {p : Prog F α} (hp : p.Within P)
    (h : Handler F σ) (s : σ) : ∀ o ∈ p.calls h s, P o := by
  induction p generalizing s with
  | pure a => intro o ho; cases ho
  | op o k ih =>
      intro o' ho'
      rcases List.mem_cons.mp ho' with rfl | ho'
      · exact hp.1
      · exact ih _ (hp.2 _) _ o' ho'

/-! ## Against a local protocol

What a program has been told so far is summarised in a memory `M`; a protocol
says which operation may come next in each memory, and how a reply changes it.
`wp` is the resulting calculus of pre- and postconditions. -/

/-- A protocol over the memory `M`. -/
structure Protocol (F : Sig) (M : Type) where
  allowed : M → F.Op → Prop
  next : M → (o : F.Op) → F.Ret o → M

variable {P : Protocol F M}

/-- From memory `m` the program keeps to the protocol whatever it is told, and
the memory and result it ends with satisfy `Q`. -/
def wp (P : Protocol F M) : Prog F α → (M → α → Prop) → M → Prop
  | .pure a, Q, m => Q m a
  | .op o k, Q, m => P.allowed m o ∧ ∀ r, (k r).wp P Q (P.next m o r)

@[simp] theorem wp_pure {Q : M → α → Prop} (a : α) (m : M) :
    (Prog.pure a : Prog F α).wp P Q m ↔ Q m a := Iff.rfl

@[simp] theorem wp_op {Q : M → α → Prop} (o : F.Op) (k : F.Ret o → Prog F α) (m : M) :
    (Prog.op o k).wp P Q m ↔ P.allowed m o ∧ ∀ r, (k r).wp P Q (P.next m o r) := Iff.rfl

theorem wp_mono {Q Q' : M → α → Prop} (hQ : ∀ m a, Q m a → Q' m a) {p : Prog F α} {m : M}
    (hp : p.wp P Q m) : p.wp P Q' m := by
  induction p generalizing m with
  | pure a => exact hQ m a hp
  | op o k ih => exact ⟨hp.1, fun r => ih r (hp.2 r)⟩

theorem wp_bind {Q : M → β → Prop} {p : Prog F α} {f : α → Prog F β} {m : M} :
    (p >>= f).wp P Q m ↔ p.wp P (fun m' a => (f a).wp P Q m') m := by
  induction p generalizing m with
  | pure a => exact Iff.rfl
  | op o k ih => simp only [op_bind, wp_op, ih]

/-- Where every operation is permitted and any result will do. -/
theorem wp_of_forall {Q : M → α → Prop} (hP : ∀ m o, P.allowed m o) (hQ : ∀ m a, Q m a)
    (p : Prog F α) (m : M) : p.wp P Q m := by
  induction p generalizing m with
  | pure a => exact hQ m a
  | op o k ih => exact ⟨hP m o, fun r => ih r _⟩

/-- Where the operations of the program are permitted always, and any result will do. -/
theorem wp_of_permitted {Q : M → α → Prop} {p : Prog F α}
    (hp : p.Within fun o => ∀ m, P.allowed m o) (hQ : ∀ m a, Q m a) {m : M} : p.wp P Q m := by
  induction p generalizing m with
  | pure a => exact hQ m a
  | op o k ih => exact ⟨hp.1 m, fun r => ih r (hp.2 r)⟩

/-- The operation may come next, and nothing about it is remembered. -/
def Protocol.Skips (P : Protocol F M) (m : M) (o : F.Op) : Prop :=
  P.allowed m o ∧ ∀ r, P.next m o r = m

/-- A program of such operations leaves the memory as it was. -/
theorem wp_of_within {p : Prog F α} {m : M} (hp : p.Within (P.Skips m)) :
    p.wp P (fun m' _ => m' = m) m := by
  induction p with
  | pure a => exact rfl
  | op o k ih =>
      refine ⟨hp.1.1, fun r => ?_⟩
      rw [hp.1.2 r]
      exact ih r (hp.2 r)

/-- The relation, with a memory of what was asked kept beside the state. -/
def Rel.watched (R : Rel F σ) (P : Protocol F M) : Rel F (σ × M) :=
  fun o s r s' => R o s.1 r s'.1 ∧ s'.2 = P.next s.2 o r

/-- The components, with such a memory. -/
def Handler.watched (h : Handler F σ) (P : Protocol F M) : Handler F (σ × M) :=
  fun o s => ((h o s.1).1, (h o s.1).2, P.next s.2 o (h o s.1).1)

theorem Handler.Refines.watched {h : Handler F σ} (hR : h.Refines R) (P : Protocol F M) :
    (h.watched P).Refines (R.watched P) :=
  fun o s => ⟨hR o s.1, rfl⟩

theorem Exec.unwatched {p : Prog F α} {s s' : σ × M} {a : α} (h : Exec (R.watched P) p s a s') :
    Exec R p s.1 a s'.1 := by
  induction h with
  | pure a s => exact .pure a s.1
  | op hr _ ih => exact .op hr.1 ih

theorem Exec.watched {p : Prog F α} {s s' : σ} {a : α} (h : Exec R p s a s') (P : Protocol F M)
    (m : M) : ∃ m', Exec (R.watched P) p (s, m) a (s', m') := by
  induction h generalizing m with
  | pure a s => exact ⟨m, .pure a (s, m)⟩
  | @op o k s s' s'' r a hr _ ih =>
      obtain ⟨m', h⟩ := ih (P.next m o r)
      exact ⟨m', exec_op.mpr ⟨r, (s', P.next m o r), ⟨hr, rfl⟩, h⟩⟩

/-- What `wp` says of a program holds of each of its executions. -/
theorem wp_watched {p : Prog F α} {Q : M → α → Prop} {s s' : σ × M} {a : α}
    (h : Exec (R.watched P) p s a s') (hp : p.wp P Q s.2) : Q s'.2 a := by
  induction h with
  | pure a s => exact hp
  | @op o k s s' s'' r a hr _ ih => exact ih (hr.2 ▸ hp.2 r)

end Prog

/-! ## Fallible programs -/

/-- Programs that may stop with an error, as `?` stops a Rust function. -/
abbrev Try (F : Sig) (ε α : Type) := ExceptT ε (Prog F) α

namespace Try

open Prog

variable {F : Sig} {α β ε ε' σ M : Type}

/-- A program that returns a result, with its error converted: `p.await?`. -/
def of (p : Prog F (Except ε' α)) (e : ε' → ε) : Try F ε α :=
  ExceptT.mk (p >>= fun r => .pure (r.mapError e))

/-- An operation that cannot fail, inside a fallible program. -/
def lift (p : Prog F α) : Try F ε α :=
  ExceptT.mk (p >>= fun a => .pure (.ok a))

@[simp] theorem run_pure' (a : α) : (pure a : Try F ε α).run = .pure (.ok a) := rfl

@[simp] theorem run_throw (e : ε) : (throw e : Try F ε α).run = .pure (.error e) := rfl

@[simp] theorem run_of (p : Prog F (Except ε' α)) (e : ε' → ε) :
    (of p e).run = p >>= fun r => .pure (r.mapError e) := rfl

@[simp] theorem run_lift (p : Prog F α) :
    (lift p : Try F ε α).run = p >>= fun a => .pure (.ok a) := rfl

/-- `x >>= f`, as a program: `f` is reached only through an `ok`. -/
theorem run_bind (x : Try F ε α) (f : α → Try F ε β) :
    (x >>= f).run = x.run >>= fun
      | .ok a => (f a).run
      | .error e => .pure (.error e) := by
  rw [ExceptT.run_bind]
  refine congrArg (x.run >>= ·) (funext fun r => ?_)
  cases r <;> rfl

/-- A fallible program against a handler. -/
def eval (h : Handler F σ) (x : Try F ε α) (s : σ) : Except ε α × σ := Prog.run h x.run s

@[simp] theorem eval_pure (h : Handler F σ) (a : α) (s : σ) :
    (pure a : Try F ε α).eval h s = (.ok a, s) := rfl

@[simp] theorem eval_throw (h : Handler F σ) (e : ε) (s : σ) :
    (throw e : Try F ε α).eval h s = (.error e, s) := rfl

theorem eval_bind (h : Handler F σ) (x : Try F ε α) (f : α → Try F ε β) (s : σ) :
    (x >>= f).eval h s =
      match x.eval h s with
      | (.ok a, s') => (f a).eval h s'
      | (.error e, s') => (.error e, s') := by
  unfold eval
  rw [run_bind, Prog.run_bind]
  cases hx : Prog.run h x.run s with
  | mk r s' => cases r <;> rfl

/-- What follows a program that returned. -/
theorem eval_bind_ok {h : Handler F σ} {x : Try F ε α} {f : α → Try F ε β} {s s' : σ} {a : α}
    (hx : x.eval h s = (.ok a, s')) : (x >>= f).eval h s = (f a).eval h s' := by
  rw [eval_bind, hx]

theorem eval_bind_error {h : Handler F σ} {x : Try F ε α} {f : α → Try F ε β} {s s' : σ} {e : ε}
    (hx : x.eval h s = (.error e, s')) : (x >>= f).eval h s = (.error e, s') := by
  rw [eval_bind, hx]

/-- The operations of a program that returned, and of what follows it. -/
theorem calls_bind_ok {h : Handler F σ} {x : Try F ε α} {f : α → Try F ε β} {s s' : σ} {a : α}
    (hx : x.eval h s = (.ok a, s')) :
    (x >>= f).run.calls h s = x.run.calls h s ++ (f a).run.calls h s' := by
  have hrun : Prog.run h x.run s = (.ok a, s') := hx
  rw [run_bind, Prog.calls_bind, hrun]

theorem calls_bind_error {h : Handler F σ} {x : Try F ε α} {f : α → Try F ε β} {s s' : σ} {e : ε}
    (hx : x.eval h s = (.error e, s')) : (x >>= f).run.calls h s = x.run.calls h s := by
  have hrun : Prog.run h x.run s = (.error e, s') := hx
  rw [run_bind, Prog.calls_bind, hrun]
  exact List.append_nil _

theorem within_of {P : F.Op → Prop} {p : Prog F (Except ε' α)} {e : ε' → ε}
    (hp : p.Within P) : (of p e).run.Within P :=
  hp.bind fun _ => trivial

theorem within_lift {P : F.Op → Prop} {p : Prog F α} (hp : p.Within P) :
    (lift p : Try F ε α).run.Within P :=
  hp.bind fun _ => trivial

theorem within_bind {P : F.Op → Prop} {x : Try F ε α} {f : α → Try F ε β}
    (hx : x.run.Within P) (hf : ∀ a, (f a).run.Within P) : (x >>= f).run.Within P := by
  rw [run_bind]
  refine hx.bind fun a => ?_
  cases a with
  | ok a => exact hf a
  | error e => trivial

theorem wp_bind {P : Protocol F M} {x : Try F ε α} {f : α → Try F ε β}
    {Q : M → Except ε β → Prop} {m : M} :
    (x >>= f).run.wp P Q m ↔ x.run.wp P (fun m' => fun
      | .ok a => (f a).run.wp P Q m'
      | .error e => Q m' (.error e)) m := by
  rw [run_bind, Prog.wp_bind]
  constructor <;> refine fun h => wp_mono (fun m' r hr => ?_) h <;> cases r <;> exact hr

theorem wp_of {P : Protocol F M} {p : Prog F (Except ε' α)} {e : ε' → ε}
    {Q : M → Except ε α → Prop} {m : M} :
    (of p e).run.wp P Q m ↔ p.wp P (fun m' r => Q m' (r.mapError e)) m := by
  rw [run_of, Prog.wp_bind]
  rfl

theorem wp_lift {P : Protocol F M} {p : Prog F α} {Q : M → Except ε α → Prop} {m : M} :
    (lift p : Try F ε α).run.wp P Q m ↔ p.wp P (fun m' a => Q m' (.ok a)) m := by
  rw [run_lift, Prog.wp_bind]
  rfl

/-- The program keeps to the protocol, and what it returns, if it returns a value, satisfies
`Q`. -/
def Returns (P : Protocol F M) (Q : M → α → Prop) (x : Try F ε α) (m : M) : Prop :=
  x.run.wp P (fun m' r => ∀ a, r = .ok a → Q m' a) m

section Returns

variable {P : Protocol F M} {m : M}

theorem returns_pure {Q : M → α → Prop} {a : α} (h : Q m a) :
    Returns P Q (pure a : Try F ε α) m := by
  intro a' ha
  obtain rfl := Except.ok.inj ha
  exact h

theorem returns_throw {Q : M → α → Prop} {e : ε} : Returns P Q (throw e : Try F ε α) m := by
  intro a ha
  cases ha

theorem Returns.bind {x : Try F ε α} {f : α → Try F ε β} {Q : M → β → Prop} {J : M → α → Prop}
    (hx : Returns P J x m) (hf : ∀ m a, J m a → Returns P Q (f a) m) :
    Returns P Q (x >>= f) m := by
  unfold Returns
  rw [wp_bind]
  refine wp_mono (fun m' r h => ?_) hx
  cases r with
  | ok a => exact hf m' a (h a rfl)
  | error e =>
      intro b hb
      cases hb

/-- An operation that cannot fail, and what follows it. -/
theorem returns_lift {o : F.Op} {f : F.Ret o → Try F ε β} {Q : M → β → Prop}
    (ho : P.allowed m o) (hf : ∀ r, Returns P Q (f r) (P.next m o r)) :
    Returns P Q (lift (perform o) >>= f) m := by
  refine Returns.bind (J := fun m' r => m' = P.next m o r) ?_ fun m' r h => h ▸ hf r
  refine ⟨ho, fun r a ha => ?_⟩
  obtain rfl := Except.ok.inj ha
  rfl

end Returns

theorem exec_of {R : Rel F σ} {p : Prog F (Except ε' α)} {e : ε' → ε} {s s' : σ}
    {b : Except ε α} :
    Exec R (of p e).run s b s' ↔ ∃ r, Exec R p s r s' ∧ b = r.mapError e := by
  rw [run_of, Prog.exec_bind]
  constructor
  · rintro ⟨r, s₁, hp, hb⟩
    obtain ⟨rfl, rfl⟩ := exec_pure.mp hb
    exact ⟨r, hp, rfl⟩
  · rintro ⟨r, hp, rfl⟩; exact ⟨r, s', hp, .pure ..⟩

theorem exec_lift {R : Rel F σ} {p : Prog F α} {s s' : σ} {b : Except ε α} :
    Exec R (lift p : Try F ε α).run s b s' ↔ ∃ a, Exec R p s a s' ∧ b = .ok a := by
  rw [run_lift, Prog.exec_bind]
  constructor
  · rintro ⟨a, s₁, hp, hb⟩
    obtain ⟨rfl, rfl⟩ := exec_pure.mp hb
    exact ⟨a, hp, rfl⟩
  · rintro ⟨a, hp, rfl⟩; exact ⟨a, s', hp, .pure ..⟩

theorem exec_bind {R : Rel F σ} {x : Try F ε α} {f : α → Try F ε β} {s s'' : σ}
    {b : Except ε β} : Exec R (x >>= f).run s b s'' ↔
      (∃ a s', Exec R x.run s (.ok a) s' ∧ Exec R (f a).run s' b s'') ∨
      (∃ e, Exec R x.run s (.error e) s'' ∧ b = .error e) := by
  rw [run_bind, Prog.exec_bind]
  constructor
  · rintro ⟨r, s', hx, hf⟩
    cases r with
    | ok a => exact .inl ⟨a, s', hx, hf⟩
    | error e =>
        obtain ⟨rfl, rfl⟩ := exec_pure.mp hf
        exact .inr ⟨e, hx, rfl⟩
  · rintro (⟨a, s', hx, hf⟩ | ⟨e, hx, rfl⟩)
    · exact ⟨.ok a, s', hx, hf⟩
    · exact ⟨.error e, s'', hx, .pure ..⟩

theorem exec_bind_of {R : Rel F σ} {x : Try F ε α} {f : α → Try F ε β} {s t s' : σ} {a : α}
    {b : Except ε β} (hx : Exec R x.run s (.ok a) t) (hf : Exec R (f a).run t b s') :
    Exec R (x >>= f).run s b s' :=
  exec_bind.mpr (.inl ⟨a, t, hx, hf⟩)

end Try

end Effect
