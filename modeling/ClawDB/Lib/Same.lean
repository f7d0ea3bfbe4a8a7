/-
# `Lib.Same` — programs that cannot be told apart

Two programs are the same for a relation if it lets them come to the same results in the same
states.  That is a congruence, so a part of a program may be replaced; it says nothing of the
operations that are performed on the way.

`Matches` is the same with results that are not equal but related, for programs that reply in
different words.

`Rel.without` forbids operations.  A retry that may not wait is one attempt, and an error that
would have been tried again is none of its results.
-/
import ClawDB.Lib.Retry

namespace Effect

namespace Prog

variable {F : Sig} {α β σ : Type} {R : Rel F σ}

/-- The same results in the same states. -/
def Same (R : Rel F σ) (p q : Prog F α) : Prop :=
  ∀ s a s', Exec R p s a s' ↔ Exec R q s a s'

namespace Same

variable {p q t : Prog F α}

theorem refl (p : Prog F α) : Same R p p := fun _ _ _ => Iff.rfl

theorem trans (h : Same R p q) (h' : Same R q t) : Same R p t :=
  fun s a s' => (h s a s').trans (h' s a s')

theorem bind {f g : α → Prog F β} (h : Same R p q) (hf : ∀ a, Same R (f a) (g a)) :
    Same R (p >>= f) (q >>= g) := by
  intro s b s'
  rw [exec_bind, exec_bind]
  constructor
  · rintro ⟨a, s₁, hp, hk⟩
    exact ⟨a, s₁, (h s a s₁).mp hp, (hf a s₁ b s').mp hk⟩
  · rintro ⟨a, s₁, hq, hk⟩
    exact ⟨a, s₁, (h s a s₁).mpr hq, (hf a s₁ b s').mpr hk⟩

end Same

theorem exec_map {p : Prog F α} {f : α → β} {s s' : σ} {b : β} :
    Exec R (f <$> p) s b s' ↔ ∃ a, Exec R p s a s' ∧ b = f a := by
  rw [← bind_pure_comp, exec_bind]
  constructor
  · rintro ⟨a, s₁, hp, hf⟩
    obtain ⟨rfl, rfl⟩ := exec_pure.mp hf
    exact ⟨a, hp, rfl⟩
  · rintro ⟨a, hp, rfl⟩
    exact ⟨a, s', hp, .pure ..⟩

/-! ## Related results -/

/-- Every execution of the one has its counterpart of the other, from the same state to the same
state, with a related result. -/
structure Matches (R : Rel F σ) (S : α → β → Prop) (p : Prog F α) (q : Prog F β) : Prop where
  forth : ∀ {s a s'}, Exec R p s a s' → ∃ b, Exec R q s b s' ∧ S a b
  back : ∀ {s b s'}, Exec R q s b s' → ∃ a, Exec R p s a s' ∧ S a b

namespace Matches

variable {γ δ : Type} {S : α → β → Prop} {T : γ → δ → Prop} {p : Prog F α} {q : Prog F β}

theorem pure {a : α} {b : β} (h : S a b) : Matches R S (.pure a) (.pure b) where
  forth hp := by
    obtain ⟨rfl, rfl⟩ := exec_pure.mp hp
    exact ⟨b, .pure .., h⟩
  back hq := by
    obtain ⟨rfl, rfl⟩ := exec_pure.mp hq
    exact ⟨a, .pure .., h⟩

/-- A program matches itself, and what its results have in common may be used. -/
theorem self {P : α → Prop} (h : ∀ {s a s'}, Exec R p s a s' → P a) :
    Matches R (fun a b => a = b ∧ P a) p p where
  forth hp := ⟨_, hp, rfl, h hp⟩
  back hp := ⟨_, hp, rfl, h hp⟩

theorem refl (p : Prog F α) : Matches R Eq p p where
  forth hp := ⟨_, hp, rfl⟩
  back hp := ⟨_, hp, rfl⟩

theorem bind {f : α → Prog F γ} {g : β → Prog F δ} (h : Matches R S p q)
    (hf : ∀ a b, S a b → Matches R T (f a) (g b)) : Matches R T (p >>= f) (q >>= g) where
  forth hp := by
    obtain ⟨a, s₁, ha, hk⟩ := exec_bind.mp hp
    obtain ⟨b, hb, hS⟩ := h.forth ha
    obtain ⟨d, hd, hT⟩ := (hf a b hS).forth hk
    exact ⟨d, exec_bind.mpr ⟨b, s₁, hb, hd⟩, hT⟩
  back hq := by
    obtain ⟨b, s₁, hb, hk⟩ := exec_bind.mp hq
    obtain ⟨a, ha, hS⟩ := h.back hb
    obtain ⟨c, hc, hT⟩ := (hf a b hS).back hk
    exact ⟨c, exec_bind.mpr ⟨a, s₁, ha, hc⟩, hT⟩

end Matches

/-! ## Forbidden operations -/

/-- The relation without these operations. -/
def Rel.without (R : Rel F σ) (forbidden : F.Op → Prop) : Rel F σ :=
  fun o s r s' => ¬forbidden o ∧ R o s r s'

theorem Rel.without_iff {forbidden : F.Op → Prop} {o : F.Op} (h : ¬forbidden o) {s s' : σ}
    {r : F.Ret o} : R.without forbidden o s r s' ↔ R o s r s' :=
  and_iff_right h

section Retry

variable {ε L : Type} {attempt : L → Prog F (Except ε α × L)} {wait : Nat → Prog F Unit}
  {retryable : ε → Bool} {delay : Nat} {delays : List Nat} {l : L} {s s' : σ}
  {out : Except ε α × L}

/-- Without a wait there is one attempt, and it did not end in an error that is worth another. -/
theorem exec_retryWith_once (hwait : ∀ delay s u s', ¬Exec R (wait delay) s u s') :
    Exec R (retryWith attempt wait retryable (delay :: delays) l) s out s' ↔
      Exec R (attempt l) s out s' ∧ ∀ e, out.1 = .error e → retryable e = false := by
  unfold retryWith
  rw [exec_bind]
  constructor
  · rintro ⟨⟨r, l₁⟩, s₁, hattempt, hrest⟩
    cases r with
    | ok a =>
        obtain ⟨rfl, rfl⟩ := exec_pure.mp hrest
        exact ⟨hattempt, fun _ h => nomatch h⟩
    | error e =>
        by_cases hretry : retryable e = true
        · simp only [afterTry, hretry, if_true, exec_bind] at hrest
          obtain ⟨u, s₂, hpause, -⟩ := hrest
          exact absurd hpause (hwait _ _ _ _)
        · simp only [afterTry, hretry, Bool.false_eq_true, if_false] at hrest
          obtain ⟨rfl, rfl⟩ := exec_pure.mp hrest
          refine ⟨hattempt, fun e' he => ?_⟩
          obtain rfl := Except.error.inj he
          exact Bool.eq_false_iff.mpr hretry
  · rintro ⟨hattempt, hfinal⟩
    refine ⟨out, s', hattempt, ?_⟩
    obtain ⟨r, l₁⟩ := out
    cases r with
    | ok a => exact .pure ..
    | error e =>
        have hstop : retryable e = false := hfinal e rfl
        simp only [afterTry, hstop, Bool.false_eq_true, if_false]
        exact .pure ..

end Retry

end Prog

end Effect
