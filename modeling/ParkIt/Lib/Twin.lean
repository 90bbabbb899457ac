import ParkIt.Lib.Prog

/-! Two runs side by side: from related states they end alike. -/
namespace Effects

variable {Op : Type} {Ans : Op → Type} {ε α β γ δ σ : Type}

namespace Prog

/-- Both runs answer, into `ok`, or both raise, into `err`. -/
def Twin (exec : (o : Op) → σ → Except ε (Ans o) × σ) (p : Prog Op Ans ε α) (q : Prog Op Ans ε β)
    (s t : σ) (ok : α → β → σ → σ → Prop) (err : ε → ε → σ → σ → Prop) : Prop :=
  match p.run exec s, q.run exec t with
  | (.ok a, s'), (.ok b, t') => ok a b s' t'
  | (.error e, s'), (.error f, t') => err e f s' t'
  | _, _ => False

section Twin
variable {exec : (o : Op) → σ → Except ε (Ans o) × σ} {s t s' t' : σ}
  {ok : α → β → σ → σ → Prop} {err : ε → ε → σ → σ → Prop}

@[simp] theorem twin_pure {a : α} {b : β} :
    Twin exec (Pure.pure a : Prog Op Ans ε α) (Pure.pure b : Prog Op Ans ε β) s t ok err ↔
      ok a b s t := Iff.rfl

@[simp] theorem twin_raise {e f : ε} :
    Twin exec (raise e : Prog Op Ans ε α) (raise f : Prog Op Ans ε β) s t ok err ↔
      err e f s t := Iff.rfl

/-- One operation on each side. -/
theorem twin_perform {o o' : Op} {ok : Ans o → Ans o' → σ → σ → Prop} :
    Twin exec (perform o : Prog Op Ans ε (Ans o)) (perform o' : Prog Op Ans ε (Ans o')) s t ok err ↔
      match exec o s, exec o' t with
      | (.ok a, s'), (.ok b, t') => ok a b s' t'
      | (.error e, s'), (.error f, t') => err e f s' t'
      | _, _ => False := by
  unfold Twin
  rw [run_perform, run_perform]
  rcases exec o s with ⟨e | a, s'⟩ <;> rcases exec o' t with ⟨f | b, t'⟩ <;> rfl

theorem Twin.mono {p : Prog Op Ans ε α} {q : Prog Op Ans ε β} {ok' : α → β → σ → σ → Prop}
    {err' : ε → ε → σ → σ → Prop} (h : Twin exec p q s t ok err)
    (hok : ∀ a b s' t', ok a b s' t' → ok' a b s' t')
    (herr : ∀ e f s' t', err e f s' t' → err' e f s' t') : Twin exec p q s t ok' err' := by
  unfold Twin at *
  rcases hp : p.run exec s with ⟨e | a, s'⟩ <;> rcases hq : q.run exec t with ⟨f | b, t'⟩ <;>
    rw [hp, hq] at h
  · exact herr e f s' t' h
  · exact h
  · exact h
  · exact hok a b s' t' h

/-- The rule for a step whose own runs are alike. -/
theorem Twin.bind {p : Prog Op Ans ε α} {q : Prog Op Ans ε β} {f : α → Prog Op Ans ε γ}
    {f' : β → Prog Op Ans ε δ} {okp : α → β → σ → σ → Prop} {ok : γ → δ → σ → σ → Prop}
    (h : Twin exec p q s t okp err)
    (hf : ∀ a b s' t', okp a b s' t' → Twin exec (f a) (f' b) s' t' ok err) :
    Twin exec (p >>= f) (q >>= f') s t ok err := by
  unfold Twin at h ⊢
  rw [run_bind, run_bind]
  rcases hp : p.run exec s with ⟨e | a, s'⟩ <;> rcases hq : q.run exec t with ⟨e' | b, t'⟩ <;>
    rw [hp, hq] at h
  · exact h
  · exact h.elim
  · exact h.elim
  · exact hf a b s' t' h

end Twin
end Prog

/-- Operations that answer alike in related states keep the runs of one program alike. -/
theorem Only.twin {ok : Op → Prop} {raises : ε → Prop} {p : Prog Op Ans ε α}
    {exec : (o : Op) → σ → Except ε (Ans o) × σ} {R : σ → σ → Prop} (h : Only ok raises p)
    (hexec : ∀ o s t, ok o → R s t →
      (exec o s).1 = (exec o t).1 ∧ R (exec o s).2 (exec o t).2) {s t : σ} (hst : R s t) :
    Prog.Twin exec p p s t (fun a b s' t' => a = b ∧ R s' t')
      fun e f s' t' => e = f ∧ R s' t' := by
  induction p generalizing s t with
  | pure a => exact ⟨rfl, hst⟩
  | throw e => exact ⟨rfl, hst⟩
  | call o k ih =>
    obtain ⟨hans, hrel⟩ := hexec o s t h.1 hst
    unfold Prog.Twin
    rw [Prog.run_call, Prog.run_call]
    rcases hs : exec o s with ⟨e | a, s'⟩ <;> rcases ht : exec o t with ⟨f | b, t'⟩ <;>
      rw [hs, ht] at hans hrel <;> cases hans
    · exact ⟨rfl, hrel⟩
    · exact ih a (h.2 a) hrel

end Effects
