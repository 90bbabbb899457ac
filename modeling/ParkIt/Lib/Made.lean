import ParkIt.Lib.Prog

/-! Handlers that are put together from units, and what they inherit from them. -/
namespace Effects

variable {Op : Type} {Ans : Op → Type} {ε Γ : Type}

inductive Made (unit : {α : Type} → Prog Op Ans ε α → Prop) : {α : Type} → Prog Op Ans ε α → Prop
  | unit {α : Type} {p : Prog Op Ans ε α} : unit p → Made unit p
  | pure {α : Type} (a : α) : Made unit (Pure.pure a)
  | raise {α : Type} (e : ε) : Made unit (Prog.raise e : Prog Op Ans ε α)
  | bind {α β : Type} {p : Prog Op Ans ε α} {f : α → Prog Op Ans ε β} : Made unit p →
      (∀ a, Made unit (f a)) → Made unit (p >>= f)
  | handle {α : Type} {p : Prog Op Ans ε α} {h : ε → Prog Op Ans ε α} : Made unit p →
      (∀ e, Made unit (h e)) → Made unit (p.handle h)

section Made
variable {unit : {α : Type} → Prog Op Ans ε α → Prop} {α : Type} {p q : Prog Op Ans ε α}

theorem Made.ite {c : Prop} [Decidable c] (hp : Made unit p) (hq : Made unit q) :
    Made unit (if c then p else q) := by
  split
  · exact hp
  · exact hq

theorem Made.only {ok : Op → Prop} (hp : Made unit p)
    (hunit : ∀ {α : Type} {p : Prog Op Ans ε α}, unit p → Only ok (fun _ => True) p) :
    Only ok (fun _ => True) p := by
  induction hp with
  | unit h => exact hunit h
  | pure a => exact only_pure
  | raise e => trivial
  | bind _ _ ihp ihf => exact ihp.bind ihf
  | handle _ _ ihp ihh => exact ihp.handle fun e _ => ihh e

/-- What every unit keeps of a ghost state, the handler keeps. -/
theorem Made.follows {P : Protocol Op Ans Γ} {I : Γ → Prop} (hp : Made unit p)
    (hunit : ∀ {α : Type} {p : Prog Op Ans ε α}, unit p → ∀ g, I g →
      Follows P g p (fun g' _ => I g') fun g' _ => I g') {g : Γ} (hg : I g) :
    Follows P g p (fun g' _ => I g') fun g' _ => I g' := by
  induction hp generalizing g with
  | unit h => exact hunit h g hg
  | pure a => exact hg
  | raise e => exact hg
  | bind _ _ ihp ihf => exact (ihp hg).bind (fun _ _ h => h) fun _ a h => ihf a h
  | handle _ _ ihp ihh =>
    exact follows_handle.mpr ((ihp hg).mono (fun _ _ h => h) fun _ e h => ihh e h)

end Made
end Effects
