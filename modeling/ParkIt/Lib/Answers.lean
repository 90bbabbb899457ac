import ParkIt.Lib.Prog
import Mathlib.Data.List.Infix

/-! Handlers in an environment whose answers depend on everything that went before. -/
namespace Effects

variable {Op : Type} {Ans : Op → Type} {ε α β : Type}

theorem Prog.bind_assoc {γ : Type} (p : Prog Op Ans ε α) (f : α → Prog Op Ans ε β)
    (g : β → Prog Op Ans ε γ) : (p >>= f) >>= g = p >>= fun a => f a >>= g := by
  induction p with
  | pure a => rfl
  | throw e => rfl
  | call o k ih => exact congrArg (Prog.call o) (funext ih)

theorem Prog.bind_pure (p : Prog Op Ans ε α) : p >>= Pure.pure = p := by
  induction p with
  | pure a => rfl
  | throw e => rfl
  | call o k ih => exact congrArg (Prog.call o) (funext ih)

/-- An operation with its answer. -/
structure Exchange (Op : Type) (Ans : Op → Type) where
  op : Op
  answer : Ans op

abbrev Journal (Op : Type) (Ans : Op → Type) := List (Exchange Op Ans)

/-- What an operation is answered, given what was issued and answered before. -/
abbrev Answers (Op : Type) (Ans : Op → Type) := Journal Op Ans → (o : Op) → Ans o

namespace Answers
variable (env : Answers Op Ans)

def record (j : Journal Op Ans) (o : Op) : Journal Op Ans := j ++ [⟨o, env j o⟩]

def exec (o : Op) (j : Journal Op Ans) : Except ε (Ans o) × Journal Op Ans :=
  (.ok (env j o), env.record j o)

/-- From the journal `j` the handler `p` comes to a point where `q` is left, with the journal
`j'`. -/
inductive Reaches : Prog Op Ans ε α → Journal Op Ans → Prog Op Ans ε α → Journal Op Ans → Prop where
  | here (p : Prog Op Ans ε α) (j : Journal Op Ans) : Reaches p j p j
  | call {o : Op} {k : Ans o → Prog Op Ans ε α} {j : Journal Op Ans} {q : Prog Op Ans ε α}
      {j' : Journal Op Ans} : Reaches (k (env j o)) (env.record j o) q j' →
      Reaches (.call o k) j q j'

variable {env} {j j' j'' : Journal Op Ans} {p q r : Prog Op Ans ε α} {ok : Op → Prop}
  {raises : ε → Prop}

theorem run_call (o : Op) (k : Ans o → Prog Op Ans ε α) :
    (Prog.call o k).run env.exec j = (k (env j o)).run env.exec (env.record j o) := rfl

theorem ensures_perform {o : Op} {post : Ans o → Journal Op Ans → Prop}
    {err : ε → Journal Op Ans → Prop} :
    Prog.Ensures env.exec (Prog.perform o : Prog Op Ans ε (Ans o)) j post err ↔
      post (env j o) (env.record j o) := Iff.rfl

namespace Reaches

theorem trans (h : Reaches env p j q j') (h' : Reaches env q j' r j'') :
    Reaches env p j r j'' := by
  induction h with
  | here => exact h'
  | call _ ih => exact .call (ih h')

theorem bind {f : α → Prog Op Ans ε β} (h : Reaches env p j q j') :
    Reaches env (p >>= f) j (q >>= f) j' := by
  induction h with
  | here => exact .here _ _
  | call _ ih => exact .call ih

theorem grows (h : Reaches env p j q j') : j <+: j' := by
  induction h with
  | here => exact List.prefix_rfl
  | call _ ih => exact (List.prefix_append _ _).trans ih

/-- The rest of a run is the run of the rest. -/
theorem run_eq (h : Reaches env p j q j') : p.run env.exec j = q.run env.exec j' := by
  induction h with
  | here => rfl
  | call _ ih => exact ih

end Reaches

/-- A step that comes back leaves what follows it. -/
theorem reaches_of_run {a : α} {f : α → Prog Op Ans ε β} (h : p.run env.exec j = (.ok a, j')) :
    Reaches env (p >>= f) j (f a) j' := by
  induction p generalizing j with
  | pure b =>
    cases h
    exact .here _ _
  | throw e => cases h
  | call o k ih => exact .call (ih _ h)

theorem reaches_of_ensures {post : α → Journal Op Ans → Prop} {f : α → Prog Op Ans ε β}
    (h : Prog.Ensures env.exec p j post fun _ _ => False) :
    ∃ a j', Reaches env (p >>= f) j (f a) j' ∧ post a j' := by
  rcases hr : p.run env.exec j with ⟨e | a, j'⟩
  · exact (h.of_error hr).elim
  · exact ⟨a, j', reaches_of_run hr, h.of_ok hr⟩

/-- The environment answers everything, so that a handler catches what is raised in it. -/
theorem ensures_handle {h : ε → Prog Op Ans ε α} {post : α → Journal Op Ans → Prop}
    {err : ε → Journal Op Ans → Prop} :
    Prog.Ensures env.exec (p.handle h) j post err ↔
      Prog.Ensures env.exec p j post fun e j' => Prog.Ensures env.exec (h e) j' post err :=
  Effects.ensures_handle (only_any p) (fun _ _ _ => ⟨_, rfl⟩) j

theorem run_handle_ok {h : ε → Prog Op Ans ε α} {a : α} (hr : p.run env.exec j = (.ok a, j')) :
    (p.handle h).run env.exec j = (.ok a, j') := by
  rw [Prog.run_handle env.exec j p (fun _ _ _ _ he => by cases he), hr]

theorem run_handle_error {h : ε → Prog Op Ans ε α} {e : ε}
    (hr : p.run env.exec j = (.error e, j')) :
    (p.handle h).run env.exec j = (h e).run env.exec j' := by
  rw [Prog.run_handle env.exec j p (fun _ _ _ _ he => by cases he), hr]

/-- A run adds to its journal. -/
theorem prefix_run (p : Prog Op Ans ε α) (j : Journal Op Ans) : j <+: (p.run env.exec j).2 := by
  induction p generalizing j with
  | pure a => exact List.prefix_rfl
  | throw e => exact List.prefix_rfl
  | call o k ih => exact (List.prefix_append j _).trans (ih _ _)

theorem Reaches.mem_run (h : Reaches env p j q j') {x : Exchange Op Ans} (hx : x ∈ j') :
    x ∈ (p.run env.exec j).2 := by
  rw [h.run_eq]
  exact (prefix_run q j').subset hx

/-- What a handler adds to its journal is what it may issue. -/
theorem mem_of_only (h : Only ok raises p) {x : Exchange Op Ans}
    (hx : x ∈ (p.run env.exec j).2) : x ∈ j ∨ ok x.op := by
  induction p generalizing j with
  | pure a => exact Or.inl hx
  | throw e => exact Or.inl hx
  | call o k ih =>
    rcases ih (env j o) (h.2 _) hx with hx | hx
    · rcases List.mem_append.mp hx with hx | hx
      · exact Or.inl hx
      · exact Or.inr (List.mem_singleton.mp hx ▸ h.1)
    · exact Or.inr hx

/-- The journal grows by what the handler may issue. -/
theorem ensures_mem (h : Only ok raises p) :
    Prog.Ensures env.exec p j (fun _ j' => j <+: j' ∧ ∀ x ∈ j', x ∈ j ∨ ok x.op)
      fun e _ => raises e := by
  induction p generalizing j with
  | pure a => exact ⟨List.prefix_rfl, fun x hx => Or.inl hx⟩
  | throw e => exact h
  | call o k ih =>
    refine (ih (env j o) (h.2 _)).mono (fun a j' hj' => ?_) fun _ _ h => h
    refine ⟨(List.prefix_append j _).trans hj'.1, fun x hx => ?_⟩
    rcases hj'.2 x hx with hx | hx
    · rcases List.mem_append.mp hx with hx | hx
      · exact Or.inl hx
      · exact Or.inr (List.mem_singleton.mp hx ▸ h.1)
    · exact Or.inr hx

/-- What is left of a handler issues no more than the handler. -/
theorem Reaches.only (h : Only ok raises p) (hr : Reaches env p j q j') : Only ok raises q := by
  induction hr with
  | here => exact h
  | call _ ih => exact ih (h.2 _)

end Answers

theorem Only.of_bind {ok : Op → Prop} {raises : ε → Prop} {p : Prog Op Ans ε α}
    {f : α → Prog Op Ans ε β} (h : Only ok raises (p >>= f)) : Only ok raises p := by
  induction p with
  | pure a => trivial
  | throw e => exact h
  | call o k ih => exact ⟨h.1, fun a => ih a (h.2 a)⟩

end Effects
