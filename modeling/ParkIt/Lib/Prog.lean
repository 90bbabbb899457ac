import Mathlib.Logic.Basic

/-! Handlers as trees of operations: sequential runs, and protocols that a handler follows. -/
namespace Effects

variable {Op : Type} {Ans : Op → Type} {ε α β σ : Type}

/-- A handler answers, raises, or issues one operation and continues with its answer. -/
inductive Prog (Op : Type) (Ans : Op → Type) (ε α : Type) where
  | pure (a : α)
  | throw (e : ε)
  | call (o : Op) (k : Ans o → Prog Op Ans ε α)

namespace Prog

def bind : Prog Op Ans ε α → (α → Prog Op Ans ε β) → Prog Op Ans ε β
  | .pure a, f => f a
  | .throw e, _ => .throw e
  | .call o k, f => .call o fun a => (k a).bind f

instance : Monad (Prog Op Ans ε) where
  pure := Prog.pure
  bind := Prog.bind

def perform (o : Op) : Prog Op Ans ε (Ans o) := .call o .pure

def raise (e : ε) : Prog Op Ans ε α := .throw e

/-- `try: p except: h`, for the exceptions that the handler itself raises. -/
def handle : Prog Op Ans ε α → (ε → Prog Op Ans ε α) → Prog Op Ans ε α
  | .pure a, _ => .pure a
  | .throw e, h => h e
  | .call o k, h => .call o fun a => (k a).handle h

@[simp] theorem pure_bind' (a : α) (f : α → Prog Op Ans ε β) :
    (Pure.pure a : Prog Op Ans ε α) >>= f = f a := rfl

@[simp] theorem raise_bind (e : ε) (f : α → Prog Op Ans ε β) :
    (raise e : Prog Op Ans ε α) >>= f = raise e := rfl

theorem call_bind (o : Op) (k : Ans o → Prog Op Ans ε α) (f : α → Prog Op Ans ε β) :
    (Prog.call o k) >>= f = .call o fun a => k a >>= f := rfl

/-- A sequential run: each operation acts on the state at once and may fail. -/
def run (exec : (o : Op) → σ → Except ε (Ans o) × σ) : Prog Op Ans ε α → σ → Except ε α × σ
  | .pure a, s => (.ok a, s)
  | .throw e, s => (.error e, s)
  | .call o k, s =>
    match exec o s with
    | (.ok a, s') => (k a).run exec s'
    | (.error e, s') => (.error e, s')

section Run
variable (exec : (o : Op) → σ → Except ε (Ans o) × σ) (s : σ)

@[simp] theorem run_pure (a : α) : (Pure.pure a : Prog Op Ans ε α).run exec s = (.ok a, s) := rfl

@[simp] theorem run_raise (e : ε) : (raise e : Prog Op Ans ε α).run exec s = (.error e, s) := rfl

theorem run_call (o : Op) (k : Ans o → Prog Op Ans ε α) :
    (Prog.call o k).run exec s =
      match exec o s with
      | (.ok a, s') => (k a).run exec s'
      | (.error e, s') => (.error e, s') := by
  simp only [run]

@[simp] theorem run_perform (o : Op) :
    (perform o : Prog Op Ans ε (Ans o)).run exec s = exec o s := by
  rw [perform, run_call]
  rcases exec o s with ⟨e | a, s'⟩ <;> rfl

theorem run_bind (p : Prog Op Ans ε α) (f : α → Prog Op Ans ε β) :
    (p >>= f).run exec s =
      match p.run exec s with
      | (.ok a, s') => (f a).run exec s'
      | (.error e, s') => (.error e, s') := by
  induction p generalizing s with
  | pure a => rfl
  | throw e => rfl
  | call o k ih =>
    rw [call_bind, run_call, run_call]
    rcases exec o s with ⟨e | a, s'⟩
    · rfl
    · exact ih a s'

theorem run_bind_ok {p : Prog Op Ans ε α} {a : α} {s s' : σ} (f : α → Prog Op Ans ε β)
    (h : p.run exec s = (.ok a, s')) : (p >>= f).run exec s = (f a).run exec s' := by
  rw [run_bind, h]

theorem run_bind_error {p : Prog Op Ans ε α} {e : ε} {s s' : σ} (f : α → Prog Op Ans ε β)
    (h : p.run exec s = (.error e, s')) : (p >>= f).run exec s = (.error e, s') := by
  rw [run_bind, h]

/-- Failures of the operations themselves pass through a handler that reraises them. -/
theorem run_handle {h : ε → Prog Op Ans ε α} (p : Prog Op Ans ε α)
    (hexec : ∀ o s e s', exec o s = (.error e, s') → h e = raise e) :
    (p.handle h).run exec s =
      match p.run exec s with
      | (.ok a, s') => (.ok a, s')
      | (.error e, s') => (h e).run exec s' := by
  induction p generalizing s with
  | pure a => rfl
  | throw e => rfl
  | call o k ih =>
    simp only [handle, run_call]
    rcases ho : exec o s with ⟨e | a, s'⟩
    · simp [hexec o s e s' ho]
    · exact ih a s'

/-- A preorder that every operation respects relates the start of a run to its end. -/
theorem run_rel {R : σ → σ → Prop} (hrefl : ∀ s, R s s)
    (htrans : ∀ a b c, R a b → R b c → R a c) (hexec : ∀ o s, R s (exec o s).2)
    (p : Prog Op Ans ε α) : R s (p.run exec s).2 := by
  induction p generalizing s with
  | pure a => exact hrefl s
  | throw e => exact hrefl s
  | call o k ih =>
    have ho := hexec o s
    rw [run_call]
    rcases h : exec o s with ⟨e | a, s'⟩ <;> rw [h] at ho
    · exact ho
    · exact htrans _ _ _ ho (ih a s')

end Run

/-- The sequential run from `s` returns into `ok` or raises into `err`. -/
def Ensures (exec : (o : Op) → σ → Except ε (Ans o) × σ) (p : Prog Op Ans ε α) (s : σ)
    (ok : α → σ → Prop) (err : ε → σ → Prop) : Prop :=
  match p.run exec s with
  | (.ok a, s') => ok a s'
  | (.error e, s') => err e s'

section Ensures
variable {exec : (o : Op) → σ → Except ε (Ans o) × σ} {s s' : σ} {ok : α → σ → Prop}
  {err : ε → σ → Prop}

@[simp] theorem ensures_pure {a : α} :
    Ensures exec (Pure.pure a : Prog Op Ans ε α) s ok err ↔ ok a s := Iff.rfl

@[simp] theorem ensures_raise {e : ε} :
    Ensures exec (raise e : Prog Op Ans ε α) s ok err ↔ err e s := Iff.rfl

theorem ensures_bind {p : Prog Op Ans ε α} {f : α → Prog Op Ans ε β} {ok : β → σ → Prop} :
    Ensures exec (p >>= f) s ok err ↔
      Ensures exec p s (fun a s' => Ensures exec (f a) s' ok err) err := by
  unfold Ensures
  rw [run_bind]
  rcases p.run exec s with ⟨e | a, s'⟩ <;> rfl

theorem Ensures.mono {p : Prog Op Ans ε α} {ok' : α → σ → Prop} {err' : ε → σ → Prop}
    (h : Ensures exec p s ok err) (hok : ∀ a s', ok a s' → ok' a s')
    (herr : ∀ e s', err e s' → err' e s') : Ensures exec p s ok' err' := by
  unfold Ensures at *
  rcases hr : p.run exec s with ⟨e | a, s'⟩ <;> rw [hr] at h
  · exact herr e s' h
  · exact hok a s' h

theorem Ensures.and {p : Prog Op Ans ε α} {ok' : α → σ → Prop} {err' : ε → σ → Prop}
    (h : Ensures exec p s ok err) (h' : Ensures exec p s ok' err') :
    Ensures exec p s (fun a s' => ok a s' ∧ ok' a s') fun e s' => err e s' ∧ err' e s' := by
  unfold Ensures at *
  rcases hr : p.run exec s with ⟨e | a, s'⟩ <;> rw [hr] at h h' <;> exact ⟨h, h'⟩

/-- The rule for a step whose own contract is known. -/
theorem Ensures.bind {p : Prog Op Ans ε α} {f : α → Prog Op Ans ε β} {okp : α → σ → Prop}
    {errp : ε → σ → Prop} {ok : β → σ → Prop} (hp : Ensures exec p s okp errp)
    (herr : ∀ e s', errp e s' → err e s')
    (hf : ∀ a s', okp a s' → Ensures exec (f a) s' ok err) : Ensures exec (p >>= f) s ok err :=
  ensures_bind.mpr (hp.mono hf herr)

theorem ensures_true (p : Prog Op Ans ε α) :
    Ensures exec p s (fun _ _ => True) fun _ _ => True := by
  unfold Ensures
  rcases p.run exec s with ⟨e | a, s'⟩ <;> trivial

theorem Ensures.of_ok {p : Prog Op Ans ε α} {a : α} (h : Ensures exec p s ok err)
    (hr : p.run exec s = (.ok a, s')) : ok a s' := by
  simpa [Ensures, hr] using h

theorem Ensures.of_error {p : Prog Op Ans ε α} {e : ε} (h : Ensures exec p s ok err)
    (hr : p.run exec s = (.error e, s')) : err e s' := by
  simpa [Ensures, hr] using h

end Ensures
end Prog

/-- A protocol tracks, in a ghost state, what a handler has issued and been answered. -/
structure Protocol (Op : Type) (Ans : Op → Type) (Γ : Type) where
  /-- The operations that may be issued. -/
  allow : Γ → Op → Prop
  /-- The answers that have to be dealt with. -/
  expect : Γ → (o : Op) → Ans o → Prop
  next : Γ → (o : Op) → Ans o → Γ

variable {Γ : Type}

/-- The handler issues only allowed operations and ends in `post` or `err`, whatever is answered. -/
def Follows (P : Protocol Op Ans Γ) :
    Γ → Prog Op Ans ε α → (Γ → α → Prop) → (Γ → ε → Prop) → Prop
  | g, .pure a, post, _ => post g a
  | g, .throw e, _, err => err g e
  | g, .call o k, post, err =>
    P.allow g o ∧ ∀ a, P.expect g o a → Follows P (P.next g o a) (k a) post err

section Follows
variable {P : Protocol Op Ans Γ} {g : Γ} {post : Γ → β → Prop} {err : Γ → ε → Prop}

@[simp] theorem follows_pure {a : β} :
    Follows P g (Pure.pure a : Prog Op Ans ε β) post err ↔ post g a := Iff.rfl

@[simp] theorem follows_raise {e : ε} :
    Follows P g (Prog.raise e : Prog Op Ans ε β) post err ↔ err g e := Iff.rfl

@[simp] theorem follows_perform {o : Op} {post : Γ → Ans o → Prop} :
    Follows P g (Prog.perform o : Prog Op Ans ε (Ans o)) post err ↔
      P.allow g o ∧ ∀ a, P.expect g o a → post (P.next g o a) a := Iff.rfl

theorem follows_bind {p : Prog Op Ans ε α} {f : α → Prog Op Ans ε β} :
    Follows P g (p >>= f) post err ↔
      Follows P g p (fun g' a => Follows P g' (f a) post err) err := by
  induction p generalizing g with
  | pure a => rfl
  | throw e => rfl
  | call o k ih =>
    constructor
    · rintro ⟨ho, hk⟩
      exact ⟨ho, fun a ha => (ih a).mp (hk a ha)⟩
    · rintro ⟨ho, hk⟩
      exact ⟨ho, fun a ha => (ih a).mpr (hk a ha)⟩

/-- The rule for a branch. -/
theorem follows_ite {c : Prop} [Decidable c] {p q : Prog Op Ans ε β}
    (hp : c → Follows P g p post err) (hq : ¬ c → Follows P g q post err) :
    Follows P g (if c then p else q) post err := by
  split
  · exact hp ‹_›
  · exact hq ‹_›

theorem follows_handle {p : Prog Op Ans ε β} {h : ε → Prog Op Ans ε β} :
    Follows P g (p.handle h) post err ↔
      Follows P g p post fun g' e => Follows P g' (h e) post err := by
  induction p generalizing g with
  | pure a => rfl
  | throw e => rfl
  | call o k ih =>
    constructor
    · rintro ⟨ho, hk⟩
      exact ⟨ho, fun a ha => (ih a).mp (hk a ha)⟩
    · rintro ⟨ho, hk⟩
      exact ⟨ho, fun a ha => (ih a).mpr (hk a ha)⟩

theorem Follows.mono {post' : Γ → β → Prop} {err' : Γ → ε → Prop}
    {p : Prog Op Ans ε β} (h : Follows P g p post err) (hpost : ∀ g a, post g a → post' g a)
    (herr : ∀ g e, err g e → err' g e) : Follows P g p post' err' := by
  induction p generalizing g with
  | pure a => exact hpost g a h
  | throw e => exact herr g e h
  | call o k ih => exact ⟨h.1, fun a ha => ih a (h.2 a ha)⟩

/-- The rule for a step whose own protocol is known. -/
theorem Follows.bind {p : Prog Op Ans ε α} {f : α → Prog Op Ans ε β} {postp : Γ → α → Prop}
    {errp : Γ → ε → Prop} (hp : Follows P g p postp errp)
    (herr : ∀ g e, errp g e → err g e)
    (hf : ∀ g a, postp g a → Follows P g (f a) post err) : Follows P g (p >>= f) post err :=
  follows_bind.mpr (hp.mono hf herr)

/-- A run of allowed operations keeps to a preorder that each of them respects. -/
theorem Follows.run_rel {exec : (o : Op) → σ → Except ε (Ans o) × σ} {R : σ → σ → Prop}
    {p : Prog Op Ans ε β} (h : Follows P g p post err) (hexpect : ∀ g o a, P.expect g o a)
    (hrefl : ∀ s, R s s) (htrans : ∀ a b c, R a b → R b c → R a c)
    (hexec : ∀ g o s, P.allow g o → R s (exec o s).2) (s : σ) : R s (p.run exec s).2 := by
  induction p generalizing g s with
  | pure a => exact hrefl s
  | throw e => exact hrefl s
  | call o k ih =>
    have ho := hexec g o s h.1
    rw [Prog.run_call]
    rcases hr : exec o s with ⟨e | a, s'⟩ <;> rw [hr] at ho
    · exact ho
    · exact htrans _ _ _ ho (ih a (h.2 a (hexpect g o a)) s')

end Follows

/-- The handler issues only operations of one kind and raises only such exceptions. -/
def Only (ok : Op → Prop) (raises : ε → Prop) : Prog Op Ans ε α → Prop
  | .pure _ => True
  | .throw e => raises e
  | .call o k => ok o ∧ ∀ a, Only ok raises (k a)

section Only
variable {ok : Op → Prop} {raises raises' : ε → Prop}

theorem only_pure {a : α} : Only ok raises (Pure.pure a : Prog Op Ans ε α) := trivial

theorem only_perform {o : Op} (h : ok o) :
    Only ok raises (Prog.perform o : Prog Op Ans ε (Ans o)) := ⟨h, fun _ => trivial⟩

theorem Only.bind {p : Prog Op Ans ε α} {f : α → Prog Op Ans ε β} (hp : Only ok raises p)
    (hf : ∀ a, Only ok raises (f a)) : Only ok raises (p >>= f) := by
  induction p with
  | pure a => exact hf a
  | throw e => exact hp
  | call o k ih => exact ⟨hp.1, fun a => ih a (hp.2 a)⟩

theorem Only.mono {ok' : Op → Prop} {p : Prog Op Ans ε α} (hp : Only ok raises p)
    (hok : ∀ o, ok o → ok' o) (h : ∀ e, raises e → raises' e) : Only ok' raises' p := by
  induction p with
  | pure a => trivial
  | throw e => exact h e hp
  | call o k ih => exact ⟨hok o hp.1, fun a => ih a (hp.2 a)⟩

/-- Operations that a protocol does not notice leave its ghost state alone. -/
theorem Only.follows {P : Protocol Op Ans Γ} {g : Γ} {p : Prog Op Ans ε α}
    (h : Only ok raises p) (hP : ∀ o, ok o → P.allow g o ∧ ∀ a, P.next g o a = g) :
    Follows P g p (fun g' _ => g' = g) (fun g' e => g' = g ∧ raises e) := by
  induction p with
  | pure a => rfl
  | throw e => exact ⟨rfl, h⟩
  | call o k ih =>
    obtain ⟨ho, hk⟩ := h
    obtain ⟨hallow, hnext⟩ := hP o ho
    exact ⟨hallow, fun a _ => by rw [hnext a]; exact ih a (hk a)⟩

/-- Operations whose answers move the ghost state along a preorder. -/
theorem Only.follows_rel {P : Protocol Op Ans Γ} {R : Γ → Γ → Prop} {g : Γ}
    {p : Prog Op Ans ε α} (h : Only ok raises p) (hrefl : ∀ g, R g g)
    (htrans : ∀ a b c, R a b → R b c → R a c)
    (hP : ∀ g o, ok o → P.allow g o ∧ ∀ a, R g (P.next g o a)) :
    Follows P g p (fun g' _ => R g g') (fun g' e => R g g' ∧ raises e) := by
  induction p generalizing g with
  | pure a => exact hrefl g
  | throw e => exact ⟨hrefl g, h⟩
  | call o k ih =>
    obtain ⟨hallow, hnext⟩ := hP g o h.1
    refine ⟨hallow, fun a _ => (ih a (h.2 a)).mono (fun _ _ h' => ?_) fun _ _ h' => ⟨?_, h'.2⟩⟩
    · exact htrans _ _ _ (hnext a) h'
    · exact htrans _ _ _ (hnext a) h'.1

/-- Operations that respect a preorder take a run from its start to a related end. -/
theorem Only.ensures {exec : (o : Op) → σ → Except ε (Ans o) × σ} {R : σ → σ → Prop}
    {p : Prog Op Ans ε α} (h : Only ok raises p) (hrefl : ∀ s, R s s)
    (htrans : ∀ a b c, R a b → R b c → R a c) (hexec : ∀ o s, ok o → R s (exec o s).2) (s : σ) :
    Prog.Ensures exec p s (fun _ s' => R s s') fun _ s' => R s s' := by
  induction p generalizing s with
  | pure a => exact hrefl s
  | throw e => exact hrefl s
  | call o k ih =>
    have ho := hexec o s h.1
    unfold Prog.Ensures
    rw [Prog.run_call]
    rcases hr : exec o s with ⟨e | a, s'⟩ <;> rw [hr] at ho
    · exact ho
    · exact (ih a (h.2 a) s').mono (fun _ _ h' => htrans _ _ _ ho h') fun _ _ h' =>
        htrans _ _ _ ho h'

theorem Only.handle {p : Prog Op Ans ε α} {h : ε → Prog Op Ans ε α} (hp : Only ok raises p)
    (hh : ∀ e, raises e → Only ok raises' (h e)) : Only ok raises' (p.handle h) := by
  induction p with
  | pure a => trivial
  | throw e => exact hh e hp
  | call o k ih => exact ⟨hp.1, fun a => ih a (hp.2 a)⟩

theorem only_any (p : Prog Op Ans ε α) : Only (fun _ => True) (fun _ => True) p := by
  induction p with
  | pure a => trivial
  | throw e => trivial
  | call o k ih => exact ⟨trivial, ih⟩

/-- An exception of a handler whose operations do not fail is caught. -/
theorem ensures_handle {exec : (o : Op) → σ → Except ε (Ans o) × σ} {p : Prog Op Ans ε α}
    {h : ε → Prog Op Ans ε α} {post : α → σ → Prop} {err : ε → σ → Prop} (hp : Only ok raises p)
    (hexec : ∀ o s, ok o → ∃ a, (exec o s).1 = .ok a) (s : σ) :
    Prog.Ensures exec (p.handle h) s post err ↔
      Prog.Ensures exec p s post fun e s' => Prog.Ensures exec (h e) s' post err := by
  induction p generalizing s with
  | pure a => rfl
  | throw e => rfl
  | call o k ih =>
    obtain ⟨a, ha⟩ := hexec o s hp.1
    have hrun : exec o s = (.ok a, (exec o s).2) := Prod.ext ha rfl
    have hhandle : (Prog.call o k).handle h = .call o fun a => (k a).handle h := rfl
    have hleft :
        ((Prog.call o k).handle h).run exec s = ((k a).handle h).run exec (exec o s).2 := by
      rw [hhandle, Prog.run_call, hrun]
    have hright : (Prog.call o k).run exec s = (k a).run exec (exec o s).2 := by
      rw [Prog.run_call, hrun]
    unfold Prog.Ensures
    rw [hleft, hright]
    exact ih a (hp.2 a) _

end Only

section Relabel
variable {Op' : Type} {Ans' : Op' → Type} {ε' : Type}

/-- The handler with its operations and exceptions under other names. -/
def Prog.relabel (f : Op → Op') (ans : ∀ o, Ans' (f o) → Ans o) (exc : ε → ε') :
    Prog Op Ans ε α → Prog Op' Ans' ε' α
  | .pure a => .pure a
  | .throw e => .throw (exc e)
  | .call o k => .call (f o) fun a => (k (ans o a)).relabel f ans exc

/-- A protocol that says the same of the operations under their other names. -/
theorem Follows.relabel {P : Protocol Op Ans Γ} {P' : Protocol Op' Ans' Γ} {g : Γ}
    {p : Prog Op Ans ε α} {post : Γ → α → Prop} {err : Γ → ε → Prop} {err' : Γ → ε' → Prop}
    {f : Op → Op'} {ans : ∀ o, Ans' (f o) → Ans o} {exc : ε → ε'} (h : Follows P g p post err)
    (hallow : ∀ g o, P.allow g o → P'.allow g (f o))
    (hexpect : ∀ g o a, P'.expect g (f o) a → P.expect g o (ans o a))
    (hnext : ∀ g o a, P'.next g (f o) a = P.next g o (ans o a))
    (herr : ∀ g e, err g e → err' g (exc e)) :
    Follows P' g (p.relabel f ans exc) post err' := by
  induction p generalizing g with
  | pure a => exact h
  | throw e => exact herr g e h
  | call o k ih =>
    refine ⟨hallow g o h.1, fun a ha => ?_⟩
    rw [hnext]
    exact ih (ans o a) (h.2 (ans o a) (hexpect g o a ha))

end Relabel
end Effects
