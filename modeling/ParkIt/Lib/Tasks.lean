import ParkIt.Lib.Path
import ParkIt.Lib.Prog
import Mathlib.Logic.Function.Basic

/-! Tasks of an event loop: one of them runs at a time, and others get on only where it waits. -/
namespace Tasks

open Effects Transition

variable {ι κ Op : Type} {Ans : Op → Type} {ε σ ω Γ : Type}

/-- An operation with what it was answered. -/
structure Event (Op : Type) (Ans : Op → Type) where
  op : Op
  ans : Ans op

/-- What the task was started for, what it has left to do, and what it has done, oldest first. -/
structure Task (κ Op : Type) (Ans : Op → Type) (ε : Type) where
  cause : κ
  rest : Prog Op Ans ε Unit
  past : List (Event Op Ans) := []

/-- `running` is the task that has to get to its next wait before any other one goes on. -/
structure Sys (ι κ Op : Type) (Ans : Op → Type) (ε σ : Type) where
  shared : σ
  task : ι → Option (Task κ Op Ans ε) := fun _ => none
  running : Option ι := none

inductive Label (ι κ Op : Type) (Ans : Op → Type) where
  | start (i : ι) (c : κ)
  | go (i : ι) (e : Event Op Ans)
  | stop (i : ι)
  | outside

structure Loop (ι κ Op : Type) (Ans : Op → Type) (ε σ ω : Type) where
  code : κ → Prog Op Ans ε Unit
  /-- The operations at which a task waits. -/
  waits : Op → Bool
  /-- What an operation answers and does; what is not known of it comes from the oracle. -/
  perform : (o : Op) → ω → σ → Ans o × σ
  /-- What is left when a task is started; not every task can be started. -/
  starts : ι → κ → σ → Option σ
  /-- The task has been cancelled. -/
  cancelled : ι → σ → Bool
  outside : σ → σ → Prop

/-- The task goes on without a wait. -/
def Loop.busy (L : Loop ι κ Op Ans ε σ ω) : Prog Op Ans ε Unit → Bool
  | .call o _ => !L.waits o
  | _ => false

def ended : Prog Op Ans ε Unit → Bool
  | .call _ _ => false
  | _ => true

namespace Sys
variable [DecidableEq ι] (s : Sys ι κ Op Ans ε σ) (i : ι)

/-- Nobody else is on its way to its next wait. -/
def Free : Prop := ∀ j, s.running = some j → j = i

instance : Decidable (s.Free i) :=
  match h : s.running with
  | none => .isTrue fun j hj => by rw [h] at hj; cases hj
  | some j =>
    if hij : j = i then .isTrue fun k hk => by rw [h] at hk; cases hk; exact hij
    else .isFalse fun hfree => hij (hfree j h)

def set (L : Loop ι κ Op Ans ε σ ω) (sh : σ) (t : Task κ Op Ans ε) : Sys ι κ Op Ans ε σ where
  shared := sh
  task := Function.update s.task i (some t)
  running := if L.busy t.rest then some i else none

def drop : Sys ι κ Op Ans ε σ :=
  { s with task := Function.update s.task i none }

end Sys

inductive Step [DecidableEq ι] (L : Loop ι κ Op Ans ε σ ω) :
    Sys ι κ Op Ans ε σ → Label ι κ Op Ans → Sys ι κ Op Ans ε σ → Prop
  | start {s i c sh} : s.task i = none → s.running = none → L.starts i c s.shared = some sh →
      Step L s (.start i c) (s.set i L sh ⟨c, L.code c, []⟩)
  | go {s i c o k past x a sh} : s.task i = some ⟨c, .call o k, past⟩ → s.Free i →
      L.cancelled i s.shared = false → L.perform o x s.shared = (a, sh) →
      Step L s (.go i ⟨o, a⟩) (s.set i L sh ⟨c, k a, past ++ [⟨o, a⟩]⟩)
  | stop {s i t} : s.task i = some t → s.running = none →
      (ended t.rest = true ∨ L.cancelled i s.shared = true) → Step L s (.stop i) (s.drop i)
  | outside {s sh} : L.outside s.shared sh → Step L s .outside { s with shared := sh }

/-- The note that a protocol makes of what a task has done. -/
def Task.note (P : Protocol Op Ans Γ) (g : κ → Γ) (t : Task κ Op Ans ε) : Γ :=
  t.past.foldl (fun g e => P.next g e.op e.ans) (g t.cause)

section Past
variable {next : Γ → (o : Op) → Ans o → Γ} {β : Type}

/-- What no operation changes is as it was at the start. -/
theorem past_const (f : Γ → β) (hf : ∀ g o a, f (next g o a) = f g) (past : List (Event Op Ans))
    (g : Γ) : f (past.foldl (fun g e => next g e.op e.ans) g) = f g := by
  induction past generalizing g with
  | nil => rfl
  | cons e past ih => exact (ih _).trans (hf g e.op e.ans)

/-- A log that some operations add to. -/
theorem past_log (f : Γ → List β) (log : Event Op Ans → Option β)
    (hf : ∀ g e, f (next g e.op e.ans) = f g ++ (log e).toList) (past : List (Event Op Ans))
    (g : Γ) : f (past.foldl (fun g e => next g e.op e.ans) g) = f g ++ past.filterMap log := by
  induction past generalizing g with
  | nil => exact (List.append_nil _).symm
  | cons e past ih =>
    rw [List.foldl_cons, ih, hf, List.append_assoc]
    cases hlog : log e <;> simp [hlog]

end Past

/-- What every task has left to do keeps to the protocol. -/
def InProtocol (P : Protocol Op Ans Γ) (g : κ → Γ) (post : κ → Γ → Prop)
    (s : Sys ι κ Op Ans ε σ) : Prop :=
  ∀ i t, s.task i = some t →
    Follows P (t.note P g) t.rest (fun g' _ => post t.cause g') fun g' _ => post t.cause g'

/-- The same, with what a task comes to where it raises. -/
def Obeys (P : Protocol Op Ans Γ) (g : κ → Γ) (post err : κ → Γ → Prop)
    (s : Sys ι κ Op Ans ε σ) : Prop :=
  ∀ i t, s.task i = some t →
    Follows P (t.note P g) t.rest (fun g' _ => post t.cause g') fun g' _ => err t.cause g'

/-- Only the task on its way to its next wait is in the middle of something. -/
def OneBusy (L : Loop ι κ Op Ans ε σ ω) (s : Sys ι κ Op Ans ε σ) : Prop :=
  ∀ i t, s.task i = some t → L.busy t.rest = true → s.running = some i

/-- What happens when a task goes on. -/
structure Took (L : Loop ι κ Op Ans ε σ ω) (s s' : Sys ι κ Op Ans ε σ) (i : ι) (o : Op) (a : Ans o)
    (t t' : Task κ Op Ans ε) : Prop where
  before : s.task i = some t
  asks : ∃ k, t.rest = .call o k ∧ t'.rest = k a
  free : s.Free i
  alive : L.cancelled i s.shared = false
  effect : ∃ x, L.perform o x s.shared = (a, s'.shared)
  after : s'.task i = some t'
  others : ∀ j, j ≠ i → s'.task j = s.task j
  cause : t'.cause = t.cause
  past : t'.past = t.past ++ [⟨o, a⟩]

section Took
variable {L : Loop ι κ Op Ans ε σ ω} {s s' : Sys ι κ Op Ans ε σ} {i j : ι} {o : Op} {a : Ans o}
  {t t' : Task κ Op Ans ε} {P : Protocol Op Ans Γ} {g : κ → Γ}

theorem Took.note (P : Protocol Op Ans Γ) (g : κ → Γ) (h : Took L s s' i o a t t') :
    t'.note P g = P.next (t.note P g) o a := by
  rw [Task.note, Task.note, h.cause, h.past, List.foldl_append]
  rfl

/-- The task keeps to the protocol, so the operation is an allowed one. -/
theorem Took.allowed {post err : κ → Γ → Prop} (h : Took L s s' i o a t t')
    (hs : Obeys P g post err s) : P.allow (t.note P g) o := by
  obtain ⟨k, hrest, -⟩ := h.asks
  have hfollows := hs i t h.before
  rw [hrest] at hfollows
  exact hfollows.1

theorem Took.allow {post : κ → Γ → Prop} (h : Took L s s' i o a t t') (hs : InProtocol P g post s) :
    P.allow (t.note P g) o :=
  h.allowed hs

/-- Where one task goes on, no other one is in the middle of something. -/
theorem Took.idle (h : Took L s s' i o a t t') (hs : OneBusy L s)
    {v : Task κ Op Ans ε} (hj : s.task j = some v) (hne : j ≠ i) : L.busy v.rest = false := by
  by_contra hbusy
  exact hne (h.free j (hs j v hj (by simpa using hbusy)))

end Took

section Steps
variable [DecidableEq ι] {L : Loop ι κ Op Ans ε σ ω} {s s' : Sys ι κ Op Ans ε σ}
  {l : Label ι κ Op Ans} {i j : ι} {sh : σ} {t u : Task κ Op Ans ε}

@[simp] theorem set_shared : (s.set i L sh t).shared = sh := rfl

@[simp] theorem drop_shared : (s.drop i).shared = s.shared := rfl

@[simp] theorem drop_running : (s.drop i).running = s.running := rfl

@[simp] theorem task_set_self : (s.set i L sh t).task i = some t := Function.update_self ..

theorem task_set (h : (s.set i L sh t).task j = some u) :
    j = i ∧ u = t ∨ j ≠ i ∧ s.task j = some u := by
  by_cases hj : j = i
  · subst hj
    rw [task_set_self] at h
    exact Or.inl ⟨rfl, (Option.some.inj h).symm⟩
  · exact Or.inr ⟨hj, by simpa [Sys.set, hj] using h⟩

theorem task_drop (h : (s.drop i).task j = some u) : j ≠ i ∧ s.task j = some u := by
  by_cases hj : j = i
  · subst hj
    simp [Sys.drop] at h
  · exact ⟨hj, by simpa [Sys.drop, hj] using h⟩

theorem note_append (P : Protocol Op Ans Γ) (g : κ → Γ) {c : κ} {k k' : Prog Op Ans ε Unit}
    {past : List (Event Op Ans)} {e : Event Op Ans} :
    (⟨c, k', past ++ [e]⟩ : Task κ Op Ans ε).note P g =
      P.next ((⟨c, k, past⟩ : Task κ Op Ans ε).note P g) e.op e.ans := by
  simp [Task.note]

theorem took {o : Op} {a : Ans o} (h : Step L s (.go i ⟨o, a⟩) s') :
    ∃ t t', Took L s s' i o a t t' := by
  cases h with
  | go hi hfree halive ha =>
    refine ⟨_, _, hi, ⟨_, rfl, rfl⟩, hfree, halive, ⟨_, ha⟩, task_set_self, ?_, rfl, rfl⟩
    exact fun j hj => Function.update_of_ne hj ..

/-- What holds of every task. -/
def Each (I : σ → ι → Task κ Op Ans ε → Prop) (s : Sys ι κ Op Ans ε σ) : Prop :=
  ∀ i t, s.task i = some t → I s.shared i t

/-- The task that makes the step, if a task makes it. -/
def Label.actor : Label ι κ Op Ans → Option ι
  | .start i _ | .go i _ | .stop i => some i
  | .outside => none

/-- Where a task comes from. -/
theorem task_back (h : Step L s l s') (hu : s'.task j = some u) :
    (s.task j = some u ∧ l.actor ≠ some j) ∨
    (∃ c, l = .start j c ∧ L.starts j c s.shared = some s'.shared ∧ u = ⟨c, L.code c, []⟩) ∨
    ∃ o a t, l = .go j ⟨o, a⟩ ∧ Took L s s' j o a t u := by
  have hstep := h
  cases h with
  | start _ _ hsh =>
    rcases task_set hu with ⟨rfl, rfl⟩ | ⟨hne, hu⟩
    · exact Or.inr (Or.inl ⟨_, rfl, hsh, rfl⟩)
    · exact Or.inl ⟨hu, fun h => hne (Option.some.inj h).symm⟩
  | go _ _ _ _ =>
    rcases task_set hu with ⟨rfl, rfl⟩ | ⟨hne, hu⟩
    · obtain ⟨t, t', ht⟩ := took hstep
      cases (task_set_self).symm.trans ht.after
      exact Or.inr (Or.inr ⟨_, _, _, rfl, ht⟩)
    · exact Or.inl ⟨hu, fun h => hne (Option.some.inj h).symm⟩
  | stop _ _ _ =>
    obtain ⟨hne, hu⟩ := task_drop hu
    exact Or.inl ⟨hu, fun h => hne (Option.some.inj h).symm⟩
  | outside _ => exact Or.inl ⟨hu, nofun⟩

/-- The tasks that do not make the step stay as they are. -/
theorem task_other (h : Step L s l s') (hl : l.actor ≠ some j) : s'.task j = s.task j := by
  have hne : ∀ {i}, l.actor = some i → j ≠ i := fun hi hj => hl (hj ▸ hi)
  cases h with
  | start _ _ _ => exact Function.update_of_ne (hne rfl) ..
  | go _ _ _ _ => exact Function.update_of_ne (hne rfl) ..
  | stop _ _ _ => exact Function.update_of_ne (hne rfl) ..
  | outside _ => rfl

/-- Where a task goes. -/
theorem task_forth (h : Step L s l s') (hi : s.task i = some t) :
    (s'.task i = some t ∧ l.actor ≠ some i) ∨
    (∃ o a t', l = .go i ⟨o, a⟩ ∧ Took L s s' i o a t t') ∨
    (l = .stop i ∧ s'.task i = none ∧ (ended t.rest = true ∨ L.cancelled i s.shared = true)) := by
  by_cases hl : l.actor = some i
  · cases l with
    | start j c =>
      obtain rfl : j = i := Option.some.inj hl
      cases h with
      | start hnone _ _ => cases hnone.symm.trans hi
    | go j e =>
      obtain rfl : j = i := Option.some.inj hl
      obtain ⟨o, a⟩ := e
      obtain ⟨u, t', ht⟩ := took h
      obtain rfl := Option.some.inj (hi.symm.trans ht.before)
      exact Or.inr (Or.inl ⟨o, a, t', rfl, ht⟩)
    | stop j =>
      obtain rfl : j = i := Option.some.inj hl
      cases h with
      | stop hj _ hended =>
        cases hj.symm.trans hi
        exact Or.inr (Or.inr ⟨rfl, Function.update_self .., hended⟩)
    | outside => cases hl
  · exact Or.inl ⟨(task_other h hl).trans hi, hl⟩

/-- A task that is still there has gone on, or is as it was. -/
theorem task_stays (h : Step L s l s') (hi : s.task i = some t)
    (hstays : (s'.task i).isSome = true) :
    s'.task i = some t ∨ ∃ o a t', l = .go i ⟨o, a⟩ ∧ Took L s s' i o a t t' := by
  rcases task_forth h hi with ⟨hi, -⟩ | hgo | ⟨-, hnone, -⟩
  · exact Or.inl hi
  · exact Or.inr hgo
  · rw [hnone] at hstays
    cases hstays

theorem each_step {I : σ → ι → Task κ Op Ans ε → Prop} (h : Step L s l s') (hs : Each I s)
    (hstart : ∀ i c, l = .start i c → L.starts i c s.shared = some s'.shared →
      I s'.shared i ⟨c, L.code c, []⟩)
    (hgo : ∀ i o a t t', l = .go i ⟨o, a⟩ → Took L s s' i o a t t' → I s.shared i t →
      I s'.shared i t')
    (hother : ∀ j u, l.actor ≠ some j → s.task j = some u → I s.shared j u → I s'.shared j u) :
    Each I s' := by
  intro j u hu
  rcases task_back h hu with ⟨hu, hl⟩ | ⟨c, hl, hsh, rfl⟩ | ⟨o, a, t, hl, ht⟩
  · exact hother j u hl hu (hs j u hu)
  · exact hstart j c hl hsh
  · exact hgo j o a t u hl ht (hs j t ht.before)

theorem obeys_step {P : Protocol Op Ans Γ} {g : κ → Γ} {post err : κ → Γ → Prop}
    (hcode : ∀ c, Follows P (g c) (L.code c) (fun g' _ => post c g') fun g' _ => err c g')
    (hexpect : ∀ g o x sh, P.expect g o (L.perform o x sh).1)
    (h : Step L s l s') (hs : Obeys P g post err s) : Obeys P g post err s' := by
  intro j u hu
  cases h with
  | start _ _ _ =>
    rcases task_set hu with ⟨-, rfl⟩ | ⟨-, hu⟩
    · exact hcode _
    · exact hs j u hu
  | go hi _ _ ha =>
    rcases task_set hu with ⟨-, rfl⟩ | ⟨-, hu⟩
    · have hrest := (hs _ _ hi).2 _ (by have hx := hexpect; exact ha ▸ hx _ _ _ _)
      rw [note_append]
      exact hrest
    · exact hs j u hu
  | stop _ _ _ => exact hs j u (task_drop hu).2
  | outside _ => exact hs j u hu

theorem inProtocol_step {P : Protocol Op Ans Γ} {g : κ → Γ} {post : κ → Γ → Prop}
    (hcode : ∀ c, Follows P (g c) (L.code c) (fun g' _ => post c g') fun g' _ => post c g')
    (hexpect : ∀ g o x sh, P.expect g o (L.perform o x sh).1)
    (h : Step L s l s') (hs : InProtocol P g post s) : InProtocol P g post s' :=
  obeys_step hcode hexpect h hs

theorem oneBusy_step (h : Step L s l s') (hs : OneBusy L s) : OneBusy L s' := by
  intro j u hu hbusy
  cases h with
  | start _ hnone _ =>
    rcases task_set hu with ⟨rfl, rfl⟩ | ⟨-, hu⟩
    · exact if_pos hbusy
    · exact absurd (hs j u hu hbusy) (by rw [hnone]; nofun)
  | go hi hfree _ _ =>
    rcases task_set hu with ⟨rfl, rfl⟩ | ⟨hne, hu⟩
    · exact if_pos hbusy
    · exact absurd (hfree j (hs j u hu hbusy)) hne
  | stop _ _ _ => exact hs j u (task_drop hu).2 hbusy
  | outside _ => exact hs j u hu hbusy

end Steps

/-- A run that is written down turn by turn. -/
inductive Turn (ι κ σ ω : Type) where
  | start (i : ι) (c : κ)
  | go (i : ι) (x : ω)
  | stop (i : ι)
  | outside (f : σ → σ)

section Schedule
variable [DecidableEq ι] (L : Loop ι κ Op Ans ε σ ω)

def takeTurn (s : Sys ι κ Op Ans ε σ) :
    Turn ι κ σ ω → Option (Label ι κ Op Ans × Sys ι κ Op Ans ε σ)
  | .start i c =>
    if (s.task i).isNone && s.running.isNone then
      (L.starts i c s.shared).map fun sh => (.start i c, s.set i L sh ⟨c, L.code c, []⟩)
    else none
  | .go i x =>
    match s.task i with
    | some ⟨c, .call o k, past⟩ =>
      if s.Free i ∧ L.cancelled i s.shared = false then
        let (a, sh) := L.perform o x s.shared
        some (.go i ⟨o, a⟩, s.set i L sh ⟨c, k a, past ++ [⟨o, a⟩]⟩)
      else none
    | _ => none
  | .stop i =>
    match s.task i with
    | some t =>
      if s.running.isNone && (ended t.rest || L.cancelled i s.shared) then
        some (.stop i, s.drop i)
      else none
    | none => none
  | .outside f => some (.outside, { s with shared := f s.shared })

/-- Turns that are not possible are skipped. -/
def takeTurns : Sys ι κ Op Ans ε σ → List (Turn ι κ σ ω) →
    List (Label ι κ Op Ans × Sys ι κ Op Ans ε σ)
  | _, [] => []
  | s, x :: xs =>
    match takeTurn L s x with
    | some (l, s') => (l, s') :: takeTurns s' xs
    | none => takeTurns s xs

theorem takeTurn_step {s s' : Sys ι κ Op Ans ε σ} {l : Label ι κ Op Ans} {x : Turn ι κ σ ω}
    (houtside : ∀ f, x = .outside f → ∀ sh, L.outside sh (f sh))
    (h : takeTurn L s x = some (l, s')) : Step L s l s' := by
  cases x with
  | start i c =>
    simp only [takeTurn] at h
    split at h
    · rename_i hnone
      rw [Bool.and_eq_true, Option.isNone_iff_eq_none, Option.isNone_iff_eq_none] at hnone
      obtain ⟨sh, hsh, heq⟩ := Option.map_eq_some_iff.mp h
      cases heq
      exact .start hnone.1 hnone.2 hsh
    · cases h
  | go i x =>
    simp only [takeTurn] at h
    split at h
    · split at h
      · rename_i hfree
        cases h
        exact .go ‹_› hfree.1 hfree.2 rfl
      · cases h
    · cases h
  | stop i =>
    simp only [takeTurn] at h
    split at h
    · split at h
      · rename_i hend
        rw [Bool.and_eq_true, Option.isNone_iff_eq_none, Bool.or_eq_true] at hend
        cases h
        exact .stop ‹_› hend.1 hend.2
      · cases h
    · cases h
  | outside f =>
    cases h
    exact .outside (houtside f rfl _)

theorem takeTurns_path {s : Sys ι κ Op Ans ε σ} {xs : List (Turn ι κ σ ω)}
    (houtside : ∀ f, .outside f ∈ xs → ∀ sh, L.outside sh (f sh)) :
    Path (Step L) s (takeTurns L s xs) := by
  induction xs generalizing s with
  | nil => trivial
  | cons x xs ih =>
    have hrest : ∀ {s : Sys ι κ Op Ans ε σ}, Path (Step L) s (takeTurns L s xs) :=
      ih fun f h => houtside f (List.mem_cons_of_mem _ h)
    unfold takeTurns
    split
    · refine ⟨takeTurn_step L (fun f hf => ?_) ‹_›, hrest⟩
      exact houtside f (hf ▸ List.mem_cons_self)
    · exact hrest

end Schedule
end Tasks
