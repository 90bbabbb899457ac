import Mathlib.Algebra.Group.Nat.Defs
import ParkIt.Lib.Path
import ParkIt.Lib.Prog

/-! The supervisor of a subtask of the bridge, which starts it again whenever it ends. -/
namespace ParkIt.Booth

open Effects Transition

/-- How a run of the subtask ends. -/
inductive TaskEnd where
  | returned
  | crashed (error : String)
  | cancelled
deriving DecidableEq, Repr

/-- The operations of the supervisor, with times in milliseconds; a sleep answers whether it was
slept through or cancelled. -/
inductive SuperOp where
  | time
  | factory
  | sleep (ms : Nat)
deriving DecidableEq, Repr

abbrev SuperOp.Ans : SuperOp → Type
  | .time => Int
  | .factory => TaskEnd
  | .sleep _ => Bool

inductive CancelledError where
  | cancelled
deriving DecidableEq, Repr

abbrev Supervising (α : Type) := Prog SuperOp SuperOp.Ans CancelledError α

def initialBackoff : Nat := 1000
def maxBackoff : Nat := 30000

/-- A run of this length counts as recovered. -/
def healthyRun : Int := 60000

section Code
variable (initial max : Nat)

/-- One turn of the loop, which leaves the backoff of the next one. -/
def superviseTurn (backoff : Nat) : Supervising Nat := do
  let started ← Prog.perform (.time : SuperOp)
  match ← Prog.perform (.factory : SuperOp) with
  | .returned => pure backoff
  | .cancelled => Prog.raise .cancelled
  | .crashed _ =>
    let ranFor := (← Prog.perform (.time : SuperOp)) - started
    let backoff := if healthyRun ≤ ranFor then initial else backoff
    if ← Prog.perform (.sleep backoff : SuperOp) then pure (min (backoff * 2) max)
    else Prog.raise .cancelled

end Code

/-- A run of the subtask, and whether the sleep after it is slept through. -/
structure Turn where
  started : Int
  ended : Int
  outcome : TaskEnd
  woken : Bool := true
deriving DecidableEq, Repr

namespace Turn

def ran (t : Turn) : Int := t.ended - t.started

def Crashed (t : Turn) : Prop := ∃ error, t.outcome = .crashed error

/-- The turn is cancelled while the subtask runs or in the sleep after it. -/
def Cancelled (t : Turn) : Prop := t.outcome = .cancelled ∨ t.Crashed ∧ t.woken = false

/-- What the turn has asked for so far. -/
structure Asked where
  begun : Bool := false
  delay : Nat := 0
deriving DecidableEq, Repr

def exec (t : Turn) (o : SuperOp) (w : Asked) : Except CancelledError o.Ans × Asked :=
  match o with
  | .time => (.ok (if w.begun then t.ended else t.started), { w with begun := true })
  | .factory => (.ok t.outcome, w)
  | .sleep ms => (.ok t.woken, { w with delay := ms })

/-- The backoff that a turn leaves, or its cancellation, and the delay before the next turn. -/
def take (initial max backoff : Nat) (t : Turn) : Except CancelledError Nat × Nat :=
  let (r, w) := (superviseTurn initial max backoff).run t.exec {}
  (r, w.delay)

end Turn

/-- The supervisor between two turns, with its turns so far and the delay after each of them. -/
structure Supervisor where
  backoff : Nat
  past : List (Turn × Nat) := []
  stopped : Bool := false
deriving DecidableEq, Repr

def Supervisor.after (initial max : Nat) (s : Supervisor) (t : Turn) : Supervisor :=
  match t.take initial max s.backoff with
  | (.ok backoff, delay) => ⟨backoff, s.past ++ [(t, delay)], false⟩
  | (.error _, delay) => ⟨s.backoff, s.past ++ [(t, delay)], true⟩

def SuperStep (initial max : Nat) (s : Supervisor) (t : Turn) (s' : Supervisor) : Prop :=
  s.stopped = false ∧ s' = s.after initial max t

instance (initial max : Nat) (s : Supervisor) (t : Turn) (s' : Supervisor) :
    Decidable (SuperStep initial max s t s') :=
  inferInstanceAs (Decidable (_ ∧ _))

/-- The crashes since the last run of a minute, with that run where it crashed. -/
def streak : List (Turn × Nat) → Nat :=
  List.foldl (fun k x =>
    match x.1.outcome with
    | .crashed _ => if healthyRun ≤ x.1.ran then 1 else k + 1
    | _ => if healthyRun ≤ x.1.ran then 0 else k) 0

/-- The delay that belongs to a crash after `k` others. -/
def crashDelay (initial max : Nat) (t : Turn) (k : Nat) : Nat :=
  if healthyRun ≤ t.ran then initial else min (initial * 2 ^ k) max

/-- A short run is followed by a delay, crashes by a growing one, and a cancellation by nothing. -/
structure Paced (initial max : Nat) (s : Supervisor) : Prop where
  spaced : ∀ x ∈ s.past, ¬ x.1.Cancelled → x.1.ran < initial → initial ≤ x.2
  delayed : ∀ pre t delay post, s.past = pre ++ (t, delay) :: post → t.Crashed →
    delay = crashDelay initial max t (streak pre)
  cancelled : ∀ pre x post, s.past = pre ++ x :: post → x.1.Cancelled →
    post = [] ∧ s.stopped = true

/-- A run that returns has not been too short, and the backoff is the first one where it has been
long. -/
def Settled (initial : Nat) (s : Supervisor) (t : Turn) (_ : Supervisor) : Prop :=
  t.outcome = .returned → initial ≤ t.ran ∧ (healthyRun ≤ t.ran → s.backoff = initial)

instance (initial : Nat) (s : Supervisor) (t : Turn) (s' : Supervisor) :
    Decidable (Settled initial s t s') :=
  inferInstanceAs (Decidable (_ → _))

section Turns
variable {initial max backoff delay : Nat} {t : Turn} {error : String}
  {past pre post : List (Turn × Nat)} {x : Turn × Nat}

theorem take_returned (h : t.outcome = .returned) :
    t.take initial max backoff = (.ok backoff, 0) := by
  simp [Turn.take, superviseTurn, Prog.run_bind, Turn.exec, h]

theorem take_cancelled (h : t.outcome = .cancelled) :
    t.take initial max backoff = (.error .cancelled, 0) := by
  simp [Turn.take, superviseTurn, Prog.run_bind, Turn.exec, h]

theorem take_crashed (h : t.outcome = .crashed error)
    (hdelay : delay = if healthyRun ≤ t.ran then initial else backoff) :
    t.take initial max backoff =
      (if t.woken then .ok (min (delay * 2) max) else .error .cancelled, delay) := by
  subst hdelay
  obtain ⟨started, ended, outcome, woken⟩ := t
  obtain rfl : outcome = .crashed error := h
  cases woken <;> rfl

theorem not_crashed (h : ∀ error, t.outcome ≠ .crashed error) : ¬ t.Crashed := by
  rintro ⟨error, hc⟩
  exact h error hc

theorem not_cancelled_of_returned (h : t.outcome = .returned) : ¬ t.Cancelled := by
  rintro (hc | ⟨⟨error, hc⟩, -⟩)
  · cases h.symm.trans hc
  · cases h.symm.trans hc

/-- A crash is cancelled where its sleep is. -/
theorem cancelled_of_crashed (h : t.outcome = .crashed error) :
    t.Cancelled ↔ t.woken = false := by
  constructor
  · rintro (hc | ⟨-, hwoken⟩)
    · cases h.symm.trans hc
    · exact hwoken
  · intro hwoken
    exact Or.inr ⟨⟨error, h⟩, hwoken⟩

theorem le_crashDelay (hle : initial ≤ max) (k : Nat) : initial ≤ crashDelay initial max t k := by
  have hpow : 1 ≤ 2 ^ k := Nat.one_le_two_pow
  have hmul : initial * 1 ≤ initial * 2 ^ k := Nat.mul_le_mul_left initial hpow
  rw [crashDelay]
  split
  · exact Nat.le_refl initial
  · omega

theorem streak_append : streak (past ++ [x]) =
    match x.1.outcome with
    | .crashed _ => if healthyRun ≤ x.1.ran then 1 else streak past + 1
    | _ => if healthyRun ≤ x.1.ran then 0 else streak past := by
  simp [streak]

theorem doubled (k : Nat) :
    min (min (initial * 2 ^ k) max * 2) max = min (initial * 2 ^ (k + 1)) max := by
  have hpow : initial * 2 ^ (k + 1) = initial * 2 ^ k * 2 := by
    rw [Nat.pow_succ, Nat.mul_assoc]
  rw [hpow]
  omega

/-- The last entry of a list, or one before it. -/
theorem eq_or_of_concat {y : Turn × Nat} (h : past ++ [y] = pre ++ x :: post) :
    pre = past ∧ x = y ∧ post = [] ∨ ∃ rest, post = rest ++ [y] ∧ past = pre ++ x :: rest := by
  rcases List.append_eq_append_iff.mp h with ⟨more, rfl, hlast⟩ | ⟨more, rfl, hlast⟩
  · cases more with
    | nil =>
      cases hlast
      exact Or.inl ⟨List.append_nil past, rfl, rfl⟩
    | cons z more =>
      have hnil : more ++ x :: post = [] := (List.cons.inj hlast).2.symm
      cases (List.append_eq_nil_iff.mp hnil).2
  · cases more with
    | nil =>
      cases hlast
      exact Or.inl ⟨(List.append_nil pre).symm, rfl, rfl⟩
    | cons z rest =>
      obtain ⟨rfl, hpost⟩ := List.cons.inj hlast
      exact Or.inr ⟨rest, hpost, rfl⟩

end Turns

section Runs
variable {initial max : Nat} {s s' : Supervisor} {t : Turn}

/-- As long as the loop goes on, nothing has been cancelled and the backoff is that of the next
crash. -/
structure Running (initial max : Nat) (s : Supervisor) : Prop where
  paced : Paced initial max s
  backoff : s.stopped = false → s.backoff = min (initial * 2 ^ streak s.past) max
  alive : s.stopped = false → ∀ x ∈ s.past, ¬ x.1.Cancelled

theorem paced_append {past : List (Turn × Nat)} {backoff delay : Nat} {stopped : Bool}
    (h : Paced initial max s) (hpast : past = s.past) (halive : ∀ x ∈ s.past, ¬ x.1.Cancelled)
    (hspaced : ¬ t.Cancelled → t.ran < initial → initial ≤ delay)
    (hdelayed : t.Crashed → delay = crashDelay initial max t (streak s.past))
    (hcancelled : t.Cancelled → stopped = true) :
    Paced initial max ⟨backoff, past ++ [(t, delay)], stopped⟩ := by
  subst hpast
  refine ⟨fun x hx => ?_, fun pre u d post heq => ?_, fun pre x post heq => ?_⟩
  · rcases List.mem_append.mp hx with hx | hx
    · exact h.spaced x hx
    · obtain rfl := List.mem_singleton.mp hx
      exact hspaced
  · rcases eq_or_of_concat heq with ⟨rfl, hx, -⟩ | ⟨rest, -, hold⟩
    · cases hx
      exact hdelayed
    · exact h.delayed pre u d rest hold
  · intro hx
    rcases eq_or_of_concat heq with ⟨-, rfl, hpost⟩ | ⟨rest, -, hold⟩
    · exact ⟨hpost, hcancelled hx⟩
    · refine absurd hx (halive x ?_)
      rw [hold]
      exact List.mem_append_right _ List.mem_cons_self

/-- What a turn has to leave behind: its delay, and the backoff of the next crash unless it has been
cancelled. -/
theorem running_append {backoff delay : Nat} {stopped : Bool} (hs : Running initial max s)
    (hlive : s.stopped = false) (hspaced : ¬ t.Cancelled → t.ran < initial → initial ≤ delay)
    (hdelayed : t.Crashed → delay = crashDelay initial max t (streak s.past))
    (hcancelled : t.Cancelled ↔ stopped = true)
    (hbackoff : stopped = false →
      backoff = min (initial * 2 ^ streak (s.past ++ [(t, delay)])) max) :
    Running initial max ⟨backoff, s.past ++ [(t, delay)], stopped⟩ := by
  have halive := hs.alive hlive
  refine ⟨paced_append hs.paced rfl halive hspaced hdelayed hcancelled.mp, hbackoff, ?_⟩
  intro hgoing x hx
  rcases List.mem_append.mp hx with hx | hx
  · exact halive x hx
  · obtain rfl := List.mem_singleton.mp hx
    intro hc
    cases (hcancelled.mp hc).symm.trans hgoing

theorem running_returned (hs : Running initial max s) (hlive : s.stopped = false)
    (hout : t.outcome = .returned)
    (hsettled : initial ≤ t.ran ∧ (healthyRun ≤ t.ran → s.backoff = initial)) :
    Running initial max (s.after initial max t) := by
  obtain ⟨hran, hlong⟩ := hsettled
  have hbackoff := hs.backoff hlive
  have htake : t.take initial max s.backoff = (.ok s.backoff, 0) := take_returned hout
  have hcancelled := not_cancelled_of_returned hout
  have hcrashed : ¬ t.Crashed := not_crashed fun error he => by cases hout.symm.trans he
  rw [Supervisor.after, htake]
  refine running_append hs hlive (fun _ hshort => ?_) (fun hc => absurd hc hcrashed)
    ⟨fun hc => absurd hc hcancelled, fun hc => Bool.noConfusion hc⟩ fun _ => ?_
  · omega
  · rw [streak_append]
    simp only [hout]
    split
    · rename_i hhealthy
      simp only [hlong hhealthy, Nat.pow_zero, Nat.mul_one]
      omega
    · exact hbackoff

theorem running_cancelled (hs : Running initial max s) (hlive : s.stopped = false)
    (hout : t.outcome = .cancelled) : Running initial max (s.after initial max t) := by
  have htake : t.take initial max s.backoff = (.error .cancelled, 0) := take_cancelled hout
  have hcancelled : t.Cancelled := Or.inl hout
  have hcrashed : ¬ t.Crashed := not_crashed fun error he => by cases hout.symm.trans he
  rw [Supervisor.after, htake]
  exact running_append hs hlive (fun hc => absurd hcancelled hc) (fun hc => absurd hc hcrashed)
    ⟨fun _ => rfl, fun _ => hcancelled⟩ fun hc => Bool.noConfusion hc

theorem running_crashed {error : String} (hle : initial ≤ max) (hs : Running initial max s)
    (hlive : s.stopped = false) (hout : t.outcome = .crashed error) :
    Running initial max (s.after initial max t) := by
  have hdelay : crashDelay initial max t (streak s.past) =
      if healthyRun ≤ t.ran then initial else s.backoff := by
    rw [crashDelay, hs.backoff hlive]
  have htake : t.take initial max s.backoff =
      (if t.woken then .ok (min (crashDelay initial max t (streak s.past) * 2) max)
        else .error .cancelled, crashDelay initial max t (streak s.past)) :=
    take_crashed hout hdelay
  have hcancelled := cancelled_of_crashed hout
  rw [Supervisor.after, htake]
  cases hwoken : t.woken with
  | false =>
    exact running_append hs hlive (fun _ _ => le_crashDelay hle _) (fun _ => rfl)
      ⟨fun _ => rfl, fun _ => hcancelled.mpr hwoken⟩ fun hc => Bool.noConfusion hc
  | true =>
    refine running_append hs hlive (fun _ _ => le_crashDelay hle _) (fun _ => rfl)
      ⟨fun hc => ?_, fun hc => Bool.noConfusion hc⟩ fun _ => ?_
    · cases hwoken.symm.trans (hcancelled.mp hc)
    · rw [streak_append]
      simp only [hout, crashDelay]
      split
      · simp only [Nat.pow_one]
      · exact doubled _

theorem running_step (hle : initial ≤ max) (hs : Running initial max s)
    (h : SuperStep initial max s t s') (hsettled : Settled initial s t s') :
    Running initial max s' := by
  obtain ⟨hlive, rfl⟩ := h
  cases hout : t.outcome with
  | returned => exact running_returned hs hlive hout (hsettled hout)
  | cancelled => exact running_cancelled hs hlive hout
  | crashed error => exact running_crashed hle hs hlive hout

/-- In every run in which the subtask does not return too soon, it is started again at a pace. -/
theorem supervised_paced {xs : List (Turn × Supervisor)} (hle : initial ≤ max)
    (h : Path (SuperStep initial max) ⟨initial, [], false⟩ xs)
    (hxs : Path (Settled initial) ⟨initial, [], false⟩ xs) :
    Paced initial max (finish ⟨initial, [], false⟩ xs) := by
  refine ((h.and hxs).invariant (fun _ _ _ hstep hs => running_step hle hs hstep.1 hstep.2)
    ⟨⟨?_, ?_, ?_⟩, fun _ => ?_, fun _ => ?_⟩).paced
  · intro x hx
    cases hx
  · intro pre t delay post heq
    cases pre <;> cases heq
  · intro pre x post heq
    cases pre <;> cases heq
  · change initial = min (initial * 2 ^ 0) max
    omega
  · intro x hx
    cases hx

/-- Three crashes, the last one after two minutes. -/
def crashes : List Turn :=
  [⟨0, 10, .crashed "serial", true⟩, ⟨1010, 1020, .crashed "serial", true⟩,
    ⟨3020, 123020, .crashed "serial", true⟩]

theorem supervised_paced_crashes :
    Paced initialBackoff maxBackoff
        (finish ⟨initialBackoff, [], false⟩
          (trace (Supervisor.after initialBackoff maxBackoff) ⟨initialBackoff, [], false⟩ crashes)) ∧
      (finish ⟨initialBackoff, [], false⟩
        (trace (Supervisor.after initialBackoff maxBackoff) ⟨initialBackoff, [], false⟩
          crashes)).past.map Prod.snd = [1000, 2000, 1000] :=
  ⟨supervised_paced (by decide) (by decide) (by decide), by decide⟩

/-- The subtask returns at once, as `_ws_serve_lifetime` does when the server has been closed. -/
def returned : Turn := ⟨0, 0, .returned, true⟩

theorem spins :
    SuperStep initialBackoff maxBackoff ⟨initialBackoff, [], false⟩ returned
        ⟨initialBackoff, [(returned, 0)], false⟩ ∧
      ¬ Paced initialBackoff maxBackoff ⟨initialBackoff, [(returned, 0)], false⟩ := by
  refine ⟨⟨rfl, rfl⟩, fun h => ?_⟩
  have hcancelled : ¬ returned.Cancelled := not_cancelled_of_returned rfl
  have hspaced := h.spaced (returned, 0) List.mem_cons_self hcancelled (by decide)
  exact absurd hspaced (by decide)

end Runs
end ParkIt.Booth
