import ParkIt.Lib.Answers
import ParkIt.Lib.Bytes

/-! The requests of a booth to the API, and how often one of them is sent. -/
namespace ParkIt.Booth

open Effects ByteString

inductive ExcClass where
  | exception
  | osError
  | timeoutError
  | connectionError
  | connectionRefusedError
  | connectionResetError
  | connectionAbortedError
  | brokenPipeError
  | gaierror
  | urlError
  | httpError
  | valueError
  | incompleteRead
  | derived (name : String) (base : ExcClass)
deriving DecidableEq, Repr

/-- The class and the classes it is derived from. -/
def ExcClass.mro : ExcClass → List ExcClass
  | .exception => [.exception]
  | .osError => [.osError, .exception]
  | .timeoutError => [.timeoutError, .osError, .exception]
  | .connectionError => [.connectionError, .osError, .exception]
  | .connectionRefusedError => [.connectionRefusedError, .connectionError, .osError, .exception]
  | .connectionResetError => [.connectionResetError, .connectionError, .osError, .exception]
  | .connectionAbortedError => [.connectionAbortedError, .connectionError, .osError, .exception]
  | .brokenPipeError => [.brokenPipeError, .connectionError, .osError, .exception]
  | .gaierror => [.gaierror, .osError, .exception]
  | .urlError => [.urlError, .osError, .exception]
  | .httpError => [.httpError, .urlError, .osError, .exception]
  | .valueError => [.valueError, .exception]
  | .incompleteRead => [.incompleteRead, .exception]
  | .derived name base => .derived name base :: base.mro

/-- An exception, with its `reason` where that is an exception again. -/
inductive PyExc where
  | mk (cls : ExcClass) (reason : Option PyExc) (text : String)
deriving Repr

namespace PyExc

def cls : PyExc → ExcClass
  | .mk cls _ _ => cls

def reason : PyExc → Option PyExc
  | .mk _ reason _ => reason

def isinstance (e : PyExc) (c : ExcClass) : Bool := e.cls.mro.contains c

end PyExc

/-- An instance of one of `_POST_SAFE_RETRY`. -/
def postSafeRetry (e : PyExc) : Bool :=
  e.isinstance .connectionRefusedError || e.isinstance .gaierror

/-- An instance of one of `_GET_TRANSIENT`. -/
def getTransient (e : PyExc) : Bool := e.isinstance .osError || e.isinstance .timeoutError

/-- A response of the server is not retried, and of a `URLError` its reason counts. -/
def isRetryable (transient : PyExc → Bool) (e : PyExc) : Bool :=
  if e.isinstance .httpError then false
  else if e.isinstance .urlError then e.reason.any transient
  else transient e

def isRetryablePost : PyExc → Bool := isRetryable postSafeRetry
def isRetryableGet : PyExc → Bool := isRetryable getTransient

inductive Method where
  | get
  | post
deriving DecidableEq, Repr

structure Request where
  url : String
  method : Method
  data : Option Bytes := none
  timeout : Nat
deriving DecidableEq, Repr

/-- What can go wrong while a response is read. -/
inductive ReadError where
  | timeout
  | reset
  | incomplete
deriving DecidableEq, Repr

def ReadError.exc : ReadError → PyExc
  | .timeout => .mk .timeoutError none "timed out"
  | .reset => .mk .connectionResetError none "Connection reset by peer"
  | .incomplete => .mk .incompleteRead none "IncompleteRead"

/-- The operations of the client; times in milliseconds. -/
inductive HttpOp where
  | urlopen (req : Request)
  | read
  | sleep (ms : Nat)
deriving DecidableEq, Repr

abbrev HttpOp.Ans : HttpOp → Type
  | .urlopen _ => Except PyExc Unit
  | .read => Except ReadError Bytes
  | .sleep _ => Unit

abbrev Http (α : Type) := Prog HttpOp HttpOp.Ans PyExc α

def maxAttempts : Nat := 3
def backoff : Nat := 500

section Requests
variable {α : Type} (loads : Bytes → Except String α)

/-- One attempt: the response is read, decoded and parsed. -/
def attemptOnce (req : Request) : Http α := do
  match ← Prog.perform (.urlopen req : HttpOp) with
  | .error e => Prog.raise e
  | .ok () =>
    match ← Prog.perform (.read : HttpOp) with
    | .error e => Prog.raise e.exc
    | .ok body =>
      match loads body with
      | .error text => Prog.raise (.mk .valueError none text)
      | .ok a => pure a

/-- The attempts from number `attempt` on. -/
def attemptFrom (retryable : PyExc → Bool) (req : Request) : (left attempt : Nat) → Http α
  | 0, _ => attemptOnce loads req
  | left + 1, attempt =>
    (attemptOnce loads req).handle fun e =>
      if retryable e then do
        Prog.perform (.sleep (backoff * attempt) : HttpOp)
        attemptFrom retryable req left (attempt + 1)
      else Prog.raise e

def getRequest (baseUrl path : String) : Request where
  url := baseUrl ++ path
  method := .get
  timeout := 10

def postRequest (baseUrl path : String) (data : Bytes) : Request where
  url := baseUrl ++ path
  method := .post
  data := some data
  timeout := 15

def getSync (baseUrl path : String) : Http α :=
  attemptFrom loads isRetryableGet (getRequest baseUrl path) (maxAttempts - 1) 1

/-- The body is encoded once, before the first attempt. -/
def postSync (baseUrl path : String) (data : Bytes) : Http α :=
  attemptFrom loads isRetryablePost (postRequest baseUrl path data) (maxAttempts - 1) 1

end Requests

/-- What shows that a request has not reached the server. -/
inductive Unsent : PyExc → Prop where
  | refused {e : PyExc} : e.isinstance .connectionRefusedError = true → Unsent e
  | unresolved {e : PyExc} : e.isinstance .gaierror = true → Unsent e
  | wrapped {e r : PyExc} : e.isinstance .urlError = true → e.isinstance .httpError = false →
      e.reason = some r → Unsent r → Unsent e

theorem unsent_of_safe {e : PyExc} (h : postSafeRetry e = true) : Unsent e :=
  (Bool.or_eq_true_iff.mp h).elim .refused .unresolved

theorem unsent_of_retryable {e : PyExc} (h : isRetryablePost e = true) : Unsent e := by
  unfold isRetryablePost isRetryable at h
  split at h
  · cases h
  · rename_i hhttp
    split at h
    · rename_i hurl
      obtain ⟨r, hr, hsafe⟩ := (Option.any_eq_true _ _).mp h
      exact .wrapped hurl (Bool.eq_false_iff.mpr hhttp) hr (unsent_of_safe hsafe)
    · exact unsent_of_safe h

/-- What is raised once a response has come. -/
def Late (e : PyExc) : Prop := (∃ r : ReadError, e = r.exc) ∨ ∃ text, e = .mk .valueError none text

theorem not_retryable_of_late {e : PyExc} (h : Late e) : isRetryablePost e = false := by
  rcases h with ⟨r, rfl⟩ | ⟨text, rfl⟩
  · cases r <;> rfl
  · rfl

abbrev sending (x : Exchange HttpOp HttpOp.Ans) : Option (Except PyExc Unit) :=
  match x with
  | ⟨.urlopen _, a⟩ => some a
  | _ => none

/-- The outcomes of `urlopen`, one for each attempt. -/
def sendings (j : Journal HttpOp HttpOp.Ans) : List (Except PyExc Unit) := j.filterMap sending

section Attempts
variable {α : Type} {loads : Bytes → Except String α} {env : Answers HttpOp HttpOp.Ans}
  {req : Request} {retryable : PyExc → Bool} {j : Journal HttpOp HttpOp.Ans}

theorem sendings_record (o : HttpOp) :
    sendings (env.record j o) = sendings j ++ (sending ⟨o, env j o⟩).toList := by
  rw [sendings, Answers.record, List.filterMap_append]
  cases h : sending ⟨o, env j o⟩ with
  | none => rw [List.filterMap_cons_none h]; rfl
  | some a => rw [List.filterMap_cons_some h]; rfl

variable (loads env req j) in
/-- An attempt opens one request, and fails with it or later. -/
theorem attemptOnce_sends :
    Prog.Ensures env.exec (attemptOnce loads req) j
      (fun _ j' => sendings j' = sendings j ++ [.ok ()])
      fun e j' => sendings j' = sendings j ++ [.error e] ∨
        sendings j' = sendings j ++ [.ok ()] ∧ Late e := by
  unfold attemptOnce
  rw [Prog.ensures_bind, Answers.ensures_perform]
  have hopen : sendings (env.record j (.urlopen req)) = sendings j ++ [env j (.urlopen req)] :=
    sendings_record (.urlopen req)
  have hread : ∀ j', sendings (env.record j' .read) = sendings j' := fun j' =>
    (sendings_record .read).trans (List.append_nil _)
  cases hsent : env j (.urlopen req) with
  | error e =>
    rw [hsent] at hopen
    exact Or.inl hopen
  | ok u =>
    rw [hsent] at hopen
    have hboth := (hread (env.record j (.urlopen req))).trans hopen
    dsimp only
    rw [Prog.ensures_bind, Answers.ensures_perform]
    cases hbody : env (env.record j (.urlopen req)) .read with
    | error e => exact Or.inr ⟨hboth, Or.inl ⟨e, rfl⟩⟩
    | ok body =>
      dsimp only
      cases loads body with
      | error text => exact Or.inr ⟨hboth, Or.inr ⟨text, rfl⟩⟩
      | ok a => exact hboth

variable (loads env req j) in
/-- The loop ends with an attempt, and those before it failed in a way that is retried. -/
theorem attemptFrom_ends (hlate : ∀ e, Late e → retryable e = false) (left attempt : Nat) :
    ∃ j' as, (attemptOnce loads req).run env.exec j' =
        (attemptFrom loads retryable req left attempt).run env.exec j ∧
      sendings j' = sendings j ++ as ∧ as.length ≤ left ∧
      ∀ a ∈ as, ∃ e, a = .error e ∧ retryable e = true := by
  induction left generalizing attempt j with
  | zero => exact ⟨j, [], rfl, (List.append_nil _).symm, Nat.le_refl 0, by simp⟩
  | succ left ih =>
    have hsends := attemptOnce_sends loads env req j
    rcases hrun : (attemptOnce loads req).run env.exec j with ⟨e | a, j₁⟩
    · have hhandled := Answers.run_handle_error (h := fun e =>
        if retryable e then do
          Prog.perform (.sleep (backoff * attempt) : HttpOp)
          attemptFrom loads retryable req left (attempt + 1)
        else Prog.raise e) hrun
      rw [attemptFrom, hhandled]
      by_cases hretry : retryable e = true
      · rw [if_pos hretry]
        obtain ⟨j', as, hlast, has, hlength, hall⟩ :=
          ih (env.record j₁ (.sleep (backoff * attempt))) (attempt + 1)
        have hslept : sendings (env.record j₁ (.sleep (backoff * attempt))) = sendings j₁ :=
          (sendings_record _).trans (List.append_nil _)
        have hfirst : sendings j₁ = sendings j ++ [.error e] := by
          rcases hsends.of_error hrun with h | ⟨-, h⟩
          · exact h
          · exact absurd hretry (by rw [hlate e h]; exact Bool.false_ne_true)
        refine ⟨j', .error e :: as, hlast, ?_, ?_, ?_⟩
        · rw [has, hslept, hfirst, List.append_assoc]
          rfl
        · simpa using hlength
        · intro a ha
          rcases List.mem_cons.mp ha with rfl | ha
          · exact ⟨e, rfl, hretry⟩
          · exact hall a ha
      · rw [if_neg hretry]
        exact ⟨j, [], hrun, (List.append_nil _).symm, Nat.zero_le _, by simp⟩
    · refine ⟨j, [], ?_, (List.append_nil _).symm, Nat.zero_le _, by simp⟩
      rw [attemptFrom, Answers.run_handle_ok hrun, hrun]

end Attempts

/-- Every attempt but the last is shown not to have reached the server, there are three at most,
and what the last one comes to is what is returned or raised. -/
theorem post_at_most_once {α : Type} (loads : Bytes → Except String α)
    (env : Answers HttpOp HttpOp.Ans) (baseUrl path : String) (data : Bytes) :
    let done := (postSync loads baseUrl path data).run env.exec []
    (sendings done.2).length ≤ maxAttempts ∧
    (∀ a ∈ (sendings done.2).dropLast, ∃ e, a = .error e ∧ Unsent e) ∧
    ∃ req j, (attemptOnce loads req).run env.exec j = done ∧
      sendings j = (sendings done.2).dropLast := by
  intro done
  obtain ⟨j, as, hlast, has, hlength, hall⟩ :=
    attemptFrom_ends loads env (postRequest baseUrl path data) [] (fun e => not_retryable_of_late)
      (maxAttempts - 1) 1
  obtain ⟨a, ha⟩ : ∃ a, sendings done.2 = as ++ [a] := by
    have hsends := attemptOnce_sends loads env (postRequest baseUrl path data) j
    rw [has] at hsends
    rcases hdone : done with ⟨e | v, j'⟩
    · rcases hsends.of_error (hlast.trans hdone) with h | ⟨h, -⟩
      · exact ⟨_, h⟩
      · exact ⟨_, h⟩
    · exact ⟨_, hsends.of_ok (hlast.trans hdone)⟩
  rw [ha, List.dropLast_concat, List.length_append]
  refine ⟨Nat.succ_le_succ hlength, fun b hb => ?_, _, j, hlast, has⟩
  obtain ⟨e, he, hretry⟩ := hall b hb
  exact ⟨e, he, unsent_of_retryable hretry⟩

end ParkIt.Booth
