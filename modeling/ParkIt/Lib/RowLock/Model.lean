import ParkIt.Lib.Path
import ParkIt.Lib.Prog
import Mathlib.Logic.Function.Basic
import Mathlib.Data.List.Perm.Basic

/-! READ COMMITTED sessions over one table whose rows are locked by `SELECT … FOR UPDATE`. -/
namespace RowLock

open Effects

/-- The key of a row and the effect of a column update; an update keeps the key. -/
structure Schema (K R U : Type) where
  key : R → K
  ap : U → R → R
  key_ap : ∀ u r, key (ap u r) = key r

/-- Lock the rows matching a filter, update one row by its key, or anything else. -/
inductive Op (K R U E : Type) where
  | lock (f : R → Bool)
  | update (i : K) (u : U)
  | ext (e : E)

abbrev Op.Ans {K R U E : Type} (A : E → Type) : Op K R U E → Type
  | .lock _ => List R
  | .update _ _ => Unit
  | .ext e => A e

abbrev Handler (K R U : Type) {E : Type} (A : E → Type) (ε α : Type) :=
  Prog (Op K R U E) (Op.Ans A) ε α

variable {ι K R U E : Type} {A : E → Type} {ε α σ : Type}

/-- A database session; `w` lists its uncommitted updates, oldest first. -/
inductive Session (K R U : Type) {E : Type} (A : E → Type) (ε α : Type) where
  | idle
  | running (p : Handler K R U A ε α) (w : List (K × U))
  | locking (f : R → Bool) (todo : List K) (got : List R)
      (k : List R → Handler K R U A ε α) (w : List (K × U))
  | ended (a : Option α)

structure Sys (ι K R U : Type) {E : Type} (A : E → Type) (ε α σ : Type) where
  /-- The committed rows. -/
  table : List R
  holder : K → Option ι
  session : ι → Session K R U A ε α
  shared : σ

inductive Label (ι K U α : Type) where
  | begin (j : ι)
  | stmt (j : ι)
  | commit (j : ι) (a : α) (w : List (K × U))
  | abort (j : ι)

section Rows
variable [DecidableEq K] (S : Schema K R U)

def writesTo (w : List (K × U)) (i : K) : List U :=
  w.filterMap fun x => if x.1 = i then some x.2 else none

def Schema.applyAll (us : List U) (r : R) : R := us.foldl (fun r u => S.ap u r) r

/-- A row as a session with the uncommitted updates `w` sees it. -/
def Schema.overlay (w : List (K × U)) (r : R) : R := S.applyAll (writesTo w (S.key r)) r

def Schema.lookup (t : List R) (i : K) : Option R := t.find? fun r => S.key r = i

def Sys.view (s : Sys ι K R U A ε α σ) (w : List (K × U)) (i : K) : Option R :=
  (S.lookup s.table i).map (S.overlay w)

def Sys.set [DecidableEq ι] (s : Sys ι K R U A ε α σ) (j : ι) (x : Session K R U A ε α) :
    Sys ι K R U A ε α σ :=
  { s with session := Function.update s.session j x }

def Sys.take [DecidableEq ι] (s : Sys ι K R U A ε α σ) (i : K) (j : ι) : Sys ι K R U A ε α σ :=
  { s with holder := Function.update s.holder i (some j) }

def Sys.release [DecidableEq ι] (s : Sys ι K R U A ε α σ) (j : ι) : Sys ι K R U A ε α σ :=
  { s with holder := fun i => if s.holder i = some j then none else s.holder i }

/-- The row is free or already locked by the session itself. -/
def Sys.Free (s : Sys ι K R U A ε α σ) (i : K) (j : ι) : Prop :=
  s.holder i = none ∨ s.holder i = some j

end Rows

/-- One statement of one session. A locking select takes its candidates from the committed
rows, then locks them one at a time and checks the filter again on the row it has locked;
a session may fail at any statement, which also covers lock timeouts and deadlocks. -/
inductive Step [DecidableEq ι] [DecidableEq K] (S : Schema K R U)
    (start : ι → Handler K R U A ε α → Prop) (ext : σ → (e : E) → A e → σ → Prop) :
    Sys ι K R U A ε α σ → Label ι K U α → Sys ι K R U A ε α σ → Prop
  | begin {s j p} : s.session j = .idle → start j p →
      Step S start ext s (.begin j) (s.set j (.running p []))
  | select {s j f k w todo} : s.session j = .running (.call (.lock f) k) w →
      todo.Perm (((s.table.map (S.overlay w)).filter f).map S.key) →
      Step S start ext s (.stmt j) (s.set j (.locking f todo [] k w))
  | acquire {s j f i todo got k w r} : s.session j = .locking f (i :: todo) got k w →
      s.Free i j → s.view S w i = some r →
      Step S start ext s (.stmt j)
        ((s.take i j).set j (.locking f todo (if f r then got ++ [r] else got) k w))
  | selected {s j f got k w} : s.session j = .locking f [] got k w →
      Step S start ext s (.stmt j) (s.set j (.running (k got) w))
  | update {s j i u k w r} : s.session j = .running (.call (.update i u) k) w →
      s.Free i j → S.lookup s.table i = some r →
      Step S start ext s (.stmt j) ((s.take i j).set j (.running (k ()) (w ++ [(i, u)])))
  | effect {s j e k w a sh} : s.session j = .running (.call (.ext e) k) w →
      ext s.shared e a sh →
      Step S start ext s (.stmt j) ({ s with shared := sh }.set j (.running (k a) w))
  | commit {s j a w} : s.session j = .running (.pure a) w →
      Step S start ext s (.commit j a w)
        ({ s with table := s.table.map (S.overlay w) }.release j |>.set j (.ended (some a)))
  | abort {s j} : s.session j ≠ .idle → (∀ a, s.session j ≠ .ended a) →
      Step S start ext s (.abort j) (s.release j |>.set j (.ended none))

section Lemmas
variable {S : Schema K R U} {w w' : List (K × U)} {i j : K} {u : U} {r : R} {us vs : List U}
  {t : List R}

@[simp] theorem applyAll_nil : S.applyAll [] r = r := rfl

@[simp] theorem applyAll_append : S.applyAll (us ++ vs) r = S.applyAll vs (S.applyAll us r) := by
  simp [Schema.applyAll]

@[simp] theorem applyAll_cons : S.applyAll (u :: us) r = S.applyAll us (S.ap u r) := rfl

@[simp] theorem key_applyAll : S.key (S.applyAll us r) = S.key r := by
  induction us generalizing r with
  | nil => rfl
  | cons u us ih => simp [ih, S.key_ap]

variable [DecidableEq K]

@[simp] theorem writesTo_nil : writesTo ([] : List (K × U)) i = [] := rfl

@[simp] theorem writesTo_append : writesTo (w ++ w') i = writesTo w i ++ writesTo w' i := by
  simp [writesTo]

@[simp] theorem writesTo_single : writesTo [(i, u)] i = [u] := by simp [writesTo]

theorem writesTo_single_of_ne (h : i ≠ j) : writesTo [(i, u)] j = [] := by simp [writesTo, h]

@[simp] theorem key_overlay : S.key (S.overlay w r) = S.key r := key_applyAll

@[simp] theorem overlay_nil : S.overlay [] r = r := rfl

theorem lookup_key (h : S.lookup t i = some r) : S.key r = i := by
  simpa using List.find?_some h

theorem lookup_mem (h : S.lookup t i = some r) : r ∈ t := List.mem_of_find?_eq_some h

theorem lookup_map : S.lookup (t.map (S.overlay w)) i = (S.lookup t i).map (S.overlay w) := by
  induction t with
  | nil => rfl
  | cons r t ih =>
    by_cases h : S.key r = i
    · simp [Schema.lookup, h]
    · simpa [Schema.lookup, List.find?_cons, h] using ih

theorem overlay_of_key (h : S.key r = i) : S.overlay w r = S.applyAll (writesTo w i) r := by
  rw [Schema.overlay, h]

theorem lookup_of_mem (hn : (t.map S.key).Nodup) (h : r ∈ t) : S.lookup t (S.key r) = some r := by
  induction t with
  | nil => cases h
  | cons q t ih =>
    obtain ⟨hq, hn⟩ := List.nodup_cons.mp hn
    rcases List.mem_cons.mp h with rfl | h
    · simp [Schema.lookup]
    · have hne : S.key q ≠ S.key r := fun he => hq (he ▸ List.mem_map_of_mem h)
      simpa [Schema.lookup, List.find?_cons, hne] using ih hn h

end Lemmas
end RowLock
