import ParkIt.Lib.Window
import ParkIt.RateLimit.Limiter
import Mathlib.Data.List.Induction
import Mathlib.Tactic.Linarith

/-! The limiter in the memory of one process: what it keeps and admits, whatever is asked of it. -/
namespace ParkIt.RateLimit.Memory

open Window

/-- A call of `_check_limit_memory`, and what the clock shows it. -/
structure Check where
  key : String
  now : ℚ
deriving DecidableEq, Repr

/-- What a key is always used with. -/
structure Limit where
  maxRequests : Int
  window : Int
deriving DecidableEq, Repr

/-- `_check_limit_memory` for any two integers. -/
def checkLimitMemory (buckets : Buckets) (key : String) (maxRequests window : Int) (now : ℚ) :
    (Bool × Int) × Buckets :=
  let windowStart := now - window
  let kept := (buckets key).filter fun ts => windowStart < ts
  if maxRequests ≤ kept.length then
    let oldest := kept.headD now
    ((false, max 1 (int (oldest + window - now))), Function.update buckets key kept)
  else ((true, 0), Function.update buckets key (kept ++ [now]))

/-- The buckets, and the calls that have been admitted, oldest first. -/
structure Process where
  buckets : Buckets := fun _ => []
  admitted : List Check := []

/-- When a key was asked for. -/
def times (key : String) (cs : List Check) : List ℚ := (cs.filter (·.key = key)).map Check.now

section Claims
variable (limits : String → Limit) (cs : List Check) (key : String)

def Process.check (s : Process) (c : Check) : Process :=
  let r := checkLimitMemory s.buckets c.key (limits c.key).maxRequests (limits c.key).window c.now
  { buckets := r.2, admitted := if r.1.1 then s.admitted ++ [c] else s.admitted }

def after : Process := cs.foldl (Process.check limits) {}

def Sorted : Prop := ((after limits cs).buckets key).Pairwise (· ≤ ·)

/-- There are not too many timestamps of a key, and no window admits too many of its calls. -/
structure Bounded : Prop where
  atMost : (((after limits cs).buckets key).length : Int) ≤ (limits key).maxRequests
  admitted : ∀ t : ℚ, (((times key (after limits cs).admitted).filter fun a =>
    t - (limits key).window < a ∧ a ≤ t).length : Int) ≤ (limits key).maxRequests

/-- At the last call of a key, its timestamps are younger than its window. -/
def AllYoung : Prop :=
  ∀ last ∈ (times key cs).getLast?, ∀ ts ∈ (after limits cs).buckets key,
    last - ts < (limits key).window

end Claims

section Steps
variable {limits : String → Limit} {cs : List Check} {c : Check} {key key' : String}
  {buckets : Buckets} {maxRequests window : Int} {admitted : List ℚ} {last now : ℚ}

/-- A limit and a window that the middleware could be given. -/
theorem checkLimitMemory_natCast (maxRequests window : Nat) :
    checkLimitMemory buckets key maxRequests window now =
      RateLimit.checkLimitMemory buckets key maxRequests window now := by
  simp only [checkLimitMemory, RateLimit.checkLimitMemory, Int.cast_natCast, Nat.cast_le]

theorem checkLimitMemory_other (h : key' ≠ key) :
    (checkLimitMemory buckets key maxRequests window now).2 key' = buckets key' := by
  rw [checkLimitMemory]
  dsimp only
  split <;> exact Function.update_of_ne h ..

/-- What one call keeps of the window of its key. -/
theorem checkLimitMemory_tracks
    (h : Tracks maxRequests.toNat (window : ℚ) admitted (buckets key) last) (hle : last ≤ now) :
    Tracks maxRequests.toNat (window : ℚ)
      (if (checkLimitMemory buckets key maxRequests window now).1.1 then admitted ++ [now]
        else admitted)
      ((checkLimitMemory buckets key maxRequests window now).2 key) now := by
  have hpruned := h.prune hle
  rw [checkLimitMemory]
  dsimp only
  split
  · dsimp only
    rw [Function.update_self]
    exact hpruned
  · rename_i hroom
    dsimp only
    rw [Function.update_self]
    refine hpruned.admit (fun _ ha => (mem_young.mp ha).2) ?_
    exact Int.lt_toNat.mpr (not_le.mp hroom)

@[simp] theorem times_append_self : times c.key (cs ++ [c]) = times c.key cs ++ [c.now] := by
  simp [times]

theorem times_append_other (h : key ≠ c.key) : times key (cs ++ [c]) = times key cs := by
  simp [times, h.symm]

theorem after_append : after limits (cs ++ [c]) = (after limits cs).check limits c := by
  rw [after, List.foldl_append]
  rfl

variable (limits key) in
/-- Every key is tracked up to its last call. -/
theorem tracks_after (h : cs.Pairwise (·.now ≤ ·.now))
    (hlast : ∀ t ∈ (times key cs).getLast?, t = last) :
    Tracks (limits key).maxRequests.toNat ((limits key).window : ℚ)
      (times key (after limits cs).admitted) ((after limits cs).buckets key) last := by
  -- The last call is the one that counts; the calls of other keys change nothing.
  induction cs using List.reverseRecOn generalizing last with
  | nil => exact tracks_nil ..
  | append_singleton cs c ih =>
    obtain ⟨hcs, -, hend⟩ := List.pairwise_append.mp h
    rw [after_append]
    by_cases hkey : key = c.key
    · subst hkey
      obtain rfl : c.now = last := hlast c.now (by simp)
      obtain ⟨before, hbefore, hle⟩ :
          ∃ before, (∀ t ∈ (times c.key cs).getLast?, t = before) ∧ before ≤ c.now := by
        cases hget : (times c.key cs).getLast? with
        | none => exact ⟨c.now, nofun, le_refl _⟩
        | some before =>
          refine ⟨before, fun t ht => (Option.some.inj ht).symm, ?_⟩
          obtain ⟨c', hc', rfl⟩ := List.mem_map.mp (List.mem_of_getLast? hget)
          exact hend c' (List.mem_filter.mp hc').1 c (List.mem_singleton_self c)
      have hstep := checkLimitMemory_tracks (ih hcs hbefore) hle
      rw [Process.check]
      dsimp only
      split at hstep
      · rename_i hadmitted
        rw [if_pos hadmitted, times_append_self]
        exact hstep
      · rename_i hrejected
        rw [if_neg hrejected]
        exact hstep
    · rw [times_append_other hkey] at hlast
      rw [Process.check]
      dsimp only
      rw [checkLimitMemory_other hkey]
      split
      · rw [times_append_other hkey]
        exact ih hcs hlast
      · exact ih hcs hlast

end Steps

/-- A limit that is not negative holds at all times. A window that ends as it begins, or before,
keeps only what came at the last moment. -/
theorem memory_bounded (limits : String → Limit) (cs : List Check) (key : String)
    (h : cs.Pairwise (·.now ≤ ·.now)) :
    Sorted limits cs key ∧
      (0 ≤ (limits key).maxRequests → Bounded limits cs key) ∧
      (0 < (limits key).window → AllYoung limits cs key) ∧
      ((limits key).window ≤ 0 → ∀ last ∈ (times key cs).getLast?,
        ∀ ts ∈ (after limits cs).buckets key, ts = last) := by
  obtain ⟨last, hlast⟩ : ∃ last, ∀ t ∈ (times key cs).getLast?, t = last := by
    cases (times key cs).getLast? with
    | none => exact ⟨0, nofun⟩
    | some last => exact ⟨last, fun t ht => (Option.some.inj ht).symm⟩
  have htracks := tracks_after limits key h hlast
  refine ⟨htracks.kept_sorted, fun hlimit => ?_, fun hwindow t ht ts hts => ?_,
    fun hwindow t ht ts hts => ?_⟩
  · have hcast {n : Nat} (hn : n ≤ (limits key).maxRequests.toNat) :
        (n : Int) ≤ (limits key).maxRequests := by omega
    exact ⟨hcast htracks.atMost, fun t => hcast (htracks.bounded t)⟩
  · obtain rfl := hlast t ht
    have hpos : (0 : ℚ) < (limits key).window := Int.cast_pos.mpr hwindow
    rcases htracks.fresh ts hts with hyoung | rfl
    · linarith
    · linarith
  · obtain rfl := hlast t ht
    have hpast := htracks.past ts (htracks.part.subset hts)
    have hneg : ((limits key).window : ℚ) ≤ 0 := Int.cast_nonpos.mpr hwindow
    rcases htracks.fresh ts hts with hyoung | rfl
    · linarith
    · rfl

/-- Seven logins within a minute, two of them too many. -/
def logins : List Check := (List.range 7).map fun (n : Nat) => ⟨"login", n⟩

theorem memory_bounded_logins :
    Sorted (fun _ => ⟨5, 60⟩) logins "login" ∧ Bounded (fun _ => ⟨5, 60⟩) logins "login" ∧
      AllYoung (fun _ => ⟨5, 60⟩) logins "login" := by
  obtain ⟨hsorted, hbounded, hyoung, -⟩ :=
    memory_bounded (fun _ => ⟨5, 60⟩) logins "login" (by decide +kernel)
  exact ⟨hsorted, hbounded (by decide), hyoung (by decide)⟩

/-- In a window of no length, the timestamp of the last call is no younger than the window. -/
theorem kept_at_once : ¬ ∀ (limits : String → Limit) (cs : List Check) (key : String),
    cs.Pairwise (·.now ≤ ·.now) →
      Sorted limits cs key ∧ Bounded limits cs key ∧ AllYoung limits cs key := by
  intro h
  obtain ⟨-, -, hyoung⟩ := h (fun _ => ⟨1, 0⟩) [⟨"login", 0⟩] "login" (List.pairwise_singleton ..)
  exact absurd (hyoung 0 rfl 0 (by decide +kernel)) (by decide +kernel)

end ParkIt.RateLimit.Memory
