import ParkIt.Lib.Prog
import Mathlib.Logic.Function.Basic
import Mathlib.Data.List.Nodup
import Mathlib.Order.Defs.PartialOrder

/-! Calls that take turns at locks: what is done under a lock is made of whole runs of the calls,
one after the other, in the order in which they got in line. -/
namespace Turns

open Effects

variable {κ γ T Op : Type} {Ans : Op → Type} {ε α : Type}

/-- An operation with its answer and the instant of the answer. -/
structure Event (T Op : Type) (Ans : Op → Type) where
  op : Op
  ans : Ans op
  time : T

/-- From the beginning of a program at an instant to what is left of it at another one; an
operation takes at least its delay. -/
inductive Timed [Add T] [LE T] (delay : Op → T) (p : Prog Op Ans ε α) (start : T) :
    List (Event T Op Ans) → Prog Op Ans ε α → T → Prop
  | nil : Timed delay p start [] p start
  | snoc {es o k u a v} : Timed delay p start es (.call o k) u → u + delay o ≤ v →
      Timed delay p start (es ++ [⟨o, a, v⟩]) (k a) v

def outcome : Prog Op Ans ε α → Option (Except ε α)
  | .pure a => some (.ok a)
  | .throw e => some (.error e)
  | .call _ _ => none

/-- What is left to do since the last answer. -/
structure Thread (T Op : Type) (Ans : Op → Type) (ε α : Type) where
  rest : Prog Op Ans ε α
  since : T

/-- Each call is for a lock; the line of a lock begins with the call that holds it. -/
structure Sys (κ γ T Op : Type) (Ans : Op → Type) (ε α : Type) where
  now : T
  calls : List (κ × γ) := []
  line : κ → List ℕ := fun _ => []
  thread : ℕ → Option (Thread T Op Ans ε α) := fun _ => none
  log : List (κ × ℕ × Event T Op Ans) := []
  results : List (ℕ × Except ε α) := []

inductive Label (κ γ : Type) where
  | call (k : κ) (c : γ)
  | begin (i : ℕ)
  | go (i : ℕ)
  | finish (i : ℕ)
  | leave (i : ℕ)
  | tick

section Steps
variable [DecidableEq κ] [Add T] [LE T]

/-- A call that leaves gives up its place, also the first one, whose thread goes on. -/
inductive Step (code : γ → Prog Op Ans ε α) (delay : Op → T) :
    Sys κ γ T Op Ans ε α → Label κ γ → Sys κ γ T Op Ans ε α → Prop
  | call {s} (k : κ) (c : γ) : Step code delay s (.call k c)
      { s with
        calls := s.calls ++ [(k, c)]
        line := Function.update s.line k (s.line k ++ [s.calls.length]) }
  | begin {s i k c} : s.calls[i]? = some (k, c) → (s.line k).head? = some i →
      s.thread i = none → Step code delay s (.begin i)
        { s with thread := Function.update s.thread i (some ⟨code c, s.now⟩) }
  | go {s i l c o k since} (a : Ans o) : s.calls[i]? = some (l, c) →
      s.thread i = some ⟨.call o k, since⟩ → since + delay o ≤ s.now → Step code delay s (.go i)
        { s with
          thread := Function.update s.thread i (some ⟨k a, s.now⟩)
          log := s.log ++ [(l, i, ⟨o, a, s.now⟩)] }
  | finish {s i k c t r} : s.thread i = some t → outcome t.rest = some r →
      s.calls[i]? = some (k, c) → Step code delay s (.finish i)
        { s with
          thread := Function.update s.thread i none
          line := Function.update s.line k ((s.line k).erase i)
          results := s.results ++ [(i, r)] }
  | leave {s i k c} : s.calls[i]? = some (k, c) → Step code delay s (.leave i)
      { s with line := Function.update s.line k ((s.line k).erase i) }
  | tick {s} {t : T} : s.now ≤ t → Step code delay s .tick { s with now := t }

end Steps

/-- The call is for one of these locks. -/
def Sys.For (s : Sys κ γ T Op Ans ε α) (K : κ → Prop) (i : ℕ) : Prop :=
  ∃ k c, s.calls[i]? = some (k, c) ∧ K k

/-- Among these locks, a call is made while nobody is in line at another one, and only calls that
have not begun leave. -/
def Undisturbed (K : κ → Prop) (s : Sys κ γ T Op Ans ε α) : Label κ γ → Prop
  | .call k _ => K k → ∀ k', K k' → k' ≠ k → s.line k' = []
  | .leave i => s.For K i → s.thread i = none
  | _ => True

/-- A call that has begun. -/
structure Turn (κ γ T Op : Type) (Ans : Op → Type) (ε α : Type) where
  call : ℕ
  lock : κ
  cause : γ
  start : T
  events : List (Event T Op Ans)
  rest : Prog Op Ans ε α
  stop : T

def Turn.entries (t : Turn κ γ T Op Ans ε α) : List (κ × ℕ × Event T Op Ans) :=
  t.events.map fun e => (t.lock, t.call, e)

section Lines
variable {K : κ → Prop} {s t : Sys κ γ T Op Ans ε α} {i j m : ℕ} {k l : κ}
  {v w : Thread T Op Ans ε α} {c : γ}

/-- Only the first in line may be running. -/
structure Lined (K : κ → Prop) (s : Sys κ γ T Op Ans ε α) : Prop where
  one : ∀ k k', K k → K k' → s.line k ≠ [] → s.line k' ≠ [] → k = k'
  sorted : ∀ k, (s.line k).Pairwise (· < ·)
  known : ∀ k, ∀ i ∈ s.line k, ∃ c, s.calls[i]? = some (k, c)
  first : ∀ i v, s.thread i = some v →
    ∃ k c, s.calls[i]? = some (k, c) ∧ (K k → (s.line k).head? = some i)

theorem for_iff (hcall : s.calls[i]? = some (k, c)) : s.For K i ↔ K k := by
  constructor
  · rintro ⟨k', c', hcall', hk'⟩
    rw [hcall] at hcall'
    cases hcall'
    exact hk'
  · exact fun hk => ⟨k, c, hcall, hk⟩

theorem Lined.head (h : Lined K s) (hi : s.thread i = some v) (hfor : s.For K i) :
    ∃ k, K k ∧ (s.line k).head? = some i := by
  obtain ⟨k, c, hcall, hhead⟩ := h.first i v hi
  have hk : K k := (for_iff hcall).mp hfor
  exact ⟨k, hk, hhead hk⟩

/-- Two threads are never running. -/
theorem Lined.alone (h : Lined K s) (hi : s.thread i = some v) (hj : s.thread j = some w)
    (hfor : s.For K i) (hfor' : s.For K j) : j = i := by
  obtain ⟨k₁, hk₁, hhead⟩ := h.head hi hfor
  obtain ⟨k₂, hk₂, hhead'⟩ := h.head hj hfor'
  have hkey : k₁ = k₂ := h.one k₁ k₂ hk₁ hk₂ (List.ne_nil_of_mem (List.mem_of_head? hhead))
    (List.ne_nil_of_mem (List.mem_of_head? hhead'))
  rw [hkey, hhead'] at hhead
  exact Option.some.inj hhead

theorem Lined.waits (h : Lined K s) (hk : K k) (hi : i ∈ s.line k) : s.For K i := by
  obtain ⟨c, hc⟩ := h.known k i hi
  exact ⟨k, c, hc, hk⟩

theorem Lined.bound (h : Lined K s) (hi : i ∈ s.line k) : i < s.calls.length := by
  obtain ⟨c, hc⟩ := h.known k i hi
  exact (List.getElem?_eq_some_iff.mp hc).1

/-- Nothing has been called for. -/
structure Sys.Fresh (s : Sys κ γ T Op Ans ε α) : Prop where
  line : ∀ k, s.line k = []
  thread : ∀ i, s.thread i = none
  log : s.log = []
  results : s.results = []

theorem Sys.Fresh.lined (h : s.Fresh) : Lined K s := by
  refine ⟨fun k _ _ _ hk => absurd (h.line k) hk, fun k => ?_, fun k i hi => ?_, fun i v hv => ?_⟩
  · rw [h.line k]
    exact List.Pairwise.nil
  · rw [h.line k] at hi
    cases hi
  · rw [h.thread i] at hv
    cases hv

theorem head_append {l : List ℕ} (h : l.head? = some i) : (l ++ [m]).head? = some i := by
  cases l with
  | nil => cases h
  | cons j l => exact h

theorem head_erase {l : List ℕ} (h : l.head? = some i) (hne : i ≠ m) :
    (l.erase m).head? = some i := by
  cases l with
  | nil => cases h
  | cons j l =>
    cases h
    rw [List.erase_cons_tail (by simpa using hne)]
    rfl

variable [DecidableEq κ]

theorem mem_erased (hline : t.line = Function.update s.line k ((s.line k).erase i)) {k' : κ}
    (hj : j ∈ t.line k') : j ∈ s.line k' := by
  rw [hline] at hj
  by_cases hk : k' = k
  · subst hk
    rw [Function.update_self] at hj
    exact List.mem_of_mem_erase hj
  · rwa [Function.update_of_ne hk] at hj

/-- A place is given up. -/
theorem lined_erase (h : Lined K s)
    (hline : t.line = Function.update s.line k ((s.line k).erase i)) (hcalls : t.calls = s.calls)
    (hfirst : ∀ j v, t.thread j = some v → s.thread j = some v ∧ (s.For K j → j ≠ i)) :
    Lined K t := by
  refine ⟨fun k₁ k₂ hk₁ hk₂ h₁ h₂ => ?_, fun k' => ?_, fun k' j hj => ?_, fun j v hj => ?_⟩
  · obtain ⟨a, ha⟩ := List.exists_mem_of_ne_nil _ h₁
    obtain ⟨b, hb⟩ := List.exists_mem_of_ne_nil _ h₂
    exact h.one k₁ k₂ hk₁ hk₂ (List.ne_nil_of_mem (mem_erased hline ha))
      (List.ne_nil_of_mem (mem_erased hline hb))
  · rw [hline]
    by_cases hk : k' = k
    · subst hk
      rw [Function.update_self]
      exact (h.sorted k').sublist List.erase_sublist
    · rw [Function.update_of_ne hk]
      exact h.sorted k'
  · rw [hcalls]
    exact h.known k' j (mem_erased hline hj)
  · obtain ⟨hold, hne⟩ := hfirst j v hj
    obtain ⟨k', c, hcall, hhead⟩ := h.first j v hold
    refine ⟨k', c, hcalls ▸ hcall, fun hk' => ?_⟩
    rw [hline]
    by_cases hk : k' = k
    · subst hk
      rw [Function.update_self]
      exact head_erase (hhead hk') (hne ⟨k', c, hcall, hk'⟩)
    · rw [Function.update_of_ne hk]
      exact hhead hk'

theorem Lined.gone (h : Lined K s) (hcall : s.calls[i]? = some (k, c)) (k' : κ) :
    i ∉ Function.update s.line k ((s.line k).erase i) k' := by
  intro hi
  by_cases hk : k' = k
  · subst hk
    rw [Function.update_self] at hi
    have hnodup : (s.line k').Nodup := (h.sorted k').imp Nat.ne_of_lt
    exact hnodup.not_mem_erase hi
  · rw [Function.update_of_ne hk] at hi
    obtain ⟨c', hc'⟩ := h.known k' i hi
    rw [hcall] at hc'
    cases hc'
    exact hk rfl

/-- Who is in line after a call. -/
theorem mem_line_call {k' : κ} (hj : j ∈ Function.update s.line k (s.line k ++ [m]) k') :
    j ∈ s.line k' ∨ k' = k ∧ j = m := by
  by_cases hk : k' = k
  · subst hk
    rw [Function.update_self] at hj
    exact (List.mem_append.mp hj).imp id fun hj => ⟨rfl, List.mem_singleton.mp hj⟩
  · rw [Function.update_of_ne hk] at hj
    exact Or.inl hj

theorem lined_call (h : Lined K s) (halone : K k → ∀ k', K k' → k' ≠ k → s.line k' = []) :
    Lined K { s with
      calls := s.calls ++ [(k, c)]
      line := Function.update s.line k (s.line k ++ [s.calls.length]) } := by
  -- at which of the locks somebody is in line now
  have hline : ∀ k', K k' → Function.update s.line k (s.line k ++ [s.calls.length]) k' ≠ [] →
      s.line k' ≠ [] ∨ k' = k := by
    intro k' _ hne
    obtain ⟨a, ha⟩ := List.exists_mem_of_ne_nil _ hne
    exact (mem_line_call ha).imp List.ne_nil_of_mem And.left
  have hother : ∀ k', K k → K k' → s.line k' ≠ [] → k' = k := by
    intro k' hk hk' hne
    by_contra hneq
    exact hne (halone hk k' hk' hneq)
  refine ⟨fun k₁ k₂ hk₁ hk₂ h₁ h₂ => ?_, fun k' => ?_, fun k' j hj => ?_, fun j v hj => ?_⟩
  · rcases hline k₁ hk₁ h₁ with hne₁ | rfl
    · rcases hline k₂ hk₂ h₂ with hne₂ | rfl
      · exact h.one k₁ k₂ hk₁ hk₂ hne₁ hne₂
      · exact hother k₁ hk₂ hk₁ hne₁
    · rcases hline k₂ hk₂ h₂ with hne₂ | rfl
      · exact (hother k₂ hk₁ hk₂ hne₂).symm
      · rfl
  · dsimp only
    by_cases hk : k' = k
    · subst hk
      rw [Function.update_self]
      refine List.pairwise_append.mpr
        ⟨h.sorted k', List.pairwise_singleton _ _, fun a ha b hb => ?_⟩
      rw [List.mem_singleton.mp hb]
      exact h.bound ha
    · rw [Function.update_of_ne hk]
      exact h.sorted k'
  · rcases mem_line_call hj with hj | ⟨rfl, rfl⟩
    · obtain ⟨c', hc'⟩ := h.known k' j hj
      exact ⟨c', by rw [List.getElem?_append_left (h.bound hj)]; exact hc'⟩
    · exact ⟨c, List.getElem?_concat_length⟩
  · obtain ⟨k', c', hcall, hhead⟩ := h.first j v hj
    have hbound : j < s.calls.length := (List.getElem?_eq_some_iff.mp hcall).1
    refine ⟨k', c', by rw [List.getElem?_append_left hbound]; exact hcall, fun hk' => ?_⟩
    dsimp only
    by_cases hk : k' = k
    · subst hk
      rw [Function.update_self]
      exact head_append (hhead hk')
    · rw [Function.update_of_ne hk]
      exact hhead hk'

theorem lined_step [Add T] [LE T] {code : γ → Prog Op Ans ε α} {delay : Op → T} {x : Label κ γ}
    (h : Step code delay s x t) (hx : Undisturbed K s x) (hs : Lined K s) : Lined K t := by
  cases h with
  | call k c => exact lined_call hs hx
  | @begin i k c hcall hhead hnone =>
    refine ⟨hs.one, hs.sorted, hs.known, fun j v hj => ?_⟩
    dsimp only at hj
    by_cases hji : j = i
    · subst hji
      exact ⟨k, c, hcall, fun _ => hhead⟩
    · rw [Function.update_of_ne hji] at hj
      exact hs.first j v hj
  | @go i l c o k since a hcall hi htime =>
    refine ⟨hs.one, hs.sorted, hs.known, fun j v hj => ?_⟩
    dsimp only at hj
    by_cases hji : j = i
    · subst hji
      exact hs.first j _ hi
    · rw [Function.update_of_ne hji] at hj
      exact hs.first j v hj
  | @finish i k c v r hi hr hcall =>
    refine lined_erase hs rfl rfl fun j w hj => ?_
    dsimp only at hj
    by_cases hji : j = i
    · subst hji
      rw [Function.update_self] at hj
      cases hj
    · rw [Function.update_of_ne hji] at hj
      exact ⟨hj, fun _ => hji⟩
  | leave hcall =>
    refine lined_erase hs rfl rfl fun j v hj => ⟨hj, ?_⟩
    rintro hfor rfl
    rw [hx hfor] at hj
    cases hj
  | tick htime => exact ⟨hs.one, hs.sorted, hs.known, hs.first⟩

/-- Nobody gets in line but by a call. -/
theorem line_step [Add T] [LE T] {code : γ → Prog Op Ans ε α} {delay : Op → T} {x : Label κ γ}
    (h : Step code delay s x t) (hx : ∀ c, x ≠ .call k c) (hs : s.line k = []) :
    t.line k = [] := by
  have herase : ∀ (k' : κ) (i : ℕ), Function.update s.line k' ((s.line k').erase i) k = [] := by
    intro k' i
    by_cases hk : k = k'
    · subst hk
      rw [Function.update_self, hs]
      rfl
    · rw [Function.update_of_ne hk]
      exact hs
  cases h with
  | call k' c =>
    have hk : k ≠ k' := fun hk => hx c (hk ▸ rfl)
    exact (Function.update_of_ne hk ..).trans hs
  | finish hi hr hcall => exact herase _ _
  | leave hcall => exact herase _ _
  | begin hcall hhead hnone | go a hcall hi htime | tick htime => exact hs

end Lines

section Taken
variable [Add T] [LE T] {code : γ → Prog Op Ans ε α} {delay : Op → T} {K : κ → Prop}
  [DecidablePred K] {s t : Sys κ γ T Op Ans ε α}
  {turns : List (Turn κ γ T Op Ans ε α)} {i : ℕ} {k : κ} {c : γ}

/-- What the calls for these locks have done, each on its own; the last one may still be at it. -/
structure Taken (code : γ → Prog Op Ans ε α) (delay : Op → T) (K : κ → Prop) [DecidablePred K]
    (s : Sys κ γ T Op Ans ε α) (turns : List (Turn κ γ T Op Ans ε α)) : Prop where
  log : s.log.filter (fun x => K x.1) = turns.flatMap Turn.entries
  order : (turns.map (·.call)).Pairwise (· < ·)
  known : ∀ n ∈ turns, s.calls[n.call]? = some (n.lock, n.cause) ∧ K n.lock
  timed : ∀ n ∈ turns, Timed delay (code n.cause) n.start n.events n.rest n.stop
  running : ∀ i v, s.thread i = some v → s.For K i →
    ∃ before n, turns = before ++ [n] ∧ n.call = i ∧ n.rest = v.rest ∧ n.stop = v.since
  waiting : ∀ k, K k → ∀ i ∈ s.line k, ∀ n ∈ turns,
    n.call ≤ i ∧ (n.call = i → s.thread i ≠ none)
  results : ∀ x ∈ s.results, ∃ k c, s.calls[x.1]? = some (k, c) ∧
    (K k → ∃ n ∈ turns, n.call = x.1 ∧ outcome n.rest = some x.2)

theorem Sys.Fresh.taken (h : s.Fresh) : Taken code delay K s [] := by
  refine ⟨?_, List.Pairwise.nil, fun n hn => ?_, fun n hn => ?_, fun i v hv => ?_,
    fun k _ i hi => ?_, fun x hx => ?_⟩
  · rw [h.log]
    rfl
  · cases hn
  · cases hn
  · rw [h.thread i] at hv
    cases hv
  · rw [h.line k] at hi
    cases hi
  · rw [h.results] at hx
    cases hx

/-- A call begins after all those that have begun before. -/
theorem taken_begin (h : Taken code delay K s turns) (hlined : Lined K s) (hk : K k)
    (hcall : s.calls[i]? = some (k, c)) (hhead : (s.line k).head? = some i)
    (hnone : s.thread i = none) :
    Taken code delay K
      { s with thread := Function.update s.thread i (some ⟨code c, s.now⟩) }
      (turns ++ [⟨i, k, c, s.now, [], code c, s.now⟩]) := by
  have hmem : i ∈ s.line k := List.mem_of_head? hhead
  have hlater : ∀ n ∈ turns, n.call < i := by
    intro n hn
    obtain ⟨hle, heq⟩ := h.waiting k hk i hmem n hn
    exact Nat.lt_of_le_of_ne hle fun he => heq he hnone
  have hidle : ∀ j, s.For K j → s.thread j = none := by
    intro j hfor
    by_contra hj
    obtain ⟨v, hv⟩ := Option.ne_none_iff_exists'.mp hj
    obtain ⟨k', hk', hhead'⟩ := hlined.head hv hfor
    have hkey : k' = k := hlined.one k' k hk' hk
      (List.ne_nil_of_mem (List.mem_of_head? hhead')) (List.ne_nil_of_mem hmem)
    rw [hkey, hhead] at hhead'
    rw [Option.some.inj hhead', hv] at hnone
    cases hnone
  refine ⟨?_, ?_, fun n hn => ?_, fun n hn => ?_, fun j v hj hfor => ?_,
    fun k' hk' j hj n hn => ?_, fun x hx => ?_⟩
  · rw [List.flatMap_append, ← h.log]
    exact (List.append_nil _).symm
  · rw [List.map_append]
    refine List.pairwise_append.mpr ⟨h.order, List.pairwise_singleton _ _, fun a ha b hb => ?_⟩
    obtain ⟨n, hn, rfl⟩ := List.mem_map.mp ha
    rw [List.mem_singleton.mp hb]
    exact hlater n hn
  · rcases List.mem_append.mp hn with hn | hn
    · exact h.known n hn
    · rw [List.mem_singleton.mp hn]
      exact ⟨hcall, hk⟩
  · rcases List.mem_append.mp hn with hn | hn
    · exact h.timed n hn
    · rw [List.mem_singleton.mp hn]
      exact .nil
  · dsimp only at hj
    by_cases hji : j = i
    · subst hji
      rw [Function.update_self] at hj
      cases hj
      exact ⟨turns, _, rfl, rfl, rfl, rfl⟩
    · rw [Function.update_of_ne hji, hidle j hfor] at hj
      cases hj
  · dsimp only at hj ⊢
    rcases List.mem_append.mp hn with hn | hn
    · refine ⟨(h.waiting k' hk' j hj n hn).1, fun heq hthread => ?_⟩
      by_cases hji : j = i
      · exact absurd (hlater n hn) (by omega)
      · rw [Function.update_of_ne hji] at hthread
        exact (h.waiting k' hk' j hj n hn).2 heq hthread
    · rw [List.mem_singleton.mp hn]
      have hkey : k' = k := hlined.one k' k hk' hk (List.ne_nil_of_mem hj)
        (List.ne_nil_of_mem hmem)
      subst hkey
      refine ⟨?_, fun heq hthread => ?_⟩
      · obtain ⟨rest, hrest⟩ := List.head?_eq_some_iff.mp hhead
        have hsorted := hlined.sorted k'
        rw [hrest] at hsorted hj
        rcases List.mem_cons.mp hj with rfl | hj
        · exact Nat.le_refl j
        · exact Nat.le_of_lt ((List.pairwise_cons.mp hsorted).1 j hj)
      · rw [← heq, Function.update_self] at hthread
        cases hthread
  · obtain ⟨k', c', hcall', hturn⟩ := h.results x hx
    refine ⟨k', c', hcall', fun hk' => ?_⟩
    obtain ⟨n, hn, hcalls⟩ := hturn hk'
    exact ⟨n, List.mem_append_left _ hn, hcalls⟩

/-- An answer goes to the last of the calls that have begun. -/
theorem taken_go (h : Taken code delay K s turns) (hlined : Lined K s) {o : Op}
    {p : Ans o → Prog Op Ans ε α} {since : T} (a : Ans o) (hk : K k)
    (hcall : s.calls[i]? = some (k, c)) (hi : s.thread i = some ⟨.call o p, since⟩)
    (htime : since + delay o ≤ s.now) :
    ∃ turns', Taken code delay K
      { s with
        thread := Function.update s.thread i (some ⟨p a, s.now⟩)
        log := s.log ++ [(k, i, ⟨o, a, s.now⟩)] } turns' := by
  have hfor : s.For K i := (for_iff hcall).mpr hk
  obtain ⟨before, n, rfl, hn, hrest, hstop⟩ := h.running i _ hi hfor
  have hlast : n ∈ before ++ [n] := List.mem_append_right _ (List.mem_singleton_self n)
  have htimed := h.timed n hlast
  rw [hrest, hstop] at htimed
  have hlock : n.lock = k := by
    have hknown := (h.known n hlast).1
    rw [hn, hcall] at hknown
    cases hknown
    rfl
  refine ⟨before ++ [⟨n.call, n.lock, n.cause, n.start, n.events ++ [⟨o, a, s.now⟩], p a, s.now⟩],
    ⟨?_, ?_, fun m hm => ?_, fun m hm => ?_, fun j v hj hfor' => ?_, fun k' hk' j hj m hm => ?_,
    fun x hx => ?_⟩⟩
  · have hlog := h.log
    rw [List.flatMap_append] at hlog ⊢
    rw [List.filter_append, hlog, List.append_assoc]
    simp [Turn.entries, hn, hlock, hk]
  · have horder := h.order
    rwa [List.map_append] at horder ⊢
  · rcases List.mem_append.mp hm with hm | hm
    · exact h.known m (List.mem_append_left _ hm)
    · rw [List.mem_singleton.mp hm]
      exact h.known n hlast
  · rcases List.mem_append.mp hm with hm | hm
    · exact h.timed m (List.mem_append_left _ hm)
    · rw [List.mem_singleton.mp hm]
      exact htimed.snoc htime
  · dsimp only at hj
    by_cases hji : j = i
    · subst hji
      rw [Function.update_self] at hj
      cases hj
      exact ⟨before, _, rfl, hn, rfl, rfl⟩
    · rw [Function.update_of_ne hji] at hj
      exact absurd (hlined.alone hi hj hfor hfor') hji
  · dsimp only at hj ⊢
    have hsome : s.thread j ≠ none →
        Function.update s.thread i (some ⟨p a, s.now⟩) j ≠ none := by
      intro hne
      by_cases hji : j = i
      · rw [hji, Function.update_self]
        exact Option.some_ne_none _
      · rwa [Function.update_of_ne hji]
    rcases List.mem_append.mp hm with hm | hm
    · obtain ⟨hle, heq⟩ := h.waiting k' hk' j hj m (List.mem_append_left _ hm)
      exact ⟨hle, fun he => hsome (heq he)⟩
    · rw [List.mem_singleton.mp hm]
      obtain ⟨hle, heq⟩ := h.waiting k' hk' j hj n hlast
      exact ⟨hle, fun he => hsome (heq he)⟩
  · obtain ⟨k', c', hcall', hturn⟩ := h.results x hx
    refine ⟨k', c', hcall', fun hk' => ?_⟩
    obtain ⟨m, hm, hcalls, hout⟩ := hturn hk'
    rcases List.mem_append.mp hm with hm | hm
    · exact ⟨m, List.mem_append_left _ hm, hcalls, hout⟩
    · rw [List.mem_singleton.mp hm, hrest] at hout
      cases hout

/-- One call goes on that has no turn, or has had it. -/
theorem taken_aside (h : Taken code delay K s turns)
    (hlog : t.log.filter (fun x => K x.1) = s.log.filter fun x => K x.1)
    (hcalls : t.calls = s.calls) (hline : ∀ k, K k → ∀ j ∈ t.line k, j ∈ s.line k ∧ j ≠ i)
    (hthread : ∀ j, j ≠ i → t.thread j = s.thread j)
    (hrunning : ∀ v, t.thread i = some v → s.For K i → s.thread i = some v)
    (hresults : ∀ x ∈ t.results, x ∈ s.results ∨ ∃ k c, s.calls[x.1]? = some (k, c) ∧
      (K k → ∃ n ∈ turns, n.call = x.1 ∧ outcome n.rest = some x.2)) :
    Taken code delay K t turns := by
  refine ⟨hlog.trans h.log, h.order, fun n hn => ?_, h.timed, fun j v hj hfor => ?_,
    fun k hk j hj n hn => ?_, fun x hx => ?_⟩
  · rw [hcalls]
    exact h.known n hn
  · have hfor' : s.For K j := by
      unfold Sys.For at hfor ⊢
      rwa [hcalls] at hfor
    by_cases hji : j = i
    · subst hji
      exact h.running j v (hrunning v hj hfor') hfor'
    · exact h.running j v (hthread j hji ▸ hj) hfor'
  · obtain ⟨hj, hji⟩ := hline k hk j hj
    rw [hthread j hji]
    exact h.waiting k hk j hj n hn
  · rw [hcalls]
    rcases hresults x hx with hx | hx
    · exact h.results x hx
    · exact hx

variable [DecidableEq κ]

theorem taken_call (h : Taken code delay K s turns) (hlined : Lined K s) :
    Taken code delay K { s with
      calls := s.calls ++ [(k, c)]
      line := Function.update s.line k (s.line k ++ [s.calls.length]) } turns := by
  have hgrown : ∀ (i : ℕ) (y : κ × γ), s.calls[i]? = some y →
      (s.calls ++ [(k, c)])[i]? = some y := by
    intro i y hi
    rw [List.getElem?_append_left (List.getElem?_eq_some_iff.mp hi).1]
    exact hi
  refine ⟨h.log, h.order, fun n hn => ?_, h.timed, fun j v hj hfor => ?_,
    fun k' hk' j hj n hn => ?_, fun x hx => ?_⟩
  · obtain ⟨hcall, hlock⟩ := h.known n hn
    exact ⟨hgrown _ _ hcall, hlock⟩
  · obtain ⟨k', c', hcall, -⟩ := hlined.first j v hj
    exact h.running j v hj ((for_iff hcall).mpr ((for_iff (hgrown _ _ hcall)).mp hfor))
  · rcases mem_line_call hj with hj | ⟨rfl, rfl⟩
    · exact h.waiting k' hk' j hj n hn
    · have hbound := (List.getElem?_eq_some_iff.mp (h.known n hn).1).1
      exact ⟨Nat.le_of_lt hbound, fun heq => absurd hbound (by omega)⟩
  · obtain ⟨k', c', hcall, hturn⟩ := h.results x hx
    exact ⟨k', c', hgrown _ _ hcall, hturn⟩

theorem taken_step {x : Label κ γ} (h : Step code delay s x t) (hlined : Lined K s)
    (hs : Taken code delay K s turns) : ∃ turns', Taken code delay K t turns' := by
  -- a call for another lock is in none of the lines
  have hother : ∀ {i k c}, s.calls[i]? = some (k, c) → ¬ K k → ∀ k', K k' → ∀ j ∈ s.line k',
      j ∈ s.line k' ∧ j ≠ i := by
    rintro i k c hcall hk k' hk' j hj
    refine ⟨hj, ?_⟩
    rintro rfl
    exact hk ((for_iff hcall).mp (hlined.waits hk' hj))
  cases h with
  | call k c => exact ⟨turns, taken_call hs hlined⟩
  | @begin i k c hcall hhead hnone =>
    by_cases hk : K k
    · exact ⟨_, taken_begin hs hlined hk hcall hhead hnone⟩
    · exact ⟨turns, taken_aside (i := i) hs rfl rfl (hother hcall hk)
        (fun j hji => Function.update_of_ne hji ..)
        (fun v _ hfor => absurd ((for_iff hcall).mp hfor) hk) fun x hx => Or.inl hx⟩
  | @go i k c o p since a hcall hi htime =>
    by_cases hk : K k
    · exact taken_go hs hlined a hk hcall hi htime
    · refine ⟨turns, taken_aside (i := i) hs ?_ rfl (hother hcall hk)
        (fun j hji => Function.update_of_ne hji ..)
        (fun v _ hfor => absurd ((for_iff hcall).mp hfor) hk) fun x hx => Or.inl hx⟩
      simp [hk]
  | @finish i k c v r hi hr hcall =>
    refine ⟨turns, taken_aside (i := i) hs rfl rfl (fun k' _ j hj => ⟨mem_erased rfl hj, ?_⟩)
      (fun j hji => Function.update_of_ne hji ..) (fun w hw => ?_) fun x hx => ?_⟩
    · rintro rfl
      exact hlined.gone hcall k' hj
    · dsimp only at hw
      rw [Function.update_self] at hw
      cases hw
    · rcases List.mem_append.mp hx with hx | hx
      · exact Or.inl hx
      · rw [List.mem_singleton.mp hx]
        refine Or.inr ⟨k, c, hcall, fun hk => ?_⟩
        obtain ⟨before, n, heq, hn, hrest, -⟩ := hs.running i v hi ((for_iff hcall).mpr hk)
        refine ⟨n, ?_, hn, hrest ▸ hr⟩
        rw [heq]
        exact List.mem_append_right _ (List.mem_singleton_self n)
  | @leave i k c hcall =>
    refine ⟨turns, taken_aside (i := i) hs rfl rfl (fun k' _ j hj => ⟨mem_erased rfl hj, ?_⟩)
      (fun _ _ => rfl) (fun _ hw _ => hw) fun x hx => Or.inl hx⟩
    rintro rfl
    exact hlined.gone hcall k' hj
  | tick htime =>
    exact ⟨turns, hs.log, hs.order, hs.known, hs.timed, hs.running, hs.waiting, hs.results⟩

end Taken

section Clock
variable [DecidableEq κ] [Add T] [Preorder T] {code : γ → Prog Op Ans ε α} {delay : Op → T}
  {s t : Sys κ γ T Op Ans ε α} {l : Label κ γ}

/-- The answers are dated in their order. -/
structure Dated (s : Sys κ γ T Op Ans ε α) : Prop where
  sorted : s.log.Pairwise fun x y => x.2.2.time ≤ y.2.2.time
  past : ∀ x ∈ s.log, x.2.2.time ≤ s.now

theorem dated_step (h : Step code delay s l t) (hs : Dated s) : Dated t := by
  cases h with
  | go a hcall hi htime =>
    refine ⟨List.pairwise_append.mpr ⟨hs.sorted, List.pairwise_singleton _ _, fun x hx y hy => ?_⟩,
      fun x hx => ?_⟩
    · rw [List.mem_singleton.mp hy]
      exact hs.past x hx
    · rcases List.mem_append.mp hx with hx | hx
      · exact hs.past x hx
      · rw [List.mem_singleton.mp hx]
  | tick htime => exact ⟨hs.sorted, fun x hx => le_trans (hs.past x hx) htime⟩
  | call k c | begin hcall hhead hnone | finish hi hr hcall | leave hcall =>
    exact ⟨hs.sorted, hs.past⟩

end Clock

/-- Where an element of a joined list comes from. -/
theorem flatMap_split {β δ : Type} {f : β → List δ} {l : List β} {pre post : List δ} {x : δ}
    (h : l.flatMap f = pre ++ x :: post) : ∃ l₁ a l₂ p q, l = l₁ ++ a :: l₂ ∧
      f a = p ++ x :: q ∧ pre = l₁.flatMap f ++ p := by
  induction l generalizing pre with
  | nil =>
    rw [List.flatMap_nil] at h
    exact absurd h.symm (by simp)
  | cons a l ih =>
    rw [List.flatMap_cons] at h
    rcases List.append_eq_append_iff.mp h with ⟨p, hpre, hrest⟩ | ⟨p, hfirst, hrest⟩
    · obtain ⟨l₁, b, l₂, p', q, rfl, hb, rfl⟩ := ih hrest
      refine ⟨a :: l₁, b, l₂, p', q, rfl, hb, ?_⟩
      rw [hpre, List.flatMap_cons, List.append_assoc]
    · cases p with
      | nil =>
        have hhere : l.flatMap f = [] ++ x :: post := hrest.symm
        obtain ⟨l₁, b, l₂, p', q, rfl, hb, hnil⟩ := ih hhere
        refine ⟨a :: l₁, b, l₂, p', q, rfl, hb, ?_⟩
        rw [List.append_nil] at hfirst
        rw [List.flatMap_cons, List.append_assoc, ← hnil, List.append_nil, hfirst]
      | cons y p =>
        cases hrest
        exact ⟨[], a, l, pre, p, rfl, hfirst, rfl⟩

section Parts
variable [Add T] [LE T] {delay : Op → T} {p : Prog Op Ans ε α} {es : List (Event T Op Ans)}
  {s u : T} {β : Type} {q : Prog Op Ans ε β} {a : α} {b : β}

theorem timed_pure {r : Prog Op Ans ε α} (h : Timed delay (.pure a) s es r u) :
    es = [] ∧ r = .pure a := by
  generalize hp : (.pure a : Prog Op Ans ε α) = p at h
  induction h with
  | nil => exact ⟨rfl, rfl⟩
  | snoc _ _ ih =>
    obtain ⟨-, hcall⟩ := ih
    rw [← hp] at hcall
    cases hcall

theorem timed_throw {e : ε} {r : Prog Op Ans ε α} (h : Timed delay (.throw e) s es r u) :
    es = [] ∧ r = .throw e := by
  generalize hp : (.throw e : Prog Op Ans ε α) = p at h
  induction h with
  | nil => exact ⟨rfl, rfl⟩
  | snoc _ _ ih =>
    obtain ⟨-, hcall⟩ := ih
    rw [← hp] at hcall
    cases hcall

/-- A run of two programs, one after the other, is in the first one or has gone through it. -/
theorem timed_bind {f : α → Prog Op Ans ε β} (h : Timed delay (p >>= f) s es q u) :
    (∃ r, Timed delay p s es r u ∧ q = r >>= f) ∨ ∃ es₁ a v es₂,
      Timed delay p s es₁ (.pure a) v ∧ Timed delay (f a) v es₂ q u ∧ es = es₁ ++ es₂ := by
  induction h with
  | nil => exact Or.inl ⟨p, .nil, rfl⟩
  | @snoc es o k u x v _ hv ih =>
    rcases ih with ⟨r, hr, hcall⟩ | ⟨es₁, a, w, es₂, hfirst, hsecond, rfl⟩
    · cases r with
      | pure a =>
        have hf : f a = .call o k := hcall.symm
        have hrun : Timed delay (f a) u [⟨o, x, v⟩] (k x) v := by
          rw [hf]
          exact Timed.snoc .nil hv
        exact Or.inr ⟨es, a, u, _, hr, hrun, rfl⟩
      | throw e => cases hcall
      | call o' k' =>
        cases hcall
        exact Or.inl ⟨k' x, hr.snoc hv, rfl⟩
    · exact Or.inr ⟨es₁, a, w, _, hfirst, hsecond.snoc hv, List.append_assoc ..⟩

theorem timed_bind_pure {f : α → Prog Op Ans ε β} (h : Timed delay (p >>= f) s es (.pure b) u) :
    ∃ es₁ a v es₂, Timed delay p s es₁ (.pure a) v ∧ Timed delay (f a) v es₂ (.pure b) u ∧
      es = es₁ ++ es₂ := by
  rcases timed_bind h with ⟨r, hr, hpure⟩ | h
  · cases r with
    | pure a =>
      have hf : f a = .pure b := hpure.symm
      exact ⟨es, a, u, [], hr, by rw [hf]; exact .nil, (List.append_nil es).symm⟩
    | throw e => cases hpure
    | call o k => cases hpure
  · exact h

/-- A program under a handler ends by itself, or in the handler. -/
theorem timed_handle {handler : ε → Prog Op Ans ε α} {r : Prog Op Ans ε α}
    (h : Timed delay (p.handle handler) s es r u) :
    (∃ r', Timed delay p s es r' u ∧ r = r'.handle handler) ∨ ∃ es₁ e v es₂,
      Timed delay p s es₁ (.throw e) v ∧ Timed delay (handler e) v es₂ r u ∧
        es = es₁ ++ es₂ := by
  induction h with
  | nil => exact Or.inl ⟨p, .nil, rfl⟩
  | @snoc es o k u x v _ hv ih =>
    rcases ih with ⟨r, hr, hcall⟩ | ⟨es₁, e, w, es₂, hfirst, hsecond, rfl⟩
    · cases r with
      | pure a => cases hcall
      | throw e =>
        have hh : handler e = .call o k := hcall.symm
        have hrun : Timed delay (handler e) u [⟨o, x, v⟩] (k x) v := by
          rw [hh]
          exact Timed.snoc .nil hv
        exact Or.inr ⟨es, e, u, _, hr, hrun, rfl⟩
      | call o' k' =>
        cases hcall
        exact Or.inl ⟨k' x, hr.snoc hv, rfl⟩
    · exact Or.inr ⟨es₁, e, w, _, hfirst, hsecond.snoc hv, List.append_assoc ..⟩

theorem timed_handle_pure {handler : ε → Prog Op Ans ε α}
    (h : Timed delay (p.handle handler) s es (.pure a) u) :
    Timed delay p s es (.pure a) u ∨ ∃ es₁ e v es₂, Timed delay p s es₁ (.throw e) v ∧
      Timed delay (handler e) v es₂ (.pure a) u ∧ es = es₁ ++ es₂ := by
  rcases timed_handle h with ⟨r, hr, hpure⟩ | h
  · cases r with
    | pure a' =>
      cases hpure
      exact Or.inl hr
    | throw e =>
      have hh : handler e = .pure a := hpure.symm
      exact Or.inr ⟨es, e, u, [], hr, by rw [hh]; exact .nil, (List.append_nil es).symm⟩
    | call o k => cases hpure
  · exact Or.inr h

theorem timed_perform {o : Op} {r : Prog Op Ans ε (Ans o)}
    (h : Timed delay (Prog.perform o) s es r u) :
    (es = [] ∧ r = Prog.perform o) ∨ ∃ x v, es = [⟨o, x, v⟩] ∧ r = .pure x := by
  induction h with
  | nil => exact Or.inl ⟨rfl, rfl⟩
  | @snoc es o' k u y v _ _ ih =>
    rcases ih with ⟨rfl, hcall⟩ | ⟨z, w, rfl, hcall⟩
    · cases hcall
      exact Or.inr ⟨y, v, rfl, rfl⟩
    · cases hcall

theorem timed_only {ok : Op → Prop} {raises : ε → Prop} {r : Prog Op Ans ε α}
    (h : Timed delay p s es r u) (hp : Only ok raises p) :
    (∀ e ∈ es, ok e.op) ∧ Only ok raises r := by
  induction h with
  | nil => exact ⟨fun e he => absurd he List.not_mem_nil, hp⟩
  | snoc _ _ ih =>
    obtain ⟨hes, hok, hrest⟩ := ih
    refine ⟨fun e he => ?_, hrest _⟩
    rcases List.mem_append.mp he with he | he
    · exact hes e he
    · rw [List.mem_singleton.mp he]
      exact hok

end Parts

end Turns
