import Mathlib.Data.List.Basic
import Mathlib.Data.List.Pairwise

/-! Frames in a stream of symbols: from a start symbol to the next stop symbol. -/
namespace Framing

/-- What a reader knows after some symbols: the frame that is begun, how much it has read, and the
frames so far, each with the number of symbols up to its end. -/
structure Scan (α : Type) where
  begun : Option (List α) := none
  read : Nat := 0
  frames : List (Nat × List α) := []

/-- What stands before the first of some symbol is determined. -/
theorem split_unique {β : Type} {x : β} {p q p' q' : List β} (hp : x ∉ p) (hp' : x ∉ p')
    (h : p ++ x :: q = p' ++ x :: q') : p = p' ∧ q = q' := by
  induction p generalizing p' with
  | nil =>
    rcases p' with - | ⟨y, p'⟩
    · exact ⟨rfl, (List.cons.inj h).2⟩
    · obtain ⟨rfl, -⟩ := List.cons.inj h
      exact (hp' List.mem_cons_self).elim
  | cons y p ih =>
    rcases p' with - | ⟨y', p'⟩
    · obtain ⟨rfl, -⟩ := List.cons.inj h
      exact (hp List.mem_cons_self).elim
    · obtain ⟨rfl, htail⟩ := List.cons.inj h
      obtain ⟨rfl, rfl⟩ := ih (fun hmem => hp (List.mem_cons_of_mem _ hmem))
        (fun hmem => hp' (List.mem_cons_of_mem _ hmem)) htail
      exact ⟨rfl, rfl⟩

section Relation
variable {α : Type} {start stop : α} {xs : List α}

/-- A start symbol with a stop symbol somewhere behind it. -/
def Complete (start stop : α) (xs : List α) : Prop :=
  ∃ p q r, xs = p ++ start :: (q ++ stop :: r)

/-- The stream from left to right: noise, a frame up to its first stop symbol, and the rest. -/
inductive Decomposes (start stop : α) : List α → List (List α) → Prop where
  | rest {xs : List α} : ¬ Complete start stop xs → Decomposes start stop xs []
  | frame {noise body tail : List α} {fs : List (List α)} :
    start ∉ noise → stop ∉ body → Decomposes start stop tail fs →
    Decomposes start stop (noise ++ start :: (body ++ stop :: tail))
      ((start :: (body ++ [stop])) :: fs)

theorem decomposes_unique {fs gs : List (List α)} (h : Decomposes start stop xs fs)
    (h' : Decomposes start stop xs gs) : fs = gs := by
  induction h generalizing gs with
  | rest hrest =>
    cases h' with
    | rest _ => rfl
    | frame _ _ _ => exact (hrest ⟨_, _, _, rfl⟩).elim
  | @frame noise body tail fs hn hb _ ih =>
    generalize hxs : noise ++ start :: (body ++ stop :: tail) = xs at h'
    cases h' with
    | rest hrest => exact (hrest ⟨_, _, _, hxs.symm⟩).elim
    | @frame noise' body' tail' gs hn' hb' h' =>
      obtain ⟨rfl, hbody⟩ := split_unique hn hn' hxs
      obtain ⟨rfl, rfl⟩ := split_unique hb hb' hbody
      rw [ih h']

end Relation

variable {α : Type} [DecidableEq α] {start stop : α} {s : Scan α} {k : Nat} {xs ys noise body : List α}
  {fs : List (Nat × List α)}

namespace Scan

def step (start stop : α) (s : Scan α) (x : α) : Scan α :=
  match s.begun with
  | none => { s with begun := if x = start then some [x] else none, read := s.read + 1 }
  | some xs =>
    if x = stop then
      { begun := none, read := s.read + 1, frames := s.frames ++ [(s.read + 1, xs ++ [x])] }
    else { s with begun := some (xs ++ [x]), read := s.read + 1 }

def steps (start stop : α) (s : Scan α) (xs : List α) : Scan α := xs.foldl (step start stop) s

theorem steps_append (xs ys : List α) :
    s.steps start stop (xs ++ ys) = (s.steps start stop xs).steps start stop ys :=
  List.foldl_append

theorem steps_noise (h : start ∉ xs) :
    (⟨none, k, fs⟩ : Scan α).steps start stop xs = ⟨none, k + xs.length, fs⟩ := by
  induction xs generalizing k with
  | nil => rfl
  | cons x xs ih =>
    have hx : ¬ x = start := fun hx => h (hx ▸ List.mem_cons_self)
    have hxs : start ∉ xs := fun hmem => h (List.mem_cons_of_mem x hmem)
    have hstep : (⟨none, k, fs⟩ : Scan α).step start stop x = ⟨none, k + 1, fs⟩ := by
      simp [step, hx]
    change ((⟨none, k, fs⟩ : Scan α).step start stop x).steps start stop xs = _
    rw [hstep, ih hxs, List.length_cons, Nat.add_assoc, Nat.add_comm 1]

theorem steps_body (h : stop ∉ xs) :
    (⟨some ys, k, fs⟩ : Scan α).steps start stop xs = ⟨some (ys ++ xs), k + xs.length, fs⟩ := by
  induction xs generalizing k ys with
  | nil =>
    rw [List.append_nil]
    rfl
  | cons x xs ih =>
    have hx : ¬ x = stop := fun hx => h (hx ▸ List.mem_cons_self)
    have hxs : stop ∉ xs := fun hmem => h (List.mem_cons_of_mem x hmem)
    have hstep : (⟨some ys, k, fs⟩ : Scan α).step start stop x = ⟨some (ys ++ [x]), k + 1, fs⟩ := by
      simp [step, hx]
    change ((⟨some ys, k, fs⟩ : Scan α).step start stop x).steps start stop xs = _
    rw [hstep, ih hxs, List.append_assoc, List.length_cons, Nat.add_assoc, Nat.add_comm 1]
    rfl

/-- A start symbol behind some noise. -/
theorem steps_begin (hn : start ∉ noise) (hb : stop ∉ body) :
    (⟨none, k, fs⟩ : Scan α).steps start stop (noise ++ start :: body) =
      ⟨some (start :: body), k + (noise ++ start :: body).length, fs⟩ := by
  have hstart : (⟨none, k + noise.length, fs⟩ : Scan α).step start stop start =
      ⟨some [start], k + noise.length + 1, fs⟩ := by
    simp [step]
  rw [steps_append, steps_noise hn]
  change ((⟨none, k + noise.length, fs⟩ : Scan α).step start stop start).steps start stop body = _
  rw [hstart, steps_body hb, List.length_append, List.length_cons]
  simp only [List.singleton_append, Nat.add_assoc, Nat.add_comm 1]

theorem steps_frame (hn : start ∉ noise) (hb : stop ∉ body) :
    (⟨none, k, fs⟩ : Scan α).steps start stop (noise ++ start :: (body ++ [stop])) =
      ⟨none, k + (noise ++ start :: (body ++ [stop])).length,
        fs ++ [(k + (noise ++ start :: (body ++ [stop])).length, start :: (body ++ [stop]))]⟩ := by
  have hsplit : noise ++ start :: (body ++ [stop]) = (noise ++ start :: body) ++ [stop] := by simp
  rw [hsplit, steps_append, steps_begin hn hb]
  simp [steps, step, Nat.add_assoc]

/-- What was read before does not matter for what is found next. -/
theorem steps_frames (start stop : α) (s : Scan α) (gs : List (Nat × List α)) (xs : List α) :
    ({ s with frames := gs ++ s.frames } : Scan α).steps start stop xs =
      { s.steps start stop xs with frames := gs ++ (s.steps start stop xs).frames } := by
  induction xs generalizing s with
  | nil => rfl
  | cons x xs ih =>
    have hstep : ({ s with frames := gs ++ s.frames } : Scan α).step start stop x =
        { s.step start stop x with frames := gs ++ (s.step start stop x).frames } := by
      unfold step
      cases s.begun with
      | none => rfl
      | some ys =>
        dsimp only
        split
        · simp
        · rfl
    change (({ s with frames := gs ++ s.frames } : Scan α).step start stop x).steps start stop xs = _
    rw [hstep]
    exact ih _

theorem frames_grow (start stop : α) (s : Scan α) (xs : List α) :
    s.frames <+: (s.steps start stop xs).frames := by
  induction xs generalizing s with
  | nil => exact List.prefix_refl _
  | cons x xs ih =>
    refine List.IsPrefix.trans ?_ (ih (s.step start stop x))
    unfold step
    split
    · exact List.prefix_refl _
    · split
      · exact List.prefix_append _ _
      · exact List.prefix_refl _

/-- Each frame ends behind the one before it, and has been read. -/
theorem steps_sorted (hs : (s.frames.map Prod.fst).Pairwise (· < ·))
    (hread : ∀ f ∈ s.frames, f.1 ≤ s.read) (xs : List α) :
    ((s.steps start stop xs).frames.map Prod.fst).Pairwise (· < ·) := by
  induction xs generalizing s with
  | nil => exact hs
  | cons x xs ih =>
    change (((s.step start stop x).steps start stop xs).frames.map Prod.fst).Pairwise (· < ·)
    unfold step
    cases s.begun with
    | none => exact ih hs fun f hf => Nat.le_succ_of_le (hread f hf)
    | some ys =>
      dsimp only
      split
      · apply ih
        · simp only [List.map_append, List.map_cons, List.map_nil]
          refine List.pairwise_append.mpr ⟨hs, List.pairwise_singleton _ _, ?_⟩
          intro a ha b hb
          obtain ⟨f, hf, rfl⟩ := List.mem_map.mp ha
          have hle := hread f hf
          rw [List.mem_singleton.mp hb]
          omega
        · intro f hf
          rcases List.mem_append.mp hf with hf | hf
          · exact Nat.le_succ_of_le (hread f hf)
          · obtain rfl := List.mem_singleton.mp hf
            exact Nat.le_refl _
      · exact ih hs fun f hf => Nat.le_succ_of_le (hread f hf)

end Scan

/-- A whole stream. -/
def scan (start stop : α) (xs : List α) : Scan α := ({} : Scan α).steps start stop xs

theorem scan_append (xs ys : List α) :
    scan start stop (xs ++ ys) = (scan start stop xs).steps start stop ys :=
  Scan.steps_append xs ys

theorem scan_sorted (xs : List α) :
    ((scan start stop xs).frames.map Prod.fst).Pairwise (· < ·) :=
  Scan.steps_sorted List.Pairwise.nil (fun _ hf => absurd hf List.not_mem_nil) xs

theorem scan_nodup (xs : List α) : (scan start stop xs).frames.Nodup := by
  have hne : ((scan start stop xs).frames.map Prod.fst).Nodup :=
    (scan_sorted xs).imp fun hlt => Nat.ne_of_lt hlt
  exact List.Pairwise.of_map Prod.fst (fun _ _ h heq => h (congrArg Prod.fst heq)) hne

section Decomposition
variable {xs noise body tail : List α} {k : Nat} {fs : List (Nat × List α)}

theorem first_frame (h : Complete start stop xs) :
    ∃ noise body tail, start ∉ noise ∧ stop ∉ body ∧
      xs = noise ++ start :: (body ++ stop :: tail) := by
  obtain ⟨p, q, r, rfl⟩ := h
  obtain ⟨noise, rest, hxs, hn⟩ := List.eq_append_cons_of_mem
    (show start ∈ p ++ start :: (q ++ stop :: r) by simp)
  have hstop : stop ∈ rest := by
    by_cases hp : start ∈ p
    · obtain ⟨a, b, rfl, ha⟩ := List.eq_append_cons_of_mem hp
      rw [List.append_assoc] at hxs
      obtain ⟨-, hrest⟩ := split_unique ha hn hxs
      rw [← hrest]
      simp
    · obtain ⟨-, hrest⟩ := split_unique hp hn hxs
      rw [← hrest]
      simp
  obtain ⟨body, tail, rfl, hb⟩ := List.eq_append_cons_of_mem hstop
  exact ⟨noise, body, tail, hn, hb, hxs⟩

/-- Where no frame is complete, none is found. -/
theorem frames_incomplete (h : ¬ Complete start stop xs) :
    ((⟨none, k, fs⟩ : Scan α).steps start stop xs).frames = fs := by
  by_cases hstart : start ∈ xs
  · obtain ⟨noise, body, rfl, hn⟩ := List.eq_append_cons_of_mem hstart
    have hb : stop ∉ body := by
      intro hstop
      obtain ⟨q, r, rfl⟩ := List.append_of_mem hstop
      exact h ⟨noise, q, r, rfl⟩
    rw [Scan.steps_begin hn hb]
  · rw [Scan.steps_noise hstart]

theorem decomposes_steps (n k : Nat) (fs : List (Nat × List α)) (h : xs.length ≤ n) :
    ∃ gs, ((⟨none, k, fs⟩ : Scan α).steps start stop xs).frames = fs ++ gs ∧
      Decomposes start stop xs (gs.map Prod.snd) := by
  induction n generalizing xs k fs with
  | zero =>
    obtain rfl := List.eq_nil_of_length_eq_zero (Nat.le_zero.mp h)
    refine ⟨[], (List.append_nil _).symm, .rest ?_⟩
    rintro ⟨p, q, r, hnil⟩
    simp at hnil
  | succ n ih =>
    by_cases hc : Complete start stop xs
    · obtain ⟨noise, body, tail, hn, hb, rfl⟩ := first_frame hc
      have hlen : tail.length ≤ n := by
        simp only [List.length_append, List.length_cons] at h
        omega
      have hsplit : noise ++ start :: (body ++ stop :: tail) =
          (noise ++ start :: (body ++ [stop])) ++ tail := by simp
      rw [hsplit, Scan.steps_append, Scan.steps_frame hn hb, ← hsplit]
      obtain ⟨gs, hframes, hgs⟩ := ih (k + (noise ++ start :: (body ++ [stop])).length)
        (fs ++ [(k + (noise ++ start :: (body ++ [stop])).length, start :: (body ++ [stop]))]) hlen
      refine ⟨(k + (noise ++ start :: (body ++ [stop])).length, start :: (body ++ [stop])) :: gs,
        ?_, .frame hn hb hgs⟩
      rw [hframes, List.append_assoc]
      rfl
    · exact ⟨[], by rw [frames_incomplete hc, List.append_nil], .rest hc⟩

/-- The frames of a scan are the decomposition. -/
theorem decomposes_scan (xs : List α) :
    Decomposes start stop xs ((scan start stop xs).frames.map Prod.snd) := by
  obtain ⟨gs, hframes, hgs⟩ : ∃ gs, (scan start stop xs).frames = [] ++ gs ∧
      Decomposes start stop xs (gs.map Prod.snd) := decomposes_steps xs.length 0 [] (Nat.le_refl _)
  rw [hframes]
  exact hgs

theorem decomposes_iff {gs : List (List α)} :
    Decomposes start stop xs gs ↔ gs = (scan start stop xs).frames.map Prod.snd := by
  constructor
  · exact fun h => decomposes_unique h (decomposes_scan xs)
  · rintro rfl
    exact decomposes_scan xs

end Decomposition
end Framing
