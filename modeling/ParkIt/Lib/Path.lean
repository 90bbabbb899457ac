import Mathlib.Data.List.Basic

/-! Finite paths of a labelled transition relation and the invariants they carry. -/
namespace Transition

variable {S L : Type*} {step step' : S → L → S → Prop} {P : S → Prop}
  {s t : S} {a : L} {xs ys : List (L × S)}

/-- A path lists each label with the state it leads to, so every visited state is explicit. -/
def Path (step : S → L → S → Prop) : S → List (L × S) → Prop
  | _, [] => True
  | s, (a, t) :: xs => step s a t ∧ Path step t xs

/-- The state in which a path ends. -/
def finish : S → List (L × S) → S
  | s, [] => s
  | _, (_, t) :: xs => finish t xs

@[simp] theorem path_nil : Path step s [] := trivial

@[simp] theorem path_cons : Path step s ((a, t) :: xs) ↔ step s a t ∧ Path step t xs := Iff.rfl

@[simp] theorem finish_nil : finish s ([] : List (L × S)) = s := rfl

@[simp] theorem finish_cons : finish s ((a, t) :: xs) = finish t xs := rfl

theorem finish_append : finish s (xs ++ ys) = finish (finish s xs) ys := by
  induction xs generalizing s with
  | nil => rfl
  | cons x xs ih => exact ih

theorem path_append : Path step s (xs ++ ys) ↔ Path step s xs ∧ Path step (finish s xs) ys := by
  induction xs generalizing s with
  | nil => simp
  | cons x xs ih =>
    obtain ⟨a, t⟩ := x
    simp [ih, and_assoc]

theorem Path.mono (h : Path step s xs) (hstep : ∀ s a t, step s a t → step' s a t) :
    Path step' s xs := by
  induction xs generalizing s with
  | nil => trivial
  | cons x xs ih => exact ⟨hstep _ _ _ h.1, ih h.2⟩

theorem Path.and (h : Path step s xs) (h' : Path step' s xs) :
    Path (fun s a t => step s a t ∧ step' s a t) s xs := by
  induction xs generalizing s with
  | nil => trivial
  | cons x xs ih => exact ⟨⟨h.1, h'.1⟩, ih h.2 h'.2⟩

def decidablePath [∀ s a t, Decidable (step s a t)] :
    (s : S) → (xs : List (L × S)) → Decidable (Path step s xs)
  | _, [] => .isTrue trivial
  | s, (a, t) :: xs =>
    have := decidablePath t xs
    inferInstanceAs (Decidable (step s a t ∧ Path step t xs))

instance [∀ s a t, Decidable (step s a t)] : Decidable (Path step s xs) := decidablePath s xs

/-- What every step preserves holds at the end of every path. -/
theorem Path.invariant (h : Path step s xs) (hstep : ∀ s a t, step s a t → P s → P t)
    (hs : P s) : P (finish s xs) := by
  induction xs generalizing s with
  | nil => exact hs
  | cons x xs ih => exact ih h.2 (hstep _ _ _ h.1 hs)

/-- What follows from the invariant holds of every step. -/
theorem Path.each {Q : S → L → S → Prop} (h : Path step s xs)
    (hstep : ∀ s a t, step s a t → P s → P t) (hQ : ∀ s a t, step s a t → P s → Q s a t)
    (hs : P s) : Path Q s xs := by
  induction xs generalizing s with
  | nil => trivial
  | cons x xs ih => exact ⟨hQ _ _ _ h.1 hs, ih h.2 (hstep _ _ _ h.1 hs)⟩

/-- The same for an invariant that also speaks of the labels already taken. -/
theorem Path.history {Q : List L → S → Prop} (h : Path step s xs) {as : List L}
    (hstep : ∀ as s a t, step s a t → Q as s → Q (as ++ [a]) t) (hs : Q as s) :
    Q (as ++ xs.map Prod.fst) (finish s xs) := by
  induction xs generalizing s as with
  | nil => simpa using hs
  | cons x xs ih =>
    obtain ⟨a, t⟩ := x
    simpa using ih h.2 (hstep _ _ _ _ h.1 hs)

/-- What the labels of a path come to. -/
def tally (f : L → Nat) : List (L × S) → Nat
  | [] => 0
  | (a, _) :: xs => f a + tally f xs

/-- Where no step spends more than it gains and takes from the credit, no path does. -/
theorem Path.budget (cost gain : L → Nat) (credit : S → Nat) (h : Path step s xs)
    (hstep : ∀ s a t, step s a t → P s → P t)
    (hcredit : ∀ s a t, step s a t → P s → cost a + credit t ≤ credit s + gain a) (hs : P s) :
    tally cost xs + credit (finish s xs) ≤ credit s + tally gain xs := by
  induction xs generalizing s with
  | nil => simp [tally]
  | cons x xs ih =>
    obtain ⟨a, t⟩ := x
    have hone := hcredit _ _ _ h.1 hs
    have hrest := ih h.2 (hstep _ _ _ h.1 hs)
    rw [tally, tally, finish_cons]
    omega

/-- A path with a note that is taken of each of its steps. -/
def noted {G : Type*} (next : G → S → L → G) : S → G → List (L × S) → List (L × (S × G))
  | _, _, [] => []
  | s, g, (a, t) :: xs => (a, t, next g s a) :: noted next t (next g s a) xs

theorem Path.noted {G : Type*} (next : G → S → L → G) (g : G) (h : Path step s xs) :
    Path (fun p a q => step p.1 a q.1 ∧ q.2 = next p.2 p.1 a) (s, g) (noted next s g xs) := by
  induction xs generalizing s g with
  | nil => trivial
  | cons x xs ih => exact ⟨⟨h.1, rfl⟩, ih (next g s x.1) h.2⟩

/-- Every step of a path starts in a state that satisfies the invariant. -/
theorem Path.at_step (h : Path step s xs) (hstep : ∀ s a t, step s a t → P s → P t)
    (hs : P s) {pre post : List (L × S)} (heq : xs = pre ++ (a, t) :: post) :
    P (finish s pre) ∧ step (finish s pre) a t := by
  subst heq
  obtain ⟨hpre, hpost⟩ := path_append.mp h
  exact ⟨hpre.invariant hstep hs, hpost.1⟩

theorem path_of_split (h : ∀ pre a t post, xs = pre ++ (a, t) :: post → step (finish s pre) a t) :
    Path step s xs := by
  induction xs generalizing s with
  | nil => trivial
  | cons x xs ih =>
    obtain ⟨a, t⟩ := x
    refine ⟨h [] a t xs rfl, ih fun pre b u post heq => ?_⟩
    exact h ((a, t) :: pre) b u post (by rw [heq]; rfl)

/-- The path of a deterministic system along a list of labels. -/
def trace (next : S → L → S) : S → List L → List (L × S)
  | _, [] => []
  | s, a :: as => (a, next s a) :: trace next (next s a) as

theorem trace_path (next : S → L → S) (s : S) (as : List L) :
    Path (fun s a t => t = next s a) s (trace next s as) := by
  induction as generalizing s with
  | nil => trivial
  | cons a as ih => exact ⟨rfl, ih _⟩

end Transition
