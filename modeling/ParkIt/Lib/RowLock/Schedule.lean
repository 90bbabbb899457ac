import ParkIt.Lib.RowLock.Model

/-! An executable scheduler, for runs that are written down turn by turn. -/
namespace RowLock

open Effects

variable {ι K R U E : Type} {A : E → Type} {ε α σ : Type} [DecidableEq ι] [DecidableEq K]

/-- Start a session, or let it do its next statement, or break it off. -/
inductive Turn (ι K R U : Type) {E : Type} (A : E → Type) (ε α : Type) where
  | begin (j : ι) (p : Handler K R U A ε α)
  | go (j : ι)
  | abort (j : ι)

section Next
variable (S : Schema K R U) (answer : σ → (e : E) → Option (A e × σ))

/-- The next statement of a session, when it is not blocked; rows are locked in table order. -/
def advance (s : Sys ι K R U A ε α σ) (j : ι) :
    Option (Label ι K U α × Sys ι K R U A ε α σ) :=
  match s.session j with
  | .idle => none
  | .ended _ => none
  | .running (.pure a) w =>
    some (.commit j a w, { s with table := s.table.map (S.overlay w) }.release j |>.set j
      (.ended (some a)))
  | .running (.throw _) _ => some (.abort j, s.release j |>.set j (.ended none))
  | .running (.call (.lock f) k) w =>
    some (.stmt j, s.set j
      (.locking f (((s.table.map (S.overlay w)).filter f).map S.key) [] k w))
  | .running (.call (.update i u) k) w =>
    if s.holder i = none ∨ s.holder i = some j then
      match S.lookup s.table i with
      | some _ => some (.stmt j, (s.take i j).set j (.running (k ()) (w ++ [(i, u)])))
      | none => none
    else none
  | .running (.call (.ext e) k) w =>
    match answer s.shared e with
    | some (a, sh) => some (.stmt j, { s with shared := sh }.set j (.running (k a) w))
    | none => none
  | .locking _ [] got k w => some (.stmt j, s.set j (.running (k got) w))
  | .locking f (i :: todo) got k w =>
    if s.holder i = none ∨ s.holder i = some j then
      match s.view S w i with
      | some r => some (.stmt j, (s.take i j).set j
          (.locking f todo (if f r then got ++ [r] else got) k w))
      | none => none
    else none

def takeTurn (s : Sys ι K R U A ε α σ) :
    Turn ι K R U A ε α → Option (Label ι K U α × Sys ι K R U A ε α σ)
  | .begin j p =>
    match s.session j with
    | .idle => some (.begin j, s.set j (.running p []))
    | _ => none
  | .go j => advance S answer s j
  | .abort j =>
    match s.session j with
    | .idle => none
    | .ended _ => none
    | _ => some (.abort j, s.release j |>.set j (.ended none))

/-- Turns that are not possible are skipped. -/
def takeTurns : Sys ι K R U A ε α σ → List (Turn ι K R U A ε α) →
    List (Label ι K U α × Sys ι K R U A ε α σ)
  | _, [] => []
  | s, x :: xs =>
    match takeTurn S answer s x with
    | some (l, s') => (l, s') :: takeTurns s' xs
    | none => takeTurns s xs

end Next

section Sound
variable {S : Schema K R U} {answer : σ → (e : E) → Option (A e × σ)}
  {start : ι → Handler K R U A ε α → Prop} {ext : σ → (e : E) → A e → σ → Prop}
  {s s' : Sys ι K R U A ε α σ} {l : Label ι K U α} {j : ι}

theorem advance_step (hext : ∀ sh e a sh', answer sh e = some (a, sh') → ext sh e a sh')
    (h : advance S answer s j = some (l, s')) : Step S start ext s l s' := by
  unfold advance at h
  split at h
  case h_1 => cases h
  case h_2 => cases h
  case h_3 hj => cases h; exact .commit hj
  case h_4 hj => cases h; exact .abort (by rw [hj]; nofun) (by rw [hj]; nofun)
  case h_5 hj => cases h; exact .select hj (List.Perm.refl _)
  case h_6 hj =>
    split at h
    · split at h <;> cases h
      exact .update hj ‹_› ‹_›
    · cases h
  case h_7 hj =>
    split at h <;> cases h
    exact .effect hj (hext _ _ _ _ ‹_›)
  case h_8 hj => cases h; exact .selected hj
  case h_9 hj =>
    split at h
    · split at h <;> cases h
      exact .acquire hj ‹_› ‹_›
    · cases h

theorem takeTurns_path (hext : ∀ sh e a sh', answer sh e = some (a, sh') → ext sh e a sh')
    {xs : List (Turn ι K R U A ε α)} (hstart : ∀ j p, .begin j p ∈ xs → start j p) :
    Transition.Path (Step S start ext) s (takeTurns S answer s xs) := by
  induction xs generalizing s with
  | nil => trivial
  | cons x xs ih =>
    have hrest : ∀ j p, .begin j p ∈ xs → start j p :=
      fun j p h => hstart j p (List.mem_cons_of_mem _ h)
    unfold takeTurns
    split
    · rename_i l s' h
      refine ⟨?_, ih hrest⟩
      cases x with
      | begin j p =>
        simp only [takeTurn] at h
        split at h <;> cases h
        exact .begin ‹_› (hstart j p List.mem_cons_self)
      | go j => exact advance_step hext h
      | abort j =>
        simp only [takeTurn] at h
        split at h <;> cases h
        exact .abort ‹_› ‹_›
    · exact ih hrest

end Sound
end RowLock
