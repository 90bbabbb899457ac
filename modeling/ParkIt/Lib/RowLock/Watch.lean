import ParkIt.Lib.RowLock.Schedule

/-! Sessions under observation: what has been noted of each follows the answers it is given. -/
namespace RowLock

open Effects

variable {ι K R U E : Type} {A : E → Type} {ε α σ Γ : Type} [DecidableEq ι] [DecidableEq K]

structure Watched (ι K R U : Type) {E : Type} (A : E → Type) (ε α σ Γ : Type) where
  sys : Sys ι K R U A ε α σ
  note : ι → Γ

/-- The session that a commit or an abort ends. -/
def Label.ends : Label ι K U α → Option ι
  | .commit j _ _ => some j
  | .abort j => some j
  | _ => none

/-- The notes never block a step: an effect moves the note of its session, the end resets it. -/
inductive WatchStep (S : Schema K R U) (start : ι → Handler K R U A ε α → Prop)
    (ext : σ → (e : E) → A e → σ → Prop) (move : Γ → (e : E) → A e → Γ) (rest : Γ) :
    Watched ι K R U A ε α σ Γ → Label ι K U α → Watched ι K R U A ε α σ Γ → Prop
  | effect {s j e k w a sh} : s.sys.session j = .running (.call (.ext e) k) w →
      ext s.sys.shared e a sh →
      WatchStep S start ext move rest s (.stmt j)
        { sys := { s.sys with shared := sh }.set j (.running (k a) w)
          note := Function.update s.note j (move (s.note j) e a) }
  | rows {s l t} : Step S start (fun _ _ _ _ => False) s.sys l t →
      WatchStep S start ext move rest s l
        { sys := t, note := fun i => if l.ends = some i then rest else s.note i }

section Adequate
variable {S : Schema K R U} {start : ι → Handler K R U A ε α → Prop}
  {ext ext' : σ → (e : E) → A e → σ → Prop} {move : Γ → (e : E) → A e → Γ} {rest : Γ}
  {s t : Watched ι K R U A ε α σ Γ} {u u' : Sys ι K R U A ε α σ} {l : Label ι K U α}

theorem Step.mono (h : Step S start ext u l u')
    (hext : ∀ sh e a sh', ext sh e a sh' → ext' sh e a sh') : Step S start ext' u l u' := by
  cases h with
  | begin hj hp => exact .begin hj hp
  | select hj ht => exact .select hj ht
  | acquire hj hf hv => exact .acquire hj hf hv
  | selected hj => exact .selected hj
  | update hj hf hl => exact .update hj hf hl
  | effect hj he => exact .effect hj (hext _ _ _ _ he)
  | commit hj => exact .commit hj
  | abort hj ha => exact .abort hj ha

/-- Statements on rows leave everything else alone. -/
theorem Step.shared_rows (h : Step S start (fun _ _ _ _ => False) u l u') :
    u'.shared = u.shared := by
  cases h with
  | effect _ he => exact he.elim
  | _ => rfl

theorem WatchStep.step (h : WatchStep S start ext move rest s l t) :
    Step S start ext s.sys l t.sys := by
  cases h with
  | effect hj he => exact .effect hj he
  | rows hs => exact hs.mono fun _ _ _ _ hf => hf.elim

/-- Every step of the sessions can be watched. -/
theorem Step.watched (h : Step S start ext s.sys l u) :
    ∃ n, WatchStep S start ext move rest s l { sys := u, note := n } := by
  cases h with
  | effect hj he => exact ⟨_, .effect hj he⟩
  | begin hj hp => exact ⟨_, .rows (.begin hj hp)⟩
  | select hj ht => exact ⟨_, .rows (.select hj ht)⟩
  | acquire hj hf hv => exact ⟨_, .rows (.acquire hj hf hv)⟩
  | selected hj => exact ⟨_, .rows (.selected hj)⟩
  | update hj hf hl => exact ⟨_, .rows (.update hj hf hl)⟩
  | commit hj => exact ⟨_, .rows (.commit hj)⟩
  | abort hj ha => exact ⟨_, .rows (.abort hj ha)⟩

/-- So every run of the sessions is the run of a watched system. -/
theorem watched_path {xs : List (Label ι K U α × Sys ι K R U A ε α σ)}
    (h : Transition.Path (Step S start ext) s.sys xs) :
    ∃ ys, Transition.Path (WatchStep S start ext move rest) s ys ∧
      ys.map (fun y => (y.1, y.2.sys)) = xs := by
  induction xs generalizing s with
  | nil => exact ⟨[], trivial, rfl⟩
  | cons x xs ih =>
    obtain ⟨hstep, hrest⟩ := h
    have hwatched : ∃ n, WatchStep S start ext move rest s x.1 { sys := x.2, note := n } :=
      hstep.watched
    obtain ⟨n, hwatch⟩ := hwatched
    obtain ⟨ys, hys, hmap⟩ := ih (s := { sys := x.2, note := n }) hrest
    exact ⟨(x.1, { sys := x.2, note := n }) :: ys, ⟨hwatch, hys⟩, by rw [List.map_cons, hmap]⟩

/-- And a run of the watched system is one of the sessions. -/
theorem unwatched_path {ys : List (Label ι K U α × Watched ι K R U A ε α σ Γ)}
    (h : Transition.Path (WatchStep S start ext move rest) s ys) :
    Transition.Path (Step S start ext) s.sys (ys.map fun y => (y.1, y.2.sys)) := by
  induction ys generalizing s with
  | nil => trivial
  | cons y ys ih => exact ⟨h.1.step, ih h.2⟩

end Adequate

/-- Which effects a session may issue under which note; rows are not noted. -/
def watcher (K R U : Type) (may : Γ → E → Prop) (move : Γ → (e : E) → A e → Γ) :
    Protocol (Op K R U E) (Op.Ans A) Γ where
  allow g o := match o with
    | .ext e => may g e
    | _ => True
  expect _ _ _ := True
  next g o := match o with
    | .ext e => fun a => move g e a
    | .lock _ => fun _ => g
    | .update _ _ => fun _ => g

/-- The handler issues only effects that its note allows. -/
abbrev Minds (may : Γ → E → Prop) (move : Γ → (e : E) → A e → Γ) (g : Γ)
    (p : Handler K R U A ε α) : Prop :=
  Follows (watcher K R U may move) g p (fun _ _ => True) fun _ _ => True

section Minds
variable {S : Schema K R U} {start : ι → Handler K R U A ε α → Prop}
  {ext : σ → (e : E) → A e → σ → Prop} {may : Γ → E → Prop} {move : Γ → (e : E) → A e → Γ}
  {rest g : Γ} {s t : Watched ι K R U A ε α σ Γ} {l : Label ι K U α}

def Mindful (may : Γ → E → Prop) (move : Γ → (e : E) → A e → Γ) (rest g : Γ) :
    Session K R U A ε α → Prop
  | .idle => g = rest
  | .ended _ => g = rest
  | .running p _ => Minds may move g p
  | .locking _ _ _ k _ => ∀ rows, Minds may move g (k rows)

omit [DecidableEq K] in
/-- A step of session `j` concerns no other session and no other note. -/
theorem mindful_set {u : Sys ι K R U A ε α σ} {n n' : ι → Γ} {j : ι} {x : Session K R U A ε α}
    (h : ∀ i, Mindful may move rest (n i) (u.session i)) (hn : ∀ i, i ≠ j → n' i = n i)
    (hx : Mindful may move rest (n' j) x) :
    ∀ i, Mindful may move rest (n' i) ((u.set j x).session i) := by
  intro i
  by_cases hij : i = j
  · subst i
    have hself : (u.set j x).session j = x := by simp [Sys.set]
    rw [hself]
    exact hx
  · have hother : (u.set j x).session i = u.session i := by
      simp [Sys.set, hij]
    rw [hother, hn i hij]
    exact h i

theorem mindful_step (hstart : ∀ j p, start j p → Minds may move rest p)
    (hs : WatchStep S start ext move rest s l t)
    (h : ∀ j, Mindful may move rest (s.note j) (s.sys.session j)) :
    ∀ j, Mindful may move rest (t.note j) (t.sys.session j) := by
  cases hs with
  | @effect j e k w a sh hj _ =>
    have hok := h j
    rw [hj] at hok
    refine mindful_set (u := { s.sys with shared := sh }) h
      (fun i hi => Function.update_of_ne hi _ _) ?_
    have hself : Function.update s.note j (move (s.note j) e a) j = move (s.note j) e a :=
      Function.update_self j _ s.note
    dsimp only
    rw [hself]
    exact hok.2 a trivial
  | rows hs =>
    cases hs with
    | @begin j p hj hp =>
      have hok := h j
      rw [hj] at hok
      refine mindful_set h (fun _ _ => rfl) ?_
      change Minds may move (s.note j) p
      rw [show s.note j = rest from hok]
      exact hstart j p hp
    | @select j f k w todo hj _ =>
      have hok := h j
      rw [hj] at hok
      exact mindful_set h (fun _ _ => rfl) fun rows => hok.2 rows trivial
    | @acquire j f i todo got k w r hj _ _ =>
      have hok := h j
      rw [hj] at hok
      exact mindful_set (u := s.sys.take i j) h (fun _ _ => rfl) hok
    | @selected j f got k w hj =>
      have hok := h j
      rw [hj] at hok
      exact mindful_set h (fun _ _ => rfl) (hok got)
    | @update j i u k w r hj _ _ =>
      have hok := h j
      rw [hj] at hok
      exact mindful_set (u := s.sys.take i j) h (fun _ _ => rfl) (hok.2 () trivial)
    | effect _ he => exact he.elim
    | @commit j a w _ =>
      refine mindful_set (u := Sys.release _ j) h (fun i hi => if_neg ?_) (if_pos rfl)
      rintro ⟨⟩
      exact hi rfl
    | @abort j _ _ =>
      refine mindful_set (u := s.sys.release j) h (fun i hi => if_neg ?_) (if_pos rfl)
      rintro ⟨⟩
      exact hi rfl

omit [DecidableEq ι] [DecidableEq K] in
theorem Mindful.issue {e : E} {k : A e → Handler K R U A ε α} {w : List (K × U)}
    (h : Mindful may move rest g (.running (.call (.ext e) k) w)) : may g e := h.1

end Minds

section Schedule
variable (S : Schema K R U) (answer : σ → (e : E) → Option (A e × σ))
  (move : Γ → (e : E) → A e → Γ) (rest : Γ)

/-- The effect that the session issues next, noted with the answer it will get. -/
def noteNext (s : Watched ι K R U A ε α σ Γ) (j : ι) : Γ :=
  match s.sys.session j with
  | .running (.call (.ext e) _) _ =>
    match answer s.sys.shared e with
    | some (a, _) => move (s.note j) e a
    | none => s.note j
  | _ => s.note j

def watchTurns : Watched ι K R U A ε α σ Γ → List (Turn ι K R U A ε α) →
    List (Label ι K U α × Watched ι K R U A ε α σ Γ)
  | _, [] => []
  | s, x :: xs =>
    match takeTurn S answer s.sys x with
    | none => watchTurns s xs
    | some (l, u) =>
      let note := match x with
        | .go j => Function.update s.note j (noteNext answer move s j)
        | _ => s.note
      let t : Watched ι K R U A ε α σ Γ :=
        { sys := u, note := fun i => if l.ends = some i then rest else note i }
      (l, t) :: watchTurns t xs

end Schedule

section Sound
variable {S : Schema K R U} {answer : σ → (e : E) → Option (A e × σ)}
  {start : ι → Handler K R U A ε α → Prop} {ext : σ → (e : E) → A e → σ → Prop}
  {move : Γ → (e : E) → A e → Γ} {rest : Γ} {s : Watched ι K R U A ε α σ Γ}
  {u : Sys ι K R U A ε α σ} {l : Label ι K U α} {j : ι}

theorem advance_watched (hext : ∀ sh e a sh', answer sh e = some (a, sh') → ext sh e a sh')
    (h : advance S answer s.sys j = some (l, u)) :
    WatchStep S start ext move rest s l
      { sys := u
        note := fun i => if l.ends = some i then rest
          else Function.update s.note j (noteNext answer move s j) i } := by
  have hsame : noteNext answer move s j = s.note j →
      Step S start (fun _ _ _ _ => False) s.sys l u →
      WatchStep S start ext move rest s l
        { sys := u
          note := fun i => if l.ends = some i then rest
            else Function.update s.note j (noteNext answer move s j) i } := by
    intro hn hs
    rw [hn, Function.update_eq_self]
    exact .rows hs
  unfold noteNext at hsame ⊢
  unfold advance at h
  split at h
  case h_1 => cases h
  case h_2 => cases h
  case h_3 hj => cases h; exact hsame (by rw [hj]) (.commit hj)
  case h_4 hj => cases h; exact hsame (by rw [hj]) (.abort (by rw [hj]; nofun) (by rw [hj]; nofun))
  case h_5 hj => cases h; exact hsame (by rw [hj]) (.select hj (List.Perm.refl _))
  case h_6 hj =>
    split at h
    · split at h <;> cases h
      exact hsame (by rw [hj]) (.update hj ‹_› ‹_›)
    · cases h
  case h_7 e k w hj =>
    split at h <;> cases h
    rename_i a sh ha
    have hn : (fun i => if (Label.stmt j : Label ι K U α).ends = some i then rest
        else Function.update s.note j (move (s.note j) e a) i) =
        Function.update s.note j (move (s.note j) e a) := rfl
    simp only [hj, ha]
    rw [hn]
    exact .effect hj (hext _ _ _ _ ha)
  case h_8 hj => cases h; exact hsame (by rw [hj]) (.selected hj)
  case h_9 hj =>
    split at h
    · split at h <;> cases h
      exact hsame (by rw [hj]) (.acquire hj ‹_› ‹_›)
    · cases h

theorem watchTurns_path (hext : ∀ sh e a sh', answer sh e = some (a, sh') → ext sh e a sh')
    {xs : List (Turn ι K R U A ε α)} (hstart : ∀ j p, .begin j p ∈ xs → start j p) :
    Transition.Path (WatchStep S start ext move rest) s (watchTurns S answer move rest s xs) := by
  induction xs generalizing s with
  | nil => trivial
  | cons x xs ih =>
    have hrest : ∀ j p, .begin j p ∈ xs → start j p :=
      fun j p h => hstart j p (List.mem_cons_of_mem _ h)
    unfold watchTurns
    split
    · exact ih hrest
    · rename_i l u h
      refine ⟨?_, ih hrest⟩
      cases x with
      | begin j p =>
        simp only [takeTurn] at h
        split at h <;> cases h
        exact .rows (.begin ‹_› (hstart j p List.mem_cons_self))
      | go j => exact advance_watched hext h
      | abort j =>
        simp only [takeTurn] at h
        split at h <;> cases h
        exact .rows (.abort ‹_› ‹_›)

end Sound
end RowLock
