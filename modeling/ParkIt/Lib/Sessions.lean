import ParkIt.Lib.Path
import ParkIt.Lib.Prog
import Mathlib.Data.Fintype.Card
import Mathlib.Logic.Function.Basic

/-! Handlers side by side over a shared state, one operation at a time. -/
namespace Sessions

open Effects Transition

variable {ι Op : Type} {Ans : Op → Type} {ε α σ τ Γ Λ : Type}

/-- The rest of a handler, the state that only it sees, and the note of what it has done. -/
structure Session (Op : Type) (Ans : Op → Type) (ε α τ Γ : Type) where
  rest : Prog Op Ans ε α
  own : τ
  note : Γ

/-- The log holds what the sessions have put on record, oldest first. -/
structure Sys (ι Op : Type) (Ans : Op → Type) (ε α σ τ Γ Λ : Type) where
  shared : σ
  session : ι → Option (Session Op Ans ε α τ Γ) := fun _ => none
  log : List Λ := []

inductive Label (ι Op : Type) where
  | start (j : ι)
  | go (j : ι) (o : Op)
  | stop (j : ι)
  | outside

/-- The step is not one from outside. -/
def Label.inside : Label ι Op → Bool
  | .outside => false
  | _ => true

structure Machine (Op : Type) (Ans : Op → Type) (ε α σ τ Γ Λ : Type) where
  /-- The handlers that are started, with what they start from. -/
  starts : Prog Op Ans ε α → τ → Γ → Prop
  /-- What an operation can do and answer. -/
  act : (o : Op) → σ → τ → Ans o → σ → τ → Prop
  /-- What an operation that raises can leave behind. -/
  fails : (o : Op) → σ → τ → σ → Prop
  /-- What can be seen of an operation that is not over. -/
  during : (o : Op) → σ → τ → σ → Prop
  outside : σ → σ → Prop
  /-- What the sessions keep to, whatever they are answered. -/
  protocol : Protocol Op Ans Γ
  record : Γ → (o : Op) → Option (Ans o) → List Λ

def Sys.set [DecidableEq ι] (s : Sys ι Op Ans ε α σ τ Γ Λ) (j : ι)
    (x : Option (Session Op Ans ε α τ Γ)) : Sys ι Op Ans ε α σ τ Γ Λ :=
  { s with session := Function.update s.session j x }

/-- A session can end at any moment: it returns, it raises, or its process dies. -/
inductive Step [DecidableEq ι] (M : Machine Op Ans ε α σ τ Γ Λ) :
    Sys ι Op Ans ε α σ τ Γ Λ → Label ι Op → Sys ι Op Ans ε α σ τ Γ Λ → Prop
  | start {s j p own note} : s.session j = none → M.starts p own note →
      Step M s (.start j) (s.set j (some ⟨p, own, note⟩))
  | go {s j o k own note a sh own'} : s.session j = some ⟨.call o k, own, note⟩ →
      M.act o s.shared own a sh own' →
      Step M s (.go j o)
        ({ s with shared := sh, log := s.log ++ M.record note o (some a) }.set j
          (some ⟨k a, own', M.protocol.next note o a⟩))
  | fail {s j o k own note sh} : s.session j = some ⟨.call o k, own, note⟩ →
      M.fails o s.shared own sh →
      Step M s (.go j o)
        ({ s with shared := sh, log := s.log ++ M.record note o none }.set j none)
  | during {s j o k own note sh} : s.session j = some ⟨.call o k, own, note⟩ →
      M.during o s.shared own sh → Step M s (.go j o) { s with shared := sh }
  | stop {s j x} : s.session j = some x → Step M s (.stop j) (s.set j none)
  | outside {s sh} : M.outside s.shared sh → Step M s .outside { s with shared := sh }

/-- No session has been started. -/
def Sys.Quiet (s : Sys ι Op Ans ε α σ τ Γ Λ) : Prop := (∀ j, s.session j = none) ∧ s.log = []

/-- What every session has left to do keeps to the protocol. -/
def InProtocol (M : Machine Op Ans ε α σ τ Γ Λ) (s : Sys ι Op Ans ε α σ τ Γ Λ) : Prop :=
  ∀ j x, s.session j = some x →
    Follows M.protocol x.note x.rest (fun _ _ => True) fun _ _ => True

/-- What every session has left to do keeps to the protocol and ends in an answer that fits. -/
def Promises (M : Machine Op Ans ε α σ τ Γ Λ) (post : Γ → α → Prop)
    (s : Sys ι Op Ans ε α σ τ Γ Λ) : Prop :=
  ∀ j x, s.session j = some x → Follows M.protocol x.note x.rest post fun _ _ => True

/-- What happens when a session goes on. -/
structure Took (M : Machine Op Ans ε α σ τ Γ Λ) (s t : Sys ι Op Ans ε α σ τ Γ Λ) (j : ι) (o : Op)
    (a : Ans o) (x y : Session Op Ans ε α τ Γ) : Prop where
  before : s.session j = some x
  asks : ∃ k, x.rest = .call o k ∧ y.rest = k a
  act : M.act o s.shared x.own a t.shared y.own
  after : t.session j = some y
  others : ∀ k, k ≠ j → t.session k = s.session k
  note : y.note = M.protocol.next x.note o a
  log : t.log = s.log ++ M.record x.note o (some a)

/-- What holds of every session by itself. -/
def Each (L : τ → Γ → Prop) (s : Sys ι Op Ans ε α σ τ Γ Λ) : Prop :=
  ∀ j x, s.session j = some x → L x.own x.note

section Quiet
variable {M : Machine Op Ans ε α σ τ Γ Λ} {s : Sys ι Op Ans ε α σ τ Γ Λ}

theorem Sys.Quiet.inProtocol (h : s.Quiet) : InProtocol M s := fun j _ hj => by simp [h.1 j] at hj

theorem Sys.Quiet.promises {post : Γ → α → Prop} (h : s.Quiet) : Promises M post s :=
  fun j _ hj => by simp [h.1 j] at hj

theorem Sys.Quiet.each {L : τ → Γ → Prop} (h : s.Quiet) : Each L s :=
  fun j _ hj => by simp [h.1 j] at hj

end Quiet

section Steps
variable [DecidableEq ι] {M : Machine Op Ans ε α σ τ Γ Λ} {s t : Sys ι Op Ans ε α σ τ Γ Λ}
  {l : Label ι Op} {j k : ι} {x : Option (Session Op Ans ε α τ Γ)} {y : Session Op Ans ε α τ Γ}

@[simp] theorem set_shared : (s.set j x).shared = s.shared := rfl

@[simp] theorem set_log : (s.set j x).log = s.log := rfl

@[simp] theorem session_set_self : (s.set j x).session j = x := by
  simp [Sys.set]

theorem session_set (h : (s.set j x).session k = some y) :
    k = j ∧ x = some y ∨ k ≠ j ∧ s.session k = some y := by
  by_cases hk : k = j
  · subst hk
    exact Or.inl ⟨rfl, by simpa [Sys.set] using h⟩
  · exact Or.inr ⟨hk, by simpa [Sys.set, hk] using h⟩

theorem session_set_ne (hk : k ≠ j) (h : s.session k = some y) :
    (s.set j x).session k = some y := by
  simp [Sys.set, hk, h]

theorem session_set_none (h : (s.set j none).session k = some y) :
    k ≠ j ∧ s.session k = some y := by
  rcases session_set h with ⟨-, h⟩ | h
  · cases h
  · exact h

theorem promises_step {post : Γ → α → Prop} (h : Step M s l t)
    (hstarts : ∀ p own note, M.starts p own note →
      Follows M.protocol note p post fun _ _ => True)
    (hexpect : ∀ note o sh own a sh' own', M.act o sh own a sh' own' → M.protocol.expect note o a)
    (hs : Promises M post s) : Promises M post t := by
  intro k y hy
  cases h with
  | start _ hp =>
    rcases session_set hy with ⟨-, hx⟩ | ⟨-, hy⟩
    · cases hx
      exact hstarts _ _ _ hp
    · exact hs k y hy
  | go hj hact =>
    rcases session_set hy with ⟨-, hx⟩ | ⟨-, hy⟩
    · cases hx
      exact (hs _ _ hj).2 _ (hexpect _ _ _ _ _ _ _ hact)
    · exact hs k y hy
  | fail _ _ | stop _ => exact hs k y (session_set_none hy).2
  | during _ _ | outside _ => exact hs k y hy

theorem inProtocol_step (h : Step M s l t)
    (hstarts : ∀ p own note, M.starts p own note →
      Follows M.protocol note p (fun _ _ => True) fun _ _ => True)
    (hexpect : ∀ note o sh own a sh' own', M.act o sh own a sh' own' → M.protocol.expect note o a)
    (hs : InProtocol M s) : InProtocol M t :=
  promises_step h hstarts hexpect hs

/-- Where a session comes from. -/
theorem session_back (h : Step M s l t) (hy : t.session k = some y) :
    s.session k = some y ∨
    (l = .start k ∧ s.session k = none ∧ M.starts y.rest y.own y.note) ∨
    ∃ o a x, l = .go k o ∧ Took M s t k o a x y := by
  cases h with
  | start hj hp =>
    rcases session_set hy with ⟨rfl, hx⟩ | ⟨-, hy⟩
    · cases hx
      exact Or.inr (Or.inl ⟨rfl, hj, hp⟩)
    · exact Or.inl hy
  | go hj hact =>
    rcases session_set hy with ⟨rfl, hx⟩ | ⟨-, hy⟩
    · cases hx
      exact Or.inr (Or.inr ⟨_, _, _, rfl, hj, ⟨_, rfl, rfl⟩, hact, session_set_self,
        fun _ hne => Function.update_of_ne hne .., rfl, rfl⟩)
    · exact Or.inl hy
  | fail _ _ | stop _ => exact Or.inl (session_set_none hy).2
  | during _ _ | outside _ => exact Or.inl hy

/-- Who has put an entry on record: a session that has gone on, or one that has failed. -/
theorem log_back {e : Λ} (h : Step M s l t) (he : e ∈ t.log) :
    e ∈ s.log ∨ (∃ j o a x y, l = .go j o ∧ Took M s t j o a x y ∧
      e ∈ M.record x.note o (some a)) ∨
    ∃ j o x, s.session j = some x ∧ e ∈ M.record x.note o none := by
  cases h with
  | start _ _ | stop _ | during _ _ | outside _ => exact Or.inl he
  | go hj hact =>
    rcases List.mem_append.mp he with he | he
    · exact Or.inl he
    · exact Or.inr (Or.inl ⟨_, _, _, _, _, rfl, ⟨hj, ⟨_, rfl, rfl⟩, hact, session_set_self,
        fun _ hne => Function.update_of_ne hne .., rfl, rfl⟩, he⟩)
  | fail hj _ =>
    rcases List.mem_append.mp he with he | he
    · exact Or.inl he
    · exact Or.inr (Or.inr ⟨_, _, _, hj, he⟩)

theorem log_mono (h : Step M s l t) : s.log ⊆ t.log := by
  cases h with
  | start _ _ | stop _ | during _ _ | outside _ => exact List.Subset.refl _
  | go _ _ | fail _ _ => exact List.subset_append_left _ _

omit [DecidableEq ι] in
/-- The session keeps to the protocol, so the operation is an allowed one. -/
theorem Took.allow {post : Γ → α → Prop} {o : Op} {a : Ans o} {x y : Session Op Ans ε α τ Γ}
    (h : Took M s t j o a x y) (hs : Promises M post s) : M.protocol.allow x.note o := by
  obtain ⟨k, hrest, -⟩ := h.asks
  have hfollows := hs j x h.before
  rw [hrest] at hfollows
  exact hfollows.1

/-- What a session holds of itself is not touched by the others. -/
theorem each_step {L : τ → Γ → Prop} (h : Step M s l t) (hs : InProtocol M s)
    (hstart : ∀ p own note, M.starts p own note → L own note)
    (hgo : ∀ o sh own note a sh' own', M.protocol.allow note o → M.act o sh own a sh' own' →
      L own note → L own' (M.protocol.next note o a))
    (hL : Each L s) : Each L t := by
  intro k y hy
  cases h with
  | start _ hp =>
    rcases session_set hy with ⟨-, hx⟩ | ⟨-, hy⟩
    · cases hx
      exact hstart _ _ _ hp
    · exact hL k y hy
  | go hj hact =>
    rcases session_set hy with ⟨-, hx⟩ | ⟨-, hy⟩
    · cases hx
      exact hgo _ _ _ _ _ _ _ (hs _ _ hj).1 hact (hL _ _ hj)
    · exact hL k y hy
  | fail _ _ | stop _ => exact hL k y (session_set_none hy).2
  | during _ _ | outside _ => exact hL k y hy

end Steps

section Count
variable [Fintype ι] (p : Option (Session Op Ans ε α τ Γ) → Bool)

/-- The number of sessions of a kind. -/
def Sys.count (s : Sys ι Op Ans ε α σ τ Γ Λ) : Nat :=
  (Finset.univ.filter fun j => p (s.session j)).card

theorem count_eq_zero {s : Sys ι Op Ans ε α σ τ Γ Λ} (h : ∀ j, p (s.session j) = false) :
    s.count p = 0 := by
  refine Finset.card_eq_zero.mpr (Finset.filter_eq_empty_iff.mpr fun j _ => ?_)
  rw [h j]
  exact Bool.false_ne_true

/-- A step of one session changes the number by that session. -/
theorem count_of_others [DecidableEq ι] {s t : Sys ι Op Ans ε α σ τ Γ Λ} {j : ι}
    (h : ∀ k, k ≠ j → t.session k = s.session k) :
    t.count p + (p (s.session j)).toNat = s.count p + (p (t.session j)).toNat := by
  have hsplit : ∀ u : Sys ι Op Ans ε α σ τ Γ Λ, u.count p =
      ((Finset.univ.erase j).filter fun k => p (u.session k)).card + (p (u.session j)).toNat := by
    intro u
    unfold Sys.count
    rw [← Finset.insert_erase (Finset.mem_univ j), Finset.filter_insert,
      Finset.erase_insert_eq_erase, Finset.erase_idem]
    cases hp : p (u.session j) with
    | false => simp
    | true => simp
  have hothers : (Finset.univ.erase j).filter (fun k => p (t.session k)) =
      (Finset.univ.erase j).filter fun k => p (s.session k) := by
    refine Finset.filter_congr fun k hk => ?_
    rw [h k (Finset.ne_of_mem_erase hk)]
  rw [hsplit t, hsplit s, hothers]
  omega

end Count

/-- A run that is written down turn by turn. -/
inductive Turn (ι Op : Type) (Ans : Op → Type) (ε α σ τ Γ : Type) where
  | start (j : ι) (p : Prog Op Ans ε α) (own : τ) (note : Γ)
  | go (j : ι)
  | stop (j : ι)
  | outside (f : σ → σ)

section Schedule
variable [DecidableEq ι] {M : Machine Op Ans ε α σ τ Γ Λ} {s : Sys ι Op Ans ε α σ τ Γ Λ}

section Next
variable (M) (perform : (o : Op) → σ → τ → Option (Ans o) × σ × τ)

/-- The next operation of a session; a session that is at its end stops. -/
def advance (s : Sys ι Op Ans ε α σ τ Γ Λ) (j : ι) :
    Option (Label ι Op × Sys ι Op Ans ε α σ τ Γ Λ) :=
  match s.session j with
  | some ⟨.call o k, own, note⟩ =>
    match perform o s.shared own with
    | (some a, sh, own') =>
      some (.go j o, { s with shared := sh, log := s.log ++ M.record note o (some a) }.set j
        (some ⟨k a, own', M.protocol.next note o a⟩))
    | (none, sh, _) =>
      some (.go j o, { s with shared := sh, log := s.log ++ M.record note o none }.set j none)
  | some _ => some (.stop j, s.set j none)
  | none => none

def takeTurn (s : Sys ι Op Ans ε α σ τ Γ Λ) :
    Turn ι Op Ans ε α σ τ Γ → Option (Label ι Op × Sys ι Op Ans ε α σ τ Γ Λ)
  | .start j p own note =>
    match s.session j with
    | none => some (.start j, s.set j (some ⟨p, own, note⟩))
    | some _ => none
  | .go j => advance M perform s j
  | .stop j =>
    match s.session j with
    | none => none
    | some _ => some (.stop j, s.set j none)
  | .outside f => some (.outside, { s with shared := f s.shared })

/-- Turns that are not possible are skipped. -/
def takeTurns : Sys ι Op Ans ε α σ τ Γ Λ → List (Turn ι Op Ans ε α σ τ Γ) →
    List (Label ι Op × Sys ι Op Ans ε α σ τ Γ Λ)
  | _, [] => []
  | s, x :: xs =>
    match takeTurn M perform s x with
    | some (l, s') => (l, s') :: takeTurns s' xs
    | none => takeTurns s xs

end Next

variable {perform : (o : Op) → σ → τ → Option (Ans o) × σ × τ}

theorem takeTurns_path (hact : ∀ o sh own a sh' own', perform o sh own = (some a, sh', own') →
      M.act o sh own a sh' own')
    (hfails : ∀ o sh own sh' own', perform o sh own = (none, sh', own') → M.fails o sh own sh')
    {xs : List (Turn ι Op Ans ε α σ τ Γ)}
    (hstart : ∀ j p own note, .start j p own note ∈ xs → M.starts p own note)
    (houtside : ∀ f, .outside f ∈ xs → ∀ sh, M.outside sh (f sh)) :
    Path (Step M) s (takeTurns M perform s xs) := by
  induction xs generalizing s with
  | nil => trivial
  | cons x xs ih =>
    have hrest : ∀ {s : Sys ι Op Ans ε α σ τ Γ Λ}, Path (Step M) s (takeTurns M perform s xs) :=
      ih (fun j p own note h => hstart j p own note (List.mem_cons_of_mem _ h))
        fun f h => houtside f (List.mem_cons_of_mem _ h)
    unfold takeTurns
    split
    · rename_i l s' h
      refine ⟨?_, hrest⟩
      cases x with
      | start j p own note =>
        simp only [takeTurn] at h
        split at h <;> cases h
        exact .start ‹_› (hstart j p own note List.mem_cons_self)
      | go j =>
        simp only [takeTurn, advance] at h
        split at h
        · split at h <;> cases h
          · exact .go ‹_› (hact _ _ _ _ _ _ ‹_›)
          · exact .fail ‹_› (hfails _ _ _ _ _ ‹_›)
        · cases h
          exact .stop ‹_›
        · cases h
      | stop j =>
        simp only [takeTurn] at h
        split at h <;> cases h
        exact .stop ‹_›
      | outside f =>
        cases h
        exact .outside (houtside f List.mem_cons_self _)
    · exact hrest

end Schedule
end Sessions
