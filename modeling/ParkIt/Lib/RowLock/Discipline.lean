import ParkIt.Lib.RowLock.Model

/-! Sessions that update only rows they have locked and found live. -/
namespace RowLock

open Effects

variable {ι K R U E : Type} {A : E → Type} {ε α σ : Type} [DecidableEq ι] [DecidableEq K]
  {S : Schema K R U} {live : R → Prop} {may : List (K × U) → E → Prop} {post : List (K × U) → α → Prop}
  {start : ι → Handler K R U A ε α → Prop} {ext : σ → (e : E) → A e → σ → Prop}

/-- What a handler knows: the current contents of the rows it has locked, and its updates. -/
structure Held (K R U : Type) where
  known : K → Option R
  writes : List (K × U)

/-- Update only rows that are locked and live; `may` says what else may be told at which point. -/
def lockGuard (S : Schema K R U) (live : R → Prop) (may : List (K × U) → E → Prop) :
    Protocol (Op K R U E) (Op.Ans A) (Held K R U) where
  allow g o := match o with
    | .update i _ => ∃ r, g.known i = some r ∧ live r
    | .ext e => may g.writes e
    | .lock _ => True
  expect _ o := match o with
    | .lock f => fun rows => (∀ r ∈ rows, f r = true) ∧ (rows.map S.key).Nodup
    | _ => fun _ => True
  next g o := match o with
    | .lock _ => fun rows => { g with known := fun i => (S.lookup rows i).or (g.known i) }
    | .update i u => fun _ =>
      { known := fun j => if j = i then (g.known j).map (S.ap u) else g.known j
        writes := g.writes ++ [(i, u)] }
    | .ext _ => fun _ => g

/-- The handler keeps the discipline, and its answer fits the updates it has issued. -/
def Disciplined (S : Schema K R U) (live : R → Prop) (may : List (K × U) → E → Prop)
    (post : List (K × U) → α → Prop) (p : Handler K R U A ε α) : Prop :=
  Follows (lockGuard S live may) ⟨fun _ => none, []⟩ p (fun g a => post g.writes a) fun _ _ => True

/-- Every update of the list finds the row live. -/
def LiveChain (S : Schema K R U) (live : R → Prop) : R → List U → Prop
  | _, [] => True
  | r, u :: us => live r ∧ LiveChain S live (S.ap u r) us

omit [DecidableEq K] in
theorem LiveChain.snoc {r : R} {us : List U} {u : U} (h : LiveChain S live r us)
    (hu : live (S.applyAll us r)) : LiveChain S live r (us ++ [u]) := by
  induction us generalizing r with
  | nil => exact ⟨hu, trivial⟩
  | cons v us ih => exact ⟨h.1, ih h.2 hu⟩

def Knows (S : Schema K R U) (s : Sys ι K R U A ε α σ) (j : ι) (w : List (K × U))
    (known : K → Option R) : Prop :=
  ∀ i r, known i = some r → s.holder i = some j ∧ s.view S w i = some r

def Covered (S : Schema K R U) (live : R → Prop) (s : Sys ι K R U A ε α σ) (j : ι)
    (w : List (K × U)) : Prop :=
  ∀ i, writesTo w i ≠ [] → s.holder i = some j ∧
    ∃ r, S.lookup s.table i = some r ∧ LiveChain S live r (writesTo w i)

/-- What holds of one session whenever the others have only touched rows it has not locked. -/
def SessionOk (S : Schema K R U) (live : R → Prop) (may : List (K × U) → E → Prop)
    (post : List (K × U) → α → Prop) (s : Sys ι K R U A ε α σ) (j : ι) : Session K R U A ε α → Prop
  | .idle => True
  | .ended _ => True
  | .running p w => ∃ known,
      Follows (lockGuard S live may) ⟨known, w⟩ p (fun g a => post g.writes a) (fun _ _ => True) ∧
      Knows S s j w known ∧ Covered S live s j w
  | .locking f todo got k w => ∃ known,
      (∀ rows, (∀ r ∈ rows, f r = true) → (rows.map S.key).Nodup →
        Follows (lockGuard S live may) ⟨fun i => (S.lookup rows i).or (known i), w⟩ (k rows)
          (fun g a => post g.writes a) (fun _ _ => True)) ∧
      Knows S s j w known ∧ Covered S live s j w ∧ (got.map S.key ++ todo).Nodup ∧
      ∀ r ∈ got, f r = true ∧ s.holder (S.key r) = some j ∧ s.view S w (S.key r) = some r

def Inv (S : Schema K R U) (live : R → Prop) (may : List (K × U) → E → Prop)
    (post : List (K × U) → α → Prop) (s : Sys ι K R U A ε α σ) : Prop :=
  (s.table.map S.key).Nodup ∧ ∀ j, SessionOk S live may post s j (s.session j)

section Frame
variable {s s' : Sys ι K R U A ε α σ} {j : ι} {w : List (K × U)} {known : K → Option R}
  (h : ∀ i, s.holder i = some j →
    s'.holder i = some j ∧ S.lookup s'.table i = S.lookup s.table i)
include h

omit [DecidableEq ι] in
theorem Knows.frame (hk : Knows S s j w known) : Knows S s' j w known := by
  intro i r hi
  obtain ⟨hh, hv⟩ := hk i r hi
  exact ⟨(h i hh).1, by rw [Sys.view, (h i hh).2]; exact hv⟩

omit [DecidableEq ι] in
theorem Covered.frame (hc : Covered S live s j w) : Covered S live s' j w := by
  intro i hi
  obtain ⟨hh, hr⟩ := hc i hi
  exact ⟨(h i hh).1, by rw [(h i hh).2]; exact hr⟩

omit [DecidableEq ι] in
theorem SessionOk.frame {x : Session K R U A ε α} (hx : SessionOk S live may post s j x) :
    SessionOk S live may post s' j x := by
  cases x with
  | idle => trivial
  | ended a => trivial
  | running p w =>
    obtain ⟨known, hp, hk, hc⟩ := hx
    exact ⟨known, hp, hk.frame h, hc.frame h⟩
  | locking f todo got k w =>
    obtain ⟨known, hp, hk, hc, hn, hg⟩ := hx
    refine ⟨known, hp, hk.frame h, hc.frame h, hn, ?_⟩
    intro r hr
    obtain ⟨hf, hh, hv⟩ := hg r hr
    exact ⟨hf, (h _ hh).1, by rw [Sys.view, (h _ hh).2]; exact hv⟩

end Frame

/-- A step of session `j` keeps the invariant when it keeps what the others have locked. -/
theorem Inv.set {s s' : Sys ι K R U A ε α σ} {j : ι} {x : Session K R U A ε α}
    (hi : Inv S live may post s) (hs : s'.session = s.session)
    (hn : (s'.table.map S.key).Nodup) (hx : SessionOk S live may post (s'.set j x) j x)
    (h : ∀ j' i, j' ≠ j → s.holder i = some j' →
      s'.holder i = some j' ∧ S.lookup s'.table i = S.lookup s.table i) :
    Inv S live may post (s'.set j x) := by
  refine ⟨hn, ?_⟩
  intro j'
  by_cases hj : j' = j
  · subst j'
    simpa [Sys.set] using hx
  · have hframe : SessionOk S live may post (s'.set j x) j' (s.session j') :=
      (hi.2 j').frame fun i => h j' i hj
    simpa [Sys.set, hj, hs] using hframe

omit [DecidableEq ι] in
theorem knows_empty {s : Sys ι K R U A ε α σ} {j : ι} :
    Knows S s j [] (fun _ => none) := by
  intro i r hi
  cases hi

omit [DecidableEq ι] in
theorem covered_nil {s : Sys ι K R U A ε α σ} {j : ι} : Covered S live s j [] := by
  intro i hi
  exact (hi rfl).elim

omit [DecidableEq ι] in
/-- A locked row's contents are what its committed version and the own updates give. -/
theorem Knows.lookup {s : Sys ι K R U A ε α σ} {j : ι} {w : List (K × U)} {known : K → Option R}
    (hk : Knows S s j w known) {i : K} {r : R} (hi : known i = some r) :
    ∃ r₀, S.lookup s.table i = some r₀ ∧ S.applyAll (writesTo w i) r₀ = r := by
  obtain ⟨r₀, hr₀, hov⟩ := Option.map_eq_some_iff.mp (hk i r hi).2
  exact ⟨r₀, hr₀, by rw [← hov, overlay_of_key (lookup_key hr₀)]⟩

theorem inv_begin {s : Sys ι K R U A ε α σ} {j : ι} {p : Handler K R U A ε α}
    (hi : Inv S live may post s) (hp : Disciplined S live may post p) :
    Inv S live may post (s.set j (.running p [])) :=
  hi.set rfl hi.1 ⟨_, hp, knows_empty, covered_nil⟩ fun _ _ _ h => ⟨h, rfl⟩

theorem inv_select {s : Sys ι K R U A ε α σ} {j : ι} {f : R → Bool}
    {k : List R → Handler K R U A ε α} {w : List (K × U)} {todo : List K}
    (hi : Inv S live may post s) (hj : s.session j = .running (.call (.lock f) k) w)
    (ht : todo.Perm (((s.table.map (S.overlay w)).filter f).map S.key)) :
    Inv S live may post (s.set j (.locking f todo [] k w)) := by
  have hok := hi.2 j
  rw [hj] at hok
  obtain ⟨known, hp, hk, hc⟩ := hok
  refine hi.set rfl hi.1 ⟨known, ?_, hk, hc, ?_, by simp⟩ fun _ _ _ h => ⟨h, rfl⟩
  · intro rows hf hn
    exact hp.2 rows ⟨hf, hn⟩
  · have hkeys : (s.table.map (S.overlay w)).map S.key = s.table.map S.key := by simp
    have hnodup : (((s.table.map (S.overlay w)).filter f).map S.key).Nodup :=
      (hkeys ▸ hi.1).sublist (List.filter_sublist.map S.key)
    simpa using ht.nodup_iff.mpr hnodup

theorem free_of_other {s : Sys ι K R U A ε α σ} {i i' : K} {j j' : ι} (hf : s.Free i j)
    (hj : j' ≠ j) (h : s.holder i' = some j') : (s.take i j).holder i' = some j' := by
  have hne : i' ≠ i := by
    rintro rfl
    rcases hf with hf | hf <;> simp_all
  simp [Sys.take, hne, h]

theorem take_own {s : Sys ι K R U A ε α σ} {i i' : K} {j : ι} (h : s.holder i' = some j) :
    (s.take i j).holder i' = some j := by
  by_cases hi : i' = i <;> simp [Sys.take, hi, h]

theorem inv_acquire {s : Sys ι K R U A ε α σ} {j : ι} {f : R → Bool}
    {k : List R → Handler K R U A ε α} {w : List (K × U)} {i : K} {todo : List K} {got : List R}
    {r : R} (hi : Inv S live may post s) (hj : s.session j = .locking f (i :: todo) got k w)
    (hf : s.Free i j) (hv : s.view S w i = some r) :
    Inv S live may post ((s.take i j).set j
      (.locking f todo (if f r then got ++ [r] else got) k w)) := by
  have hok := hi.2 j
  rw [hj] at hok
  obtain ⟨known, hp, hk, hc, hn, hg⟩ := hok
  have hown : ∀ i', s.holder i' = some j →
      (s.take i j).holder i' = some j ∧ S.lookup (s.take i j).table i' = S.lookup s.table i' :=
    fun i' h => ⟨take_own h, rfl⟩
  have hkey : S.key r = i := by
    obtain ⟨r₀, hr₀, hov⟩ := Option.map_eq_some_iff.mp hv
    rw [← hov, key_overlay, lookup_key hr₀]
  refine hi.set rfl hi.1 ⟨known, hp, hk.frame hown, hc.frame hown, ?_, ?_⟩
    fun j' i' hj' h => ⟨free_of_other hf hj' h, rfl⟩
  · split
    · simpa [hkey] using hn
    · exact hn.sublist (List.Sublist.append_left (List.sublist_cons_self _ _) _)
  · intro q hq
    have hold : ∀ q ∈ got, f q = true ∧ (s.take i j).holder (S.key q) = some j ∧
        s.view S w (S.key q) = some q := by
      intro q hq
      exact ⟨(hg q hq).1, take_own (hg q hq).2.1, (hg q hq).2.2⟩
    split at hq
    · rename_i hfr
      rcases List.mem_append.mp hq with hq | hq
      · exact hold q hq
      · obtain rfl : q = r := by simpa using hq
        exact ⟨hfr, by simp [Sys.take, Sys.set, hkey], by rw [hkey]; exact hv⟩
    · exact hold q hq

theorem inv_selected {s : Sys ι K R U A ε α σ} {j : ι} {f : R → Bool}
    {k : List R → Handler K R U A ε α} {w : List (K × U)} {got : List R}
    (hi : Inv S live may post s) (hj : s.session j = .locking f [] got k w) :
    Inv S live may post (s.set j (.running (k got) w)) := by
  have hok := hi.2 j
  rw [hj] at hok
  obtain ⟨known, hp, hk, hc, hn, hg⟩ := hok
  refine hi.set rfl hi.1 ⟨_, hp got (fun r hr => (hg r hr).1) (by simpa using hn), ?_, hc⟩
    fun _ _ _ h => ⟨h, rfl⟩
  intro i r hr
  rcases hl : S.lookup got i with _ | q
  · exact hk i r (by simpa [hl] using hr)
  · obtain rfl : q = r := by simpa [hl] using hr
    obtain ⟨-, hh, hv⟩ := hg q (lookup_mem hl)
    rw [lookup_key hl] at hh hv
    exact ⟨hh, hv⟩

theorem inv_update {s : Sys ι K R U A ε α σ} {j : ι} {i : K} {u : U}
    {k : Unit → Handler K R U A ε α} {w : List (K × U)}
    (hi : Inv S live may post s) (hj : s.session j = .running (.call (.update i u) k) w)
    (hf : s.Free i j) :
    Inv S live may post ((s.take i j).set j (.running (k ()) (w ++ [(i, u)]))) := by
  have hok := hi.2 j
  rw [hj] at hok
  obtain ⟨known, ⟨⟨r, hr, hlive⟩, hp⟩, hk, hc⟩ := hok
  dsimp only at hr
  have hh := (hk i r hr).1
  obtain ⟨r₀, hr₀, happ⟩ := hk.lookup hr
  refine hi.set rfl hi.1 ⟨_, hp () trivial, ?_, ?_⟩
    fun j' i' hj' h => ⟨free_of_other hf hj' h, rfl⟩
  · intro i' r' hr'
    by_cases he : i' = i
    · subst i'
      obtain rfl : S.ap u r = r' := by simpa [lockGuard, hr] using hr'
      refine ⟨take_own hh, ?_⟩
      have hov : S.overlay (w ++ [(i, u)]) r₀ = S.ap u r := by
        rw [overlay_of_key (lookup_key hr₀)]
        simp [happ]
      exact Option.map_eq_some_iff.mpr ⟨r₀, hr₀, hov⟩
    · obtain ⟨hh', hv'⟩ := hk i' r' (by simpa [lockGuard, he] using hr')
      refine ⟨take_own hh', ?_⟩
      obtain ⟨q, hq, hov⟩ := Option.map_eq_some_iff.mp hv'
      refine Option.map_eq_some_iff.mpr ⟨q, hq, ?_⟩
      rw [overlay_of_key (lookup_key hq)] at hov ⊢
      simpa [writesTo_single_of_ne (Ne.symm he)] using hov
  · intro i' hi'
    by_cases he : i' = i
    · subst i'
      have hchain : LiveChain S live r₀ (writesTo w i) := by
        by_cases hw : writesTo w i = []
        · simp [hw, LiveChain]
        · obtain ⟨-, q, hq, hchain⟩ := hc i hw
          obtain rfl : q = r₀ := by simpa [hq] using hr₀
          exact hchain
      refine ⟨take_own hh, r₀, hr₀, ?_⟩
      simpa using hchain.snoc (u := u) (by rw [happ]; exact hlive)
    · have hw : writesTo (w ++ [(i, u)]) i' = writesTo w i' := by
        simp [writesTo_single_of_ne (Ne.symm he)]
      rw [hw] at hi' ⊢
      exact ⟨take_own (hc i' hi').1, (hc i' hi').2⟩

omit [DecidableEq ι] in
theorem commit_lookup {s : Sys ι K R U A ε α σ} {w : List (K × U)} (i : K) :
    S.lookup (s.table.map (S.overlay w)) i = (S.lookup s.table i).map (S.applyAll (writesTo w i)) := by
  rw [lookup_map]
  rcases h : S.lookup s.table i with _ | r
  · rfl
  · simp [overlay_of_key (lookup_key h)]

omit [DecidableEq K] in
theorem release_other {s : Sys ι K R U A ε α σ} {i : K} {j j' : ι} (hj : j' ≠ j)
    (h : s.holder i = some j') : (s.release j).holder i = some j' := by
  simp [Sys.release, h, hj]

theorem inv_commit {s : Sys ι K R U A ε α σ} {j : ι} {a : α} {w : List (K × U)}
    (hi : Inv S live may post s) (hj : s.session j = .running (.pure a) w) :
    Inv S live may post ({ s with table := s.table.map (S.overlay w) }.release j |>.set j
      (.ended (some a))) := by
  have hok := hi.2 j
  rw [hj] at hok
  obtain ⟨_, -, -, hc⟩ := hok
  refine hi.set rfl ?_ trivial fun j' i hj' h => ⟨release_other hj' h, ?_⟩
  · have hkeys : (s.table.map (S.overlay w)).map S.key = s.table.map S.key := by simp
    exact hkeys ▸ hi.1
  · -- a row that another session holds has no update of `j`
    have hw : writesTo w i = [] := by
      by_contra hw
      have := (hc i hw).1
      simp_all
    change S.lookup (s.table.map (S.overlay w)) i = _
    rw [commit_lookup, hw]
    exact congrFun Option.map_id _

theorem inv_step (hstart : ∀ j p, start j p → Disciplined S live may post p)
    {s s' : Sys ι K R U A ε α σ} {l : Label ι K U α} (hs : Step S start ext s l s')
    (hi : Inv S live may post s) : Inv S live may post s' := by
  cases hs with
  | begin _ hp => exact inv_begin hi (hstart _ _ hp)
  | select hj ht => exact inv_select hi hj ht
  | acquire hj hf hv => exact inv_acquire hi hj hf hv
  | selected hj => exact inv_selected hi hj
  | update hj hf _ => exact inv_update hi hj hf
  | @effect j e k w a sh hj _ =>
    have hok := hi.2 j
    rw [hj] at hok
    obtain ⟨known, hp, hk, hc⟩ := hok
    exact hi.set rfl hi.1 ⟨known, hp.2 a trivial, hk, hc⟩
      fun _ _ _ h => ⟨h, rfl⟩
  | commit hj => exact inv_commit hi hj
  | abort _ _ => exact hi.set rfl hi.1 trivial fun j' i hj' h => ⟨release_other hj' h, rfl⟩

/-- A committed row changes only by the commit of a session that found it live. -/
theorem step_change {s s' : Sys ι K R U A ε α σ} {l : Label ι K U α}
    (hs : Step S start ext s l s') (hi : Inv S live may post s) (i : K) :
    ((∀ j a w, l = .commit j a w → writesTo w i = []) ∧
      S.lookup s'.table i = S.lookup s.table i) ∨
    ∃ j a w r, l = .commit j a w ∧ S.lookup s.table i = some r ∧ writesTo w i ≠ [] ∧
      LiveChain S live r (writesTo w i) ∧
      S.lookup s'.table i = some (S.applyAll (writesTo w i) r) := by
  cases hs with
  | begin _ _ | select _ _ | acquire _ _ _ | selected _ | update _ _ _ | effect _ _
  | abort _ _ => exact Or.inl ⟨by rintro _ _ _ ⟨⟩, rfl⟩
  | @commit j a w hj =>
    have hok := hi.2 j
    rw [hj] at hok
    obtain ⟨_, -, -, hc⟩ := hok
    have htable : ∀ x, S.lookup (({ s with table := s.table.map (S.overlay w) }.release j).set j
        x).table i = (S.lookup s.table i).map (S.applyAll (writesTo w i)) :=
      fun _ => commit_lookup i
    rw [htable]
    by_cases hw : writesTo w i = []
    · refine Or.inl ⟨?_, by rw [hw]; exact congrFun Option.map_id _⟩
      rintro _ _ _ ⟨⟩
      exact hw
    · obtain ⟨-, r, hr, hchain⟩ := hc i hw
      exact Or.inr ⟨j, a, w, r, rfl, hr, hw, hchain, by rw [hr]; rfl⟩

/-- The answer of a session that commits fits its updates. -/
theorem commit_post {s s' : Sys ι K R U A ε α σ} {j : ι} {a : α} {w : List (K × U)}
    (hs : Step S start ext s (.commit j a w) s') (hi : Inv S live may post s) : post w a := by
  cases hs with
  | commit hj =>
    have hok := hi.2 j
    rw [hj] at hok
    obtain ⟨_, hp, -⟩ := hok
    exact hp

omit [DecidableEq ι] in
theorem inv_may {s : Sys ι K R U A ε α σ} {j : ι} {e : E} {k : A e → Handler K R U A ε α}
    {w : List (K × U)} (hi : Inv S live may post s)
    (hj : s.session j = .running (.call (.ext e) k) w) : may w e := by
  have hok := hi.2 j
  rw [hj] at hok
  obtain ⟨_, hp, -⟩ := hok
  exact hp.1

/-- A row that is no longer live never changes again, and nobody writes to it. -/
theorem settled_step {s s' : Sys ι K R U A ε α σ} {l : Label ι K U α}
    (hs : Step S start ext s l s') (hi : Inv S live may post s) {i : K} {r : R}
    (hr : S.lookup s.table i = some r) (hd : ¬ live r) :
    S.lookup s'.table i = some r ∧ ∀ j a w, l = .commit j a w → writesTo w i = [] := by
  rcases step_change hs hi i with ⟨hl, he⟩ | ⟨j, a, w, q, -, hq, hw, hchain, -⟩
  · exact ⟨he.trans hr, hl⟩
  · obtain rfl : q = r := by simpa [hq] using hr
    rcases hus : writesTo w i with _ | ⟨u, us⟩
    · exact (hw hus).elim
    · rw [hus] at hchain
      exact (hd hchain.1).elim

theorem settled_path (hstart : ∀ j p, start j p → Disciplined S live may post p)
    {s : Sys ι K R U A ε α σ} {xs : List (Label ι K U α × Sys ι K R U A ε α σ)}
    (h : Transition.Path (Step S start ext) s xs) (hi : Inv S live may post s) {i : K} {r : R}
    (hr : S.lookup s.table i = some r) (hd : ¬ live r) :
    S.lookup (Transition.finish s xs).table i = some r ∧
      ∀ j a w, .commit j a w ∈ xs.map Prod.fst → writesTo w i = [] := by
  induction xs generalizing s with
  | nil => exact ⟨hr, by rintro _ _ _ ⟨⟩⟩
  | cons x xs ih =>
    obtain ⟨hs, hrest⟩ := h
    obtain ⟨hr', hl⟩ := settled_step hs hi hr hd
    obtain ⟨hend, hall⟩ := ih hrest (inv_step hstart hs hi) hr'
    refine ⟨hend, fun j a w hmem => ?_⟩
    rcases List.mem_cons.mp hmem with he | hmem
    · exact hl j a w he.symm
    · exact hall j a w hmem

omit [DecidableEq ι] in
/-- Before any session has begun, only the keys have to be distinct. -/
theorem inv_initial {s : Sys ι K R U A ε α σ} (hn : (s.table.map S.key).Nodup)
    (hs : ∀ j, s.session j = .idle) : Inv S live may post s := by
  refine ⟨hn, ?_⟩
  intro j
  rw [hs j]
  trivial

end RowLock
