import Mathlib.Data.List.Nodup

/-! Tables that number their rows by a sequence, and keep one of their columns unique. -/
namespace Serial

theorem find_of_unique {α : Type} {l : List α} {p : α → Bool} {a : α} (ha : a ∈ l) (hp : p a = true)
    (hunique : ∀ q ∈ l, p q = true → q = a) : l.find? p = some a := by
  cases hfind : l.find? p with
  | none => exact absurd hp (List.find?_eq_none.mp hfind a ha)
  | some q => exact congrArg some (hunique q (List.mem_of_find?_eq_some hfind) (List.find?_some hfind))

variable {K R : Type}

structure Columns (K R : Type) where
  id : R → Int
  code : R → K

/-- The rows, and what the sequence answers next. -/
structure Table (R : Type) where
  rows : List R := []
  next : Int := 1
deriving DecidableEq, Repr

/-- A row that has no number yet; `fits` is what the types of the columns say to it. -/
structure Draft (C : Columns K R) where
  make : Int → R
  code : K
  fits : Bool := true
  id_make : ∀ n, C.id (make n) = n
  code_make : ∀ n, C.code (make n) = code

variable {C : Columns K R} {t t' : Table R} {d : Draft C} {ds : List (Draft C)}

namespace Table

def codes (C : Columns K R) (t : Table R) : List K := t.rows.map C.code

def ids (C : Columns K R) (t : Table R) : List Int := t.rows.map C.id

def append (t : Table R) (d : Draft C) : Table R := ⟨t.rows ++ [d.make t.next], t.next + 1⟩

/-- The sequence has been asked, and its answer is lost. -/
def skip (t : Table R) : Table R := { t with next := t.next + 1 }

structure Sound (C : Columns K R) (t : Table R) : Prop where
  ids : (t.ids C).Nodup
  codes : (t.codes C).Nodup
  below : ∀ r ∈ t.rows, C.id r < t.next

section Insert
variable [DecidableEq K]

/-- `INSERT`, where a code that is taken is an error. -/
def insert (t : Table R) (d : Draft C) : Option (Table R) :=
  if d.fits = true ∧ d.code ∉ t.codes C then some (t.append d) else none

/-- `INSERT … ON CONFLICT (code) DO NOTHING`. -/
def offer (t : Table R) (d : Draft C) : Option (Table R) :=
  if d.fits = true then some (if d.code ∈ t.codes C then t.skip else t.append d) else none

def insertAll (t : Table R) (ds : List (Draft C)) : Option (Table R) := ds.foldlM insert t

def offerAll (t : Table R) (ds : List (Draft C)) : Option (Table R) := ds.foldlM offer t

end Insert
end Table

@[simp] theorem codes_append : (t.append d).codes C = t.codes C ++ [d.code] := by
  simp [Table.codes, Table.append, d.code_make]

@[simp] theorem codes_skip : t.skip.codes C = t.codes C := rfl

theorem Table.Sound.skip (h : t.Sound C) : t.skip.Sound C :=
  ⟨h.ids, h.codes, fun r hr => Int.lt_trans (h.below r hr) (Int.lt_succ t.next)⟩

theorem Table.Sound.append (h : t.Sound C) (hcode : d.code ∉ t.codes C) :
    (t.append d).Sound C := by
  refine ⟨?_, ?_, fun r hr => ?_⟩
  · have hids : (t.append d).ids C = t.ids C ++ [t.next] := by
      simp [Table.ids, Table.append, d.id_make]
    have hfresh : t.next ∉ t.ids C := by
      intro hmem
      obtain ⟨r, hr, hid⟩ := List.mem_map.mp hmem
      have hlt := h.below r hr
      omega
    rw [hids, ← List.concat_eq_append]
    exact h.ids.concat hfresh
  · rw [codes_append, ← List.concat_eq_append]
    exact h.codes.concat hcode
  · rcases List.mem_append.mp hr with hr | hr
    · exact Int.lt_trans (h.below r hr) (Int.lt_succ t.next)
    · rw [List.mem_singleton.mp hr, d.id_make]
      exact Int.lt_succ t.next

section Insert
variable [DecidableEq K]

theorem insert_eq_some :
    t.insert d = some t' ↔ (d.fits = true ∧ d.code ∉ t.codes C) ∧ t' = t.append d := by
  unfold Table.insert
  split
  · simp [*, eq_comm]
  · simp [*]

/-- The rows that are added get the next numbers, in their order. -/
theorem rows_of_insertAll {α : Type} {f : α → Draft C} {l : List α}
    (h : t.insertAll (l.map f) = some t') :
    t'.rows = t.rows ++ l.mapIdx (fun k a => (f a).make (t.next + k)) ∧
      t'.next = t.next + l.length := by
  induction l generalizing t with
  | nil =>
    cases h
    simp
  | cons a l ih =>
    obtain ⟨u, hu, hrest⟩ := Option.bind_eq_some_iff.mp h
    obtain ⟨-, rfl⟩ := insert_eq_some.mp hu
    obtain ⟨hrows, hnext⟩ := ih hrest
    refine ⟨?_, ?_⟩
    · rw [hrows, List.mapIdx_cons]
      simp only [Table.append, List.append_assoc, List.cons_append, List.nil_append,
        Int.natCast_zero, Int.add_zero]
      congr 3
      funext k a
      congr 1
      push_cast
      omega
    · rw [hnext]
      simp only [Table.append, List.length_cons]
      push_cast
      omega

/-- An insertion of many rows succeeds if they all fit, and no code comes twice. -/
theorem insertAll_isSome : (t.insertAll ds).isSome = true ↔
    (∀ d ∈ ds, d.fits = true) ∧ (ds.map (·.code)).Nodup ∧ ∀ d ∈ ds, d.code ∉ t.codes C := by
  induction ds generalizing t with
  | nil => simp [Table.insertAll]
  | cons d ds ih =>
    have hstep : t.insertAll (d :: ds) = (t.insert d).bind fun u => u.insertAll ds := rfl
    rw [hstep]
    by_cases hok : d.fits = true ∧ d.code ∉ t.codes C
    · rw [insert_eq_some.mpr ⟨hok, rfl⟩, Option.bind_some, ih]
      simp only [codes_append, List.mem_append, List.mem_singleton, not_or, List.forall_mem_cons,
        List.map_cons, List.nodup_cons, List.mem_map, not_exists, not_and]
      constructor
      · rintro ⟨hfits, hnodup, hnew⟩
        exact ⟨⟨hok.1, hfits⟩, ⟨fun e he hcode => (hnew e he).2 hcode, hnodup⟩, hok.2,
          fun e he => (hnew e he).1⟩
      · rintro ⟨hfits, hnodup, hnew⟩
        exact ⟨hfits.2, hnodup.2, fun e he => ⟨hnew.2 e he, hnodup.1 e he⟩⟩
    · have hnone : t.insert d = none := if_neg hok
      rw [hnone]
      simp only [Option.bind_none, Option.isSome_none, Bool.false_eq_true, false_iff]
      rintro ⟨hfits, -, hnew⟩
      exact hok ⟨hfits d List.mem_cons_self, hnew d List.mem_cons_self⟩

theorem sound_of_insertAll (h : t.insertAll ds = some t') (ht : t.Sound C) : t'.Sound C := by
  induction ds generalizing t with
  | nil =>
    cases h
    exact ht
  | cons d ds ih =>
    obtain ⟨u, hu, hrest⟩ := Option.bind_eq_some_iff.mp h
    obtain ⟨⟨-, hcode⟩, rfl⟩ := insert_eq_some.mp hu
    exact ih hrest (ht.append hcode)

theorem offer_cases (h : t.offer d = some t') :
    d.code ∈ t.codes C ∧ t' = t.skip ∨ d.code ∉ t.codes C ∧ t' = t.append d := by
  unfold Table.offer at h
  split at h
  · by_cases hcode : d.code ∈ t.codes C
    · rw [if_pos hcode] at h
      exact Or.inl ⟨hcode, (Option.some.inj h).symm⟩
    · rw [if_neg hcode] at h
      exact Or.inr ⟨hcode, (Option.some.inj h).symm⟩
  · cases h

/-- What comes of an offer of many rows: the old rows stay, and every code has a row. -/
structure Offered (C : Columns K R) (t t' : Table R) (ds : List (Draft C)) : Prop where
  old : t.rows <+: t'.rows
  codes : ∀ d ∈ ds, d.code ∈ t'.codes C
  made : ∀ r ∈ t'.rows, r ∈ t.rows ∨ ∃ d ∈ ds, d.code ∉ t.codes C ∧ ∃ n, r = d.make n

theorem offered_of_offerAll (h : t.offerAll ds = some t') (ht : t.Sound C) :
    t'.Sound C ∧ Offered C t t' ds := by
  induction ds generalizing t with
  | nil =>
    cases h
    exact ⟨ht, List.prefix_rfl, fun d hd => absurd hd List.not_mem_nil, fun r hr => Or.inl hr⟩
  | cons d ds ih =>
    obtain ⟨u, hu, hrest⟩ := Option.bind_eq_some_iff.mp h
    have hgrows : t.rows <+: u.rows ∧ d.code ∈ u.codes C ∧ u.Sound C ∧
        ∀ r ∈ u.rows, r ∈ t.rows ∨ d.code ∉ t.codes C ∧ r = d.make t.next := by
      rcases offer_cases hu with ⟨hcode, rfl⟩ | ⟨hcode, rfl⟩
      · exact ⟨List.prefix_rfl, hcode, ht.skip, fun r hr => Or.inl hr⟩
      · refine ⟨List.prefix_append _ _, by simp, ht.append hcode, fun r hr => ?_⟩
        rcases List.mem_append.mp hr with hr | hr
        · exact Or.inl hr
        · exact Or.inr ⟨hcode, List.mem_singleton.mp hr⟩
    obtain ⟨hold, hcode, hsound, hmade⟩ := hgrows
    obtain ⟨hsound', hold', hcodes', hmade'⟩ := ih hrest hsound
    have hkeeps : ∀ k ∈ u.codes C, k ∈ t'.codes C := fun k hk => (hold'.map C.code).subset hk
    refine ⟨hsound', hold.trans hold', ?_, fun r hr => ?_⟩
    · intro e he
      rcases List.mem_cons.mp he with rfl | he
      · exact hkeeps _ hcode
      · exact hcodes' e he
    · rcases hmade' r hr with hr | ⟨e, he, hnew, n, rfl⟩
      · rcases hmade r hr with hr | ⟨hnew, rfl⟩
        · exact Or.inl hr
        · exact Or.inr ⟨d, List.mem_cons_self, hnew, _, rfl⟩
      · have hsub : ∀ k ∈ t.codes C, k ∈ u.codes C := fun k hk => (hold.map C.code).subset hk
        exact Or.inr ⟨e, List.mem_cons_of_mem _ he, fun hk => hnew (hsub _ hk), n, rfl⟩

/-- Rows whose codes are all taken change nothing. -/
theorem offerAll_taken (hfits : ∀ d ∈ ds, d.fits = true) (hcodes : ∀ d ∈ ds, d.code ∈ t.codes C) :
    ∃ n, t.offerAll ds = some { t with next := n } := by
  induction ds generalizing t with
  | nil => exact ⟨t.next, rfl⟩
  | cons d ds ih =>
    have hoffer : t.offer d = some t.skip := by
      unfold Table.offer
      rw [if_pos (hfits d List.mem_cons_self), if_pos (hcodes d List.mem_cons_self)]
    obtain ⟨n, hn⟩ := ih (t := t.skip) (fun e he => hfits e (List.mem_cons_of_mem _ he))
      fun e he => hcodes e (List.mem_cons_of_mem _ he)
    refine ⟨n, ?_⟩
    have hstep : t.offerAll (d :: ds) = (t.offer d).bind fun u => u.offerAll ds := rfl
    rw [hstep, hoffer]
    exact hn

end Insert
end Serial
