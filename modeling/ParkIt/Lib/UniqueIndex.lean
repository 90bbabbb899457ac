import Mathlib.Data.List.Nodup

/-! A table with unique indexes, and the row versions of transactions that have not ended. -/
namespace UniqueIndex

/-- Two rows clash when the indexes do not let them stand side by side. -/
structure Index (K R : Type) where
  key : R → K
  Clash : R → R → Prop
  symm : ∀ {r q}, Clash r q → Clash q r
  apart : ∀ {r q}, Clash r q → key r ≠ key q

/-- The committed rows, and the versions in flight with the transactions that have written them. -/
structure Table (X R : Type) where
  rows : List R
  inflight : List (X × R) := []
deriving DecidableEq, Repr

variable {X K R : Type} [DecidableEq X] [DecidableEq K]

namespace Table
variable (I : Index K R) (t : Table X R) (x : X)

def own : List R := (t.inflight.filter (·.1 = x)).map Prod.snd

/-- The table as the transaction sees it. -/
def view : List R := t.rows.filter (fun q => ∀ v ∈ t.own x, I.key v ≠ I.key q) ++ t.own x

/-- A new version takes the place of an older one of the same transaction. -/
def put (r : R) : Table X R :=
  { t with inflight := t.inflight.filter (fun v => I.key v.2 ≠ I.key r) ++ [(x, r)] }

def abort : Table X R := { t with inflight := t.inflight.filter (·.1 ≠ x) }

def commit : Table X R := { t.abort x with rows := t.view I x }

def Supersedes (q : R) : Prop := ∃ v ∈ t.own x, I.key v = I.key q

/-- The row is locked by nobody else, and the indexes have room for the version. -/
structure Admits (r : R) : Prop where
  lock : ∀ v ∈ t.inflight, I.key v.2 = I.key r → v.1 = x
  rows : ∀ q ∈ t.rows, I.Clash r q → t.Supersedes I x q
  inflight : ∀ v ∈ t.inflight, ¬ I.Clash r v.2

/-- What the database keeps to at every moment. -/
structure Sound : Prop where
  keys : (t.rows.map I.key).Nodup
  versions : (t.inflight.map fun v => I.key v.2).Nodup
  rows : ∀ q ∈ t.rows, ∀ p ∈ t.rows, ¬ I.Clash q p
  inflight : ∀ v ∈ t.inflight, ∀ w ∈ t.inflight, ¬ I.Clash v.2 w.2
  mixed : ∀ v ∈ t.inflight, ∀ q ∈ t.rows, I.Clash v.2 q → t.Supersedes I v.1 q

end Table

section Members
variable {I : Index K R} {t : Table X R} {x y : X} {r q p : R} {v : X × R}

omit [DecidableEq K] in
@[simp] theorem mem_own : r ∈ t.own x ↔ (x, r) ∈ t.inflight := by
  simp only [Table.own, List.mem_map, List.mem_filter, decide_eq_true_eq]
  constructor
  · rintro ⟨⟨y, q⟩, ⟨hmem, rfl⟩, rfl⟩
    exact hmem
  · exact fun h => ⟨(x, r), ⟨h, rfl⟩, rfl⟩

theorem mem_view : q ∈ t.view I x ↔ q ∈ t.rows ∧ ¬ t.Supersedes I x q ∨ (x, q) ∈ t.inflight := by
  simp [Table.view, Table.Supersedes]

@[simp] theorem rows_commit : (t.commit I x).rows = t.view I x := rfl

omit [DecidableEq X] in
theorem mem_put : v ∈ (t.put I x r).inflight ↔
    v ∈ t.inflight ∧ I.key v.2 ≠ I.key r ∨ v = (x, r) := by
  simp [Table.put]

omit [DecidableEq K] in
theorem mem_abort : v ∈ (t.abort x).inflight ↔ v ∈ t.inflight ∧ v.1 ≠ x := by
  simp [Table.abort]

theorem mem_commit : v ∈ (t.commit I x).inflight ↔ v ∈ t.inflight ∧ v.1 ≠ x := mem_abort

theorem Table.Supersedes.put (h : t.Supersedes I y q)
    (hlock : ∀ v ∈ t.inflight, I.key v.2 = I.key r → v.1 = x) :
    (t.put I x r).Supersedes I y q := by
  obtain ⟨v, hv, hkey⟩ := h
  rw [mem_own] at hv
  by_cases hr : I.key v = I.key r
  · cases hlock _ hv hr
    exact ⟨r, mem_own.mpr (mem_put.mpr (Or.inr rfl)), hr.symm.trans hkey⟩
  · exact ⟨v, mem_own.mpr (mem_put.mpr (Or.inl ⟨hv, hr⟩)), hkey⟩

omit [DecidableEq K] in
theorem Table.Supersedes.abort (h : t.Supersedes I y q) (hy : y ≠ x) :
    (t.abort x).Supersedes I y q := by
  obtain ⟨v, hv, hkey⟩ := h
  exact ⟨v, mem_own.mpr (mem_abort.mpr ⟨mem_own.mp hv, hy⟩), hkey⟩

end Members

namespace Table.Sound
variable {I : Index K R} {t : Table X R} {x : X} {r q p : R} {v w : X × R}

omit [DecidableEq K] in
theorem eq_of_key (h : t.Sound I) (hq : q ∈ t.rows) (hp : p ∈ t.rows) (hkey : I.key q = I.key p) :
    q = p := List.inj_on_of_nodup_map h.keys hq hp hkey

omit [DecidableEq K] in
theorem version_of_key (h : t.Sound I) (hv : v ∈ t.inflight) (hw : w ∈ t.inflight)
    (hkey : I.key v.2 = I.key w.2) : v = w := List.inj_on_of_nodup_map h.versions hv hw hkey

theorem put (h : t.Sound I) (hr : t.Admits I x r) : (t.put I x r).Sound I where
  keys := h.keys
  versions := by
    simp only [Table.put, List.map_append, List.map_cons, List.map_nil]
    refine List.nodup_append.mpr ⟨?_, by simp, ?_⟩
    · exact (h.versions.sublist (List.filter_sublist.map _))
    · simp only [List.mem_map, List.mem_filter, List.mem_singleton]
      rintro _ ⟨v, ⟨-, hne⟩, rfl⟩ _ rfl
      simpa using hne
  rows := h.rows
  inflight v hv w hw hclash := by
    rcases mem_put.mp hv with ⟨hv, -⟩ | rfl <;> rcases mem_put.mp hw with ⟨hw, -⟩ | rfl
    · exact h.inflight v hv w hw hclash
    · exact hr.inflight v hv (I.symm hclash)
    · exact hr.inflight w hw hclash
    · exact I.apart hclash rfl
  mixed v hv q hq hclash := by
    rcases mem_put.mp hv with ⟨hv, -⟩ | rfl
    · exact (h.mixed v hv q hq hclash).put hr.lock
    · exact (hr.rows q hq hclash).put hr.lock

omit [DecidableEq K] in
theorem abort (h : t.Sound I) : (t.abort x).Sound I where
  keys := h.keys
  versions := h.versions.sublist (List.filter_sublist.map _)
  rows := h.rows
  inflight v hv w hw := h.inflight v (mem_abort.mp hv).1 w (mem_abort.mp hw).1
  mixed v hv q hq hclash :=
    (h.mixed v (mem_abort.mp hv).1 q hq hclash).abort (mem_abort.mp hv).2

/-- The transaction sees no clash either, so it can commit what it sees. -/
theorem commit (h : t.Sound I) : (t.commit I x).Sound I where
  keys := by
    simp only [rows_commit, Table.view, List.map_append]
    refine List.nodup_append.mpr ⟨?_, ?_, ?_⟩
    · exact h.keys.sublist (List.filter_sublist.map _)
    · rw [Table.own, List.map_map]
      exact h.versions.sublist (List.filter_sublist.map _)
    · simp only [List.mem_map, List.mem_filter]
      rintro _ ⟨q, ⟨-, hq⟩, rfl⟩ _ ⟨v, hv, rfl⟩ hkey
      simp only [decide_eq_true_eq] at hq
      exact hq v hv hkey.symm
  versions := h.abort.versions
  rows q hq p hp hclash := by
    rcases mem_view.mp hq with ⟨hq, hq'⟩ | hq <;> rcases mem_view.mp hp with ⟨hp, hp'⟩ | hp
    · exact h.rows q hq p hp hclash
    · exact hq' (h.mixed _ hp q hq (I.symm hclash))
    · exact hp' (h.mixed _ hq p hp hclash)
    · exact h.inflight _ hq _ hp hclash
  inflight := h.abort.inflight
  mixed v hv q hq hclash := by
    obtain ⟨hv, hne⟩ := mem_commit.mp hv
    rcases mem_view.mp hq with ⟨hq, -⟩ | hq
    · exact (h.mixed v hv q hq hclash).abort hne
    · exact absurd hclash (h.inflight v hv _ hq)

end Table.Sound
end UniqueIndex
