import Mathlib.Data.List.Nodup

/-! Objects with named values, and schemas that validate them. -/
namespace Schemas

abbrev Obj (V : Type) := List (String × V)

namespace Obj
variable {V : Type} {o p : Obj V} {k k' : String} {v : V}

def get (o : Obj V) (k : String) : Option V := List.lookup k o

/-- `d[k] = v`. -/
def set (o : Obj V) (k : String) (v : V) : Obj V :=
  match o with
  | [] => [(k, v)]
  | (k', v') :: rest => if k' = k then (k, v) :: rest else (k', v') :: set rest k v

@[simp] theorem get_nil : get ([] : Obj V) k = none := rfl

theorem get_cons : get ((k', v) :: o) k = if k = k' then some v else get o k := by
  rw [get, List.lookup_cons]
  by_cases h : k = k'
  · simp [h]
  · rw [beq_false_of_ne h, if_neg h]
    rfl

@[simp] theorem get_set_self : (o.set k v).get k = some v := by
  induction o with
  | nil => simp [set, get_cons]
  | cons e o ih =>
    obtain ⟨k', v'⟩ := e
    by_cases h : k' = k
    · simp [set, h, get_cons]
    · rw [set, if_neg h, get_cons, if_neg (Ne.symm h), ih]

theorem get_set_of_ne (h : k' ≠ k) : (o.set k v).get k' = o.get k' := by
  induction o with
  | nil => simp [set, get_cons, h]
  | cons e o ih =>
    obtain ⟨k'', v''⟩ := e
    by_cases he : k'' = k
    · rw [set, if_pos he, get_cons, get_cons, if_neg h, if_neg (he ▸ h)]
    · rw [set, if_neg he, get_cons, get_cons, ih]

/-- `d.update(p)`. -/
def update (o p : Obj V) : Obj V := p.foldl (fun o e => o.set e.1 e.2) o

theorem get_update (hp : (p.map Prod.fst).Nodup) : (o.update p).get k = (p.get k).or (o.get k) := by
  induction p generalizing o with
  | nil => rfl
  | cons e p ih =>
    obtain ⟨k', v⟩ := e
    rw [List.map_cons, List.nodup_cons] at hp
    have hstep : (o.update ((k', v) :: p)) = (o.set k' v).update p := rfl
    rw [hstep, ih hp.2, get_cons]
    by_cases h : k = k'
    · subst h
      have hnone : get p k = none := List.lookup_eq_none_iff.mpr fun e he => by
        have hmem : e.1 ∈ p.map Prod.fst := List.mem_map_of_mem he
        have hne : k ≠ e.1 := fun hk => hp.1 (hk ▸ hmem)
        simpa using hne
      simp [hnone]
    · rw [if_neg h, get_set_of_ne h]

end Obj

/-- What validation makes of a value, if it does not reject it, and the value of a field that is
left out; a field without one is required. -/
structure Field (V : Type) where
  name : String
  validate : V → Option V
  default : Option V

variable {V : Type}

/-- A field that is there has to be valid, and a required one to be there. -/
def Field.takes (f : Field V) (o : Obj V) : Bool :=
  match o.get f.name with
  | some v => (f.validate v).isSome
  | none => f.default.isSome

structure Schema (V : Type) where
  fields : List (Field V)
  nodup : (fields.map (·.name)).Nodup

namespace Schema
variable (S : Schema V)

def names : List String := S.fields.map (·.name)

/-- The fields of the schema with these values; those without one are left out. -/
def table (value : Field V → Option V) : Obj V :=
  S.fields.filterMap fun f => (value f).map (f.name, ·)

/-- What is set of an object, validated; a name that the schema does not have is ignored. -/
def parse (o : Obj V) : Option (Obj V) :=
  if S.fields.all (·.takes o) then some (S.table fun f => (o.get f.name).bind f.validate) else none

/-- What is set, and the defaults of what is not. -/
def fill (p : Obj V) : Obj V := S.table fun f => (p.get f.name).or f.default

variable {S : Schema V} {f g : Field V} {o p : Obj V} {k : String} {v : V}
  {value value' : Field V → Option V}

theorem get_filterMap_of_notMem {fields : List (Field V)} (hk : k ∉ fields.map (·.name)) :
    Obj.get (fields.filterMap fun f => (value f).map (f.name, ·)) k = none := by
  induction fields with
  | nil => rfl
  | cons f fields ih =>
    rw [List.map_cons, List.mem_cons, not_or] at hk
    cases hvalue : value f with
    | some v => simpa [hvalue, Obj.get_cons, hk.1] using ih hk.2
    | none => simpa [hvalue] using ih hk.2

theorem get_filterMap {fields : List (Field V)} (hnodup : (fields.map (·.name)).Nodup)
    (hf : f ∈ fields) :
    Obj.get (fields.filterMap fun f => (value f).map (f.name, ·)) f.name = value f := by
  induction fields with
  | nil => cases hf
  | cons g fields ih =>
    rw [List.map_cons, List.nodup_cons] at hnodup
    rcases List.mem_cons.mp hf with rfl | hf
    · cases hvalue : value f with
      | some v => simp [hvalue, Obj.get_cons]
      | none => simpa [hvalue] using get_filterMap_of_notMem hnodup.1
    · have hne : f.name ≠ g.name := fun he => hnodup.1 (he ▸ List.mem_map_of_mem hf)
      cases hvalue : value g with
      | some v => simpa [hvalue, Obj.get_cons, hne] using ih hnodup.2 hf
      | none => simpa [hvalue] using ih hnodup.2 hf

theorem get_table (hf : f ∈ S.fields) : (S.table value).get f.name = value f :=
  get_filterMap S.nodup hf

theorem get_table_of_notMem (hk : k ∉ S.names) : (S.table value).get k = none :=
  get_filterMap_of_notMem hk

theorem table_nodup : ((S.table value).map Prod.fst).Nodup := by
  refine S.nodup.sublist ?_
  unfold table
  induction S.fields with
  | nil => exact List.Sublist.refl _
  | cons f fields ih =>
    cases hvalue : value f with
    | some v => simpa [hvalue] using ih
    | none => simpa [hvalue] using ih.cons f.name

theorem table_congr (h : ∀ f ∈ S.fields, value f = value' f) : S.table value = S.table value' := by
  refine List.filterMap_congr fun f hf => ?_
  rw [h f hf]

theorem parse_eq_some : S.parse o = some p ↔ (∀ f ∈ S.fields, f.takes o = true) ∧
    p = S.table fun f => (o.get f.name).bind f.validate := by
  unfold parse
  split
  · rename_i h
    rw [Option.some.injEq]
    exact ⟨fun he => ⟨List.all_eq_true.mp h, he.symm⟩, fun he => he.2.symm⟩
  · rename_i h
    simp only [reduceCtorEq, false_iff, not_and]
    exact fun htakes => absurd (List.all_eq_true.mpr htakes) h

/-- What is set has been validated. -/
theorem get_parse (h : S.parse o = some p) (hf : f ∈ S.fields) :
    p.get f.name = (o.get f.name).bind f.validate := by
  rw [(parse_eq_some.mp h).2, get_table hf]

theorem get_parse_of_notMem (h : S.parse o = some p) (hk : k ∉ S.names) : p.get k = none := by
  rw [(parse_eq_some.mp h).2, get_table_of_notMem hk]

theorem validate_of_parse (h : S.parse o = some p) (hf : f ∈ S.fields)
    (hv : o.get f.name = some v) : ∃ w, f.validate v = some w := by
  have htakes := (parse_eq_some.mp h).1 f hf
  rw [Field.takes, hv] at htakes
  exact Option.isSome_iff_exists.mp htakes

theorem get_fill (hf : f ∈ S.fields) : (S.fill p).get f.name = (p.get f.name).or f.default :=
  get_table hf

theorem get_fill_of_notMem (hk : k ∉ S.names) : (S.fill p).get k = none :=
  get_table_of_notMem hk

theorem of_mem_names (hk : k ∈ S.names) : ∃ f ∈ S.fields, f.name = k := List.mem_map.mp hk

/-- Nothing is set that has not been given. -/
theorem get_parse_none (h : S.parse o = some p) (hk : o.get k = none) : p.get k = none := by
  by_cases hmem : k ∈ S.names
  · obtain ⟨f, hf, rfl⟩ := of_mem_names hmem
    rw [get_parse h hf, hk, Option.bind_none]
  · exact get_parse_of_notMem h hmem

/-- A field that is given comes out as it has been validated. -/
theorem get_fill_parse (h : S.parse o = some p) (hf : f ∈ S.fields) {w : V}
    (hv : o.get f.name = some v) (hw : f.validate v = some w) :
    (S.fill p).get f.name = some w := by
  rw [get_fill hf, get_parse h hf, hv, Option.bind_some, hw, Option.some_or]

theorem get_fill_default (h : S.parse o = some p) (hf : f ∈ S.fields)
    (hv : o.get f.name = none) : (S.fill p).get f.name = f.default := by
  rw [get_fill hf, get_parse_none h hv, Option.none_or]

end Schema

/-- What a field has validated, and its default, is valid as it is. -/
structure Field.Stable (f : Field V) : Prop where
  validate : ∀ {v w}, f.validate v = some w → f.validate w = some w
  default : ∀ {w}, f.default = some w → f.validate w = some w

namespace Schema
variable {S S' : Schema V} {f : Field V} {o p : Obj V}

theorem fill_valid (hS : ∀ f ∈ S.fields, f.Stable) (h : S.parse o = some p) (hf : f ∈ S.fields) :
    ∃ w, (S.fill p).get f.name = some w ∧ f.validate w = some w := by
  rw [get_fill hf, get_parse h hf]
  cases hv : o.get f.name with
  | some v =>
    obtain ⟨w, hw⟩ := validate_of_parse h hf hv
    exact ⟨w, by simp [hw], (hS f hf).validate hw⟩
  | none =>
    have htakes := (parse_eq_some.mp h).1 f hf
    rw [Field.takes, hv] at htakes
    obtain ⟨w, hw⟩ := Option.isSome_iff_exists.mp htakes
    exact ⟨w, by simp [hw], (hS f hf).default hw⟩

/-- An object that has been validated and filled up is valid, and stays as it is. -/
theorem parse_fill (hS : ∀ f ∈ S.fields, f.Stable) (h : S.parse o = some p) :
    S.parse (S.fill p) = some (S.fill p) := by
  refine parse_eq_some.mpr ⟨fun f hf => ?_, table_congr fun f hf => ?_⟩
  · obtain ⟨w, hget, hw⟩ := fill_valid hS h hf
    simp [Field.takes, hget, hw]
  · obtain ⟨w, hget, hw⟩ := fill_valid hS h hf
    rw [← get_fill hf, hget, Option.bind_some, hw]

theorem fill_fill : S.fill (S.fill p) = S.fill p := by
  refine table_congr fun f hf => ?_
  rw [get_fill hf, Option.or_assoc, Option.or_self]

/-- What one schema has validated and filled up another one accepts that has some of its fields. -/
theorem parse_fill_isSome (hS : ∀ f ∈ S.fields, f.Stable) (h : S.parse o = some p)
    (hS' : ∀ f' ∈ S'.fields, ∃ f ∈ S.fields, f.name = f'.name ∧
      ∀ w, f.validate w = some w → (f'.validate w).isSome) :
    (S'.parse (S.fill p)).isSome := by
  rw [parse, if_pos, Option.isSome_some]
  refine List.all_eq_true.mpr fun f' hf' => ?_
  obtain ⟨f, hf, hname, hvalidate⟩ := hS' f' hf'
  obtain ⟨w, hget, hw⟩ := fill_valid hS h hf
  rw [Field.takes, ← hname, hget]
  exact hvalidate w hw

end Schema
end Schemas
