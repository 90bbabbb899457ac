import ParkIt.GateConfig.Schemas

/-! What edits of a gate leave of its `hardware_config`. -/
namespace ParkIt.GateConfig

open Schemas

/-- Writing back what has been read, a PATCH of the gate, and one of its lane configuration. -/
inductive Edit where
  | unchanged
  | patch (body : Obj Json)
  | laneConfig (body : Obj Json)

namespace Edit
variable (lax : Lax)

def apply (row : Row) : Edit → Option Row
  | unchanged => (getGate lax row).bind (updateGate lax row)
  | patch body => updateGate lax row body
  | laneConfig body => updateGateLaneConfig lax row body

/-- The keys of `hardware_config` that are changed explicitly. -/
def Names : Edit → String → Prop
  | unchanged, _ => False
  | patch body, k =>
    match body.get "hardware_config" with
    | none => False
    | some (.obj p) => Obj.get p k ≠ none
    | some _ => True
  | laneConfig body, k =>
    (k = "lane_type" ∨ k = "default_vehicle_type_id") ∧ body.get k ≠ none

end Edit

/-- The keys that are not named have kept their values, and what is read of them is the same. -/
structure Survives (names : String → Prop) (hw hw' : Obj Json) : Prop where
  stored : ∀ k v, ¬ names k → hw.get k = some v → hw'.get k = some v
  daemon : ∀ k ∈ daemonKeys, ¬ names k → getPeripheral hw' k = getPeripheral hw k
  display : ¬ names "display" → displayEnabled hw' = displayEnabled hw
  cameras : ¬ names "cameras" → ¬ names "camera" → getCameras hw' = getCameras hw

/-- When a configuration survives: the schema knows each key and keeps its value as it is; the
keys are all sent; the default vehicle type is sent, or there is none. -/
def Edit.Safe (lax : Lax) (hw : Obj Json) : Edit → Prop
  | .unchanged => ∀ k v, hw.get k = some v →
      ∃ f ∈ (hardwareConfig lax).fields, f.name = k ∧ f.validate v = some v
  | .patch body => ∀ p, body.get "hardware_config" = some (.obj p) →
      ∀ k, hw.get k ≠ none → Obj.get p k ≠ none
  | .laneConfig body => body.get "default_vehicle_type_id" ≠ none ∨
      hw.get "default_vehicle_type_id" = none ∨ hw.get "default_vehicle_type_id" = some .null

/-- Nothing is written where the schemas reject the row or the request. -/
def Edit.Accepted (lax : Lax) (row : Row) : Edit → Prop
  | .unchanged => ((gateResponse lax).parse row).isSome
  | .patch body => ((gateUpdate lax).parse body).isSome
  | .laneConfig body => ((gateLaneConfigUpdate lax).parse body).isSome

section Checks
variable {c : Check} {name : String} {default : Json}

/-- What has been checked is valid as it is. -/
def Idempotent (c : Check) : Prop := ∀ {v w}, c v = some w → c w = some w

theorem orNone_idempotent (h : Idempotent c) : Idempotent (orNone c) := by
  intro v w hv
  cases w with
  | null => rfl
  | _ =>
    cases v with
    | null => cases hv
    | _ => exact h hv

/-- A check that leaves what it accepts as it is. -/
theorem idempotent_of_eq (h : ∀ {v w}, c v = some w → v = w) : Idempotent c := by
  intro v w hv
  obtain rfl := h hv
  exact hv

theorem text_idempotent : Idempotent text := by
  refine idempotent_of_eq fun {v w} hv => ?_
  cases v with
  | str s => exact Option.some.inj hv
  | _ => cases hv

theorem maxLength_idempotent {n : Nat} : Idempotent (maxLength n) := by
  refine idempotent_of_eq fun {v w} hv => ?_
  cases v with
  | str s => exact Option.some.inj (Option.ite_none_right_eq_some.mp hv).2
  | _ => cases hv

theorem oneOf_idempotent {alternatives : List String} : Idempotent (oneOf alternatives) := by
  refine idempotent_of_eq fun {v w} hv => ?_
  cases v with
  | str s => exact Option.some.inj (Option.ite_none_right_eq_some.mp hv).2
  | _ => cases hv

theorem dict_idempotent : Idempotent dict := by
  refine idempotent_of_eq fun {v w} hv => ?_
  cases v with
  | obj o => exact Option.some.inj hv
  | _ => cases hv

theorem filter_idempotent {p : Json → Bool} (h : Idempotent c) :
    Idempotent fun v => (c v).filter p := by
  intro v w hv
  obtain ⟨hv, hw⟩ := Option.filter_eq_some_iff.mp hv
  exact Option.filter_eq_some_iff.mpr ⟨h hv, hw⟩

theorem stable_of (hc : Idempotent c) (hd : c default = some default) :
    Field.Stable ⟨name, c, some default⟩ :=
  ⟨hc, fun he => Option.some.inj he ▸ hd⟩

theorem stable_required (hc : Idempotent c) : Field.Stable ⟨name, c, none⟩ :=
  ⟨hc, fun he => by cases he⟩

theorem stable_orNone (hc : Idempotent c) : Field.Stable ⟨name, orNone c, some .null⟩ :=
  stable_of (orNone_idempotent hc) rfl

variable (lax : Lax)

theorem hardwareConfig_stable : ∀ f ∈ (hardwareConfig lax).fields, f.Stable := by
  have hint : Idempotent (orNone lax.int) := orNone_idempotent lax.int_read
  have hdict : ∀ {name}, Field.Stable ⟨name, dict, some (.obj [])⟩ := stable_of dict_idempotent rfl
  simp only [hardwareConfig, List.forall_mem_cons, List.not_mem_nil, false_implies, implies_true,
    and_true]
  refine ⟨stable_of hint ?_, stable_of hint ?_, stable_of text_idempotent rfl,
    stable_of text_idempotent rfl, stable_of lax.float_read ?_, stable_of oneOf_idempotent rfl,
    stable_orNone lax.int_read, hdict, hdict, hdict, hdict, hdict, hdict, hdict, hdict⟩
  · exact lax.int_int 10
  · exact lax.int_int 30
  · exact lax.float_int 3 (by decide)

theorem hardwareConfigFull_idempotent : Idempotent (hardwareConfigFull lax) := by
  intro v w hv
  cases v with
  | obj o =>
    obtain ⟨p, hp, rfl⟩ := Option.map_eq_some_iff.mp hv
    rw [hardwareConfigFull, Schema.parse_fill (hardwareConfig_stable lax) hp, Option.map_some,
      Schema.fill_fill]
  | _ => cases hv

theorem gateResponse_stable : ∀ f ∈ (gateResponse lax).fields, f.Stable := by
  have hhardware : hardwareConfigFull lax (.obj ((hardwareConfig lax).fill [])) =
      some (.obj ((hardwareConfig lax).fill [])) :=
    hardwareConfigFull_idempotent lax (v := .obj []) rfl
  have hms : Idempotent fun v => (lax.int v).filter (atLeast 0) := filter_idempotent lax.int_read
  simp only [gateResponse, List.forall_mem_cons, List.not_mem_nil, false_implies, implies_true,
    and_true]
  refine ⟨stable_required maxLength_idempotent, stable_required maxLength_idempotent,
    stable_required oneOf_idempotent, stable_orNone lax.int_read, stable_orNone lax.int_read,
    stable_of oneOf_idempotent rfl, stable_orNone maxLength_idempotent,
    stable_orNone lax.int_read, stable_orNone maxLength_idempotent, stable_orNone lax.int_read,
    stable_of lax.bool_read (lax.bool_bool false), stable_of hms ?_,
    stable_of oneOf_idempotent rfl, stable_of (hardwareConfigFull_idempotent lax) hhardware,
    stable_of lax.bool_read (lax.bool_bool true), stable_required lax.int_read,
    stable_required lax.bool_read, stable_orNone text_idempotent⟩
  exact Option.filter_eq_some_iff.mpr ⟨lax.int_int 5000, by decide⟩

theorem orNone_obj {o : List (String × Json)} : orNone c (.obj o) = c (.obj o) := rfl

theorem orNone_isSome {v : Json} (h : c v = some v) : (orNone c v).isSome := by
  cases v with
  | null => rfl
  | _ => exact Option.isSome_iff_exists.mpr ⟨_, h⟩

theorem isSome_self {v : Json} (h : c v = some v) : (c v).isSome :=
  Option.isSome_iff_exists.mpr ⟨v, h⟩

/-- What a gate answers is accepted again. -/
theorem gateUpdate_accepts : ∀ f' ∈ (gateUpdate lax).fields,
    ∃ f ∈ (gateResponse lax).fields, f.name = f'.name ∧
      ∀ w, f.validate w = some w → (f'.validate w).isSome := by
  have hset : ∀ w, hardwareConfigFull lax w = some w →
      (orNone (hardwareConfigSet lax) w).isSome := by
    intro w hw
    cases w with
    | obj o =>
      obtain ⟨p, hp, -⟩ := Option.map_eq_some_iff.mp hw
      simp [orNone, hardwareConfigSet, hp]
    | _ => cases hw
  simp only [gateUpdate, List.forall_mem_cons, List.not_mem_nil, false_implies, implies_true,
    and_true]
  refine ⟨⟨⟨"name", maxLength 100, none⟩, ?_, rfl, fun _ => orNone_isSome⟩,
    ⟨⟨"code", maxLength 20, none⟩, ?_, rfl, fun _ => orNone_isSome⟩,
    ⟨⟨"pos_id", orNone lax.int, some .null⟩, ?_, rfl, fun _ => isSome_self⟩,
    ⟨⟨"controller_host", orNone (maxLength 100), some .null⟩, ?_, rfl, fun _ => isSome_self⟩,
    ⟨⟨"controller_port", orNone lax.int, some .null⟩, ?_, rfl, fun _ => isSome_self⟩,
    ⟨⟨"controller_device", orNone (maxLength 100), some .null⟩, ?_, rfl, fun _ => isSome_self⟩,
    ⟨⟨"controller_baudrate", orNone lax.int, some .null⟩, ?_, rfl, fun _ => isSome_self⟩,
    ⟨⟨"has_close_sensor", lax.bool, some (.bool false)⟩, ?_, rfl, fun _ => orNone_isSome⟩,
    ⟨⟨"gate_close_duration_ms", fun v => (lax.int v).filter (atLeast 0), some (.num 5000)⟩, ?_,
      rfl, fun _ => orNone_isSome⟩,
    ⟨⟨"relay_mode", oneOf ["SINGLE", "DUAL", "TRIPLE"], some (.str "SINGLE")⟩, ?_, rfl,
      fun _ => orNone_isSome⟩,
    ⟨⟨"hardware_config", hardwareConfigFull lax, some (.obj ((hardwareConfig lax).fill []))⟩, ?_,
      rfl, hset⟩,
    ⟨⟨"is_active", lax.bool, some (.bool true)⟩, ?_, rfl, fun _ => orNone_isSome⟩⟩ <;>
    simp [gateResponse]

end Checks

section Survival
variable {names : String → Prop} {hw hw' : Obj Json} {k : String}

/-- A key that is there has kept its value; one that is not is absent, or is an empty object now,
which its readers take for the same. -/
theorem survives_of_stored (hstored : ∀ k v, ¬ names k → hw.get k = some v → hw'.get k = some v)
    (habsent : ∀ k ∈ "camera" :: daemonKeys, ¬ names k → hw.get k = none →
      hw'.get k = none ∨ hw'.get k = some (.obj []))
    (hcameras : ¬ names "cameras" → hw.get "cameras" = none → hw'.get "cameras" = none) :
    Survives names hw hw' := by
  have hread : ∀ k ∈ "camera" :: daemonKeys, ¬ names k →
      getPeripheral hw' k = getPeripheral hw k := by
    intro k hk hnames
    cases hv : hw.get k with
    | some v => rw [getPeripheral, getPeripheral, hstored k v hnames hv, hv]
    | none =>
      rw [getPeripheral, getPeripheral, hv]
      rcases habsent k hk hnames hv with h | h
      · rw [h]
      · rw [h]
        rfl
  refine ⟨hstored, fun k hk => hread k (List.mem_cons_of_mem _ hk), fun hnames => ?_,
    fun hnames hcamera => ?_⟩
  · rw [displayEnabled, displayEnabled, hread "display" (by decide) hnames]
  · have hget : hw'.get "cameras" = hw.get "cameras" := by
      cases hv : hw.get "cameras" with
      | some v => exact hstored _ v hnames hv
      | none => exact hcameras hnames hv
    rw [getCameras, getCameras, hget, hread "camera" List.mem_cons_self hcamera]

theorem survives_self : Survives names hw hw :=
  survives_of_stored (fun _ _ _ h => h) (fun _ _ _ h => .inl h) fun _ h => h

end Survival

section Edits
variable {lax : Lax} {row row' : Row} {hw full p body : Obj Json} {k : String} {v : Json}

theorem hardware_of (h : row.get "hardware_config" = some (.obj hw)) : hardware row = hw := by
  rw [hardware, h]
  rfl

variable (row) in
theorem updateGate_hardware {set : Obj Json} (h : (gateUpdate lax).parse body = some set) :
    (row.update set).get "hardware_config" =
      ((body.get "hardware_config").bind (orNone (hardwareConfigSet lax))).or
        (row.get "hardware_config") := by
  have hf : (⟨"hardware_config", orNone (hardwareConfigSet lax), some .null⟩ : Schemas.Field Json) ∈
      (gateUpdate lax).fields := by simp [gateUpdate]
  rw [Obj.get_update ((Schema.parse_eq_some.mp h).2 ▸ Schema.table_nodup), Schema.get_parse h hf]

/-- What is written back is what has been read: the fields of the schema, filled up. -/
theorem unchanged_apply (hrow : row.get "hardware_config" = some (.obj hw)) :
    ((gateResponse lax).parse row).isSome → ∃ set row', (hardwareConfig lax).parse hw = some set ∧
      Edit.unchanged.apply lax row = some row' ∧
      row'.get "hardware_config" = some (.obj ((hardwareConfig lax).fill set)) := by
  intro haccepted
  obtain ⟨p, hp⟩ := Option.isSome_iff_exists.mp haccepted
  have hf : (⟨"hardware_config", hardwareConfigFull lax,
      some (.obj ((hardwareConfig lax).fill []))⟩ : Schemas.Field Json) ∈
      (gateResponse lax).fields := by simp [gateResponse]
  obtain ⟨w, hw'⟩ := Schema.validate_of_parse hp hf hrow
  obtain ⟨set, hset, rfl⟩ := Option.map_eq_some_iff.mp hw'
  have hsent : ((gateResponse lax).fill p).get "hardware_config" =
      some (.obj ((hardwareConfig lax).fill set)) := Schema.get_fill_parse hp hf hrow hw'
  obtain ⟨u, hu⟩ := Option.isSome_iff_exists.mp
    (Schema.parse_fill_isSome (gateResponse_stable lax) hp (gateUpdate_accepts lax))
  refine ⟨set, row.update u, hset, ?_, ?_⟩
  · rw [Edit.apply, getGate, hp, Option.map_some, Option.bind_some, updateGate, hu, Option.map_some]
  · have hagain := Schema.parse_fill (hardwareConfig_stable lax) hset
    rw [updateGate_hardware row hu, hsent, Option.bind_some, orNone_obj, hardwareConfigSet, hagain]
    rfl

variable (lax) in
/-- A key that is read is a freeform field of the schema, or unknown to it. -/
theorem read_fields : ∀ k ∈ "camera" :: daemonKeys,
    (⟨k, dict, some (.obj [])⟩ : Schemas.Field Json) ∈ (hardwareConfig lax).fields ∨
      k ∉ (hardwareConfig lax).names := by
  simp [daemonKeys, hardwareConfig, Schema.names]

theorem survives_unchanged (hrow : row.get "hardware_config" = some (.obj hw))
    (haccepted : ((gateResponse lax).parse row).isSome) :
    (∀ row', Edit.unchanged.apply lax row = some row' →
      Survives Edit.unchanged.Names hw (hardware row')) ↔ Edit.unchanged.Safe lax hw := by
  obtain ⟨set, row', hset, happly, hnew⟩ := unchanged_apply hrow haccepted
  have hhardware := hardware_of hnew
  constructor
  · intro hsurvives k v hv
    have hstored := (hsurvives row' happly).stored k v id hv
    rw [hhardware] at hstored
    by_cases hk : k ∈ (hardwareConfig lax).names
    · obtain ⟨f, hf, rfl⟩ := Schema.of_mem_names hk
      obtain ⟨w, hw'⟩ := Schema.validate_of_parse hset hf hv
      rw [Schema.get_fill_parse hset hf hv hw'] at hstored
      exact ⟨f, hf, rfl, hw'.trans hstored⟩
    · -- the schema does not know the key
      rw [Schema.get_fill_of_notMem hk] at hstored
      cases hstored
  · rintro hsafe row'' hrow''
    obtain rfl := Option.some.inj (happly.symm.trans hrow'')
    rw [hhardware]
    refine survives_of_stored (fun k v _ hv => ?_) (fun k hk _ hv => ?_) fun _ _ => ?_
    · obtain ⟨f, hf, rfl, hvalidate⟩ := hsafe k v hv
      exact Schema.get_fill_parse hset hf hv hvalidate
    · rcases read_fields lax k hk with hf | hk
      · exact .inr (Schema.get_fill_default hset hf hv)
      · exact .inl (Schema.get_fill_of_notMem hk)
    · exact Schema.get_fill_of_notMem (by simp [Schema.names, hardwareConfig])

/-- A configuration that is sent takes the place of the stored one. -/
theorem survives_sent {set : Obj Json} (hsent : body.get "hardware_config" = some (.obj p))
    (hset : (hardwareConfig lax).parse p = some set) :
    Survives (Edit.patch body).Names hw set ↔ (Edit.patch body).Safe lax hw := by
  have hnames : ∀ k, (Edit.patch body).Names k ↔ Obj.get p k ≠ none := by
    intro k
    rw [Edit.Names, hsent]
  constructor
  · intro hsurvives p' hp' k hstored hunsent
    obtain rfl := Json.obj.inj (Option.some.inj (hsent.symm.trans hp'))
    obtain ⟨v, hv⟩ := Option.ne_none_iff_exists'.mp hstored
    have hkept := hsurvives.stored k v (fun h => (hnames k).mp h hunsent) hv
    rw [Schema.get_parse_none hset hunsent] at hkept
    cases hkept
  · intro hsafe
    have hunsent : ∀ k, ¬ (Edit.patch body).Names k → Obj.get p k = none := fun k h =>
      not_not.mp fun hne => h ((hnames k).mpr hne)
    have hgone : ∀ k, ¬ (Edit.patch body).Names k → Obj.get set k = none := fun k h =>
      Schema.get_parse_none hset (hunsent k h)
    refine survives_of_stored (fun k v hk hv => ?_) (fun k _ hk _ => .inl (hgone k hk))
      fun hk _ => hgone _ hk
    exact absurd (hunsent k hk) (hsafe p hsent k (Option.ne_none_iff_exists'.mpr ⟨v, hv⟩))

theorem survives_patch (hrow : row.get "hardware_config" = some (.obj hw))
    (haccepted : ((gateUpdate lax).parse body).isSome) :
    (∀ row', (Edit.patch body).apply lax row = some row' →
      Survives (Edit.patch body).Names hw (hardware row')) ↔ (Edit.patch body).Safe lax hw := by
  obtain ⟨u, hu⟩ := Option.isSome_iff_exists.mp haccepted
  have happly : (Edit.patch body).apply lax row = some (row.update u) := by
    rw [Edit.apply, updateGate, hu, Option.map_some]
  have hnew := updateGate_hardware row hu
  have hf : (⟨"hardware_config", orNone (hardwareConfigSet lax), some .null⟩ : Schemas.Field Json) ∈
      (gateUpdate lax).fields := by simp [gateUpdate]
  rw [happly]
  simp only [Option.some.injEq, forall_eq']
  cases hsent : body.get "hardware_config" with
  | none =>
    rw [hsent, Option.bind_none, Option.none_or, hrow] at hnew
    rw [hardware_of hnew]
    refine iff_of_true survives_self fun p hp => ?_
    cases hsent.symm.trans hp
  | some v =>
    obtain ⟨w, hw'⟩ := Schema.validate_of_parse hu hf hsent
    cases v with
    | obj p =>
      obtain ⟨set, hset, rfl⟩ := Option.map_eq_some_iff.mp hw'
      have hvalid : orNone (hardwareConfigSet lax) (.obj p) = some (.obj set) := hw'
      rw [hsent, Option.bind_some, hvalid, Option.some_or] at hnew
      rw [hardware_of hnew]
      exact survives_sent hsent hset
    | null =>
      -- the configuration as a whole is changed
      have hnames : ∀ k, (Edit.patch body).Names k := fun k => by
        rw [Edit.Names, hsent]
        trivial
      refine iff_of_true ⟨fun k _ h => absurd (hnames k) h, fun k _ h => absurd (hnames k) h,
        fun h => absurd (hnames _) h, fun h => absurd (hnames _) h⟩ fun p hp => ?_
      cases hsent.symm.trans hp
    | _ => cases hw'

/-- Two keys are set, the type of the vehicles to null if it is not sent. -/
theorem laneConfig_apply (hrow : row.get "hardware_config" = some (.obj hw))
    (haccepted : ((gateLaneConfigUpdate lax).parse body).isSome) :
    ∃ lane type, (Edit.laneConfig body).apply lax row = some (row.set "hardware_config"
        (.obj ((Obj.set hw "lane_type" lane).set "default_vehicle_type_id" type))) ∧
      (body.get "default_vehicle_type_id" = none → type = .null) ∧
      body.get "lane_type" ≠ none := by
  obtain ⟨set, hset⟩ := Option.isSome_iff_exists.mp haccepted
  have hf : (⟨"default_vehicle_type_id", orNone lax.int, some .null⟩ : Schemas.Field Json) ∈
      (gateLaneConfigUpdate lax).fields := by simp [gateLaneConfigUpdate]
  refine ⟨(((gateLaneConfigUpdate lax).fill set).get "lane_type").getD .null,
    (((gateLaneConfigUpdate lax).fill set).get "default_vehicle_type_id").getD .null, ?_, ?_, ?_⟩
  · rw [Edit.apply, updateGateLaneConfig, hset]
    simp only [Option.bind_eq_bind, Option.bind_some, hrow]
  · intro hunsent
    rw [Schema.get_fill_default hset hf hunsent]
    rfl
  · intro hunsent
    have htakes := (Schema.parse_eq_some.mp hset).1 ⟨"lane_type", oneOf ["SINGLE", "MIXED"], none⟩
      (by simp [gateLaneConfigUpdate])
    rw [Field.takes, hunsent] at htakes
    cases htakes

theorem survives_laneConfig (hrow : row.get "hardware_config" = some (.obj hw))
    (haccepted : ((gateLaneConfigUpdate lax).parse body).isSome) :
    (∀ row', (Edit.laneConfig body).apply lax row = some row' →
      Survives (Edit.laneConfig body).Names hw (hardware row')) ↔
        (Edit.laneConfig body).Safe lax hw := by
  obtain ⟨lane, type, happly, hnull, hlaneType⟩ := laneConfig_apply hrow haccepted
  have hothers : ∀ k, k ≠ "lane_type" → k ≠ "default_vehicle_type_id" →
      ((Obj.set hw "lane_type" lane).set "default_vehicle_type_id" type).get k = hw.get k := by
    intro k hne hne'
    rw [Obj.get_set_of_ne hne', Obj.get_set_of_ne hne]
  rw [happly]
  simp only [Option.some.injEq, forall_eq', hardware_of Obj.get_set_self]
  constructor
  · intro hsurvives
    by_contra hunsafe
    rw [Edit.Safe, not_or, not_not, not_or] at hunsafe
    obtain ⟨hunsent, hthere, hnotNull⟩ := hunsafe
    obtain ⟨v, hv⟩ := Option.ne_none_iff_exists'.mp hthere
    have hkept := hsurvives.stored _ v (fun h => h.2 hunsent) hv
    rw [Obj.get_set_self, hnull hunsent] at hkept
    exact hnotNull (hv.trans hkept.symm)
  · intro hsafe
    refine survives_of_stored (fun k v hk hv => ?_) (fun k hk _ hv => .inl ?_) fun _ hv => ?_
    · by_cases hlane' : k = "lane_type"
      · subst hlane'
        exact absurd ⟨.inl rfl, hlaneType⟩ hk
      · by_cases htype' : k = "default_vehicle_type_id"
        · subst htype'
          have hunsent : body.get "default_vehicle_type_id" = none :=
            not_not.mp fun hne => hk ⟨.inr rfl, hne⟩
          rw [Obj.get_set_self, hnull hunsent]
          rcases hsafe with hsent | hnone | hnullType
          · exact absurd hunsent hsent
          · cases hnone.symm.trans hv
          · exact hnullType.symm.trans hv
        · exact (hothers k hlane' htype').trans hv
    · have hread : ∀ k ∈ "camera" :: daemonKeys,
          k ≠ "lane_type" ∧ k ≠ "default_vehicle_type_id" := by decide
      exact (hothers k (hread k hk).1 (hread k hk).2).trans hv
    · exact (hothers _ (by decide) (by decide)).trans hv

/-- What is not changed explicitly survives an edit exactly if the edit is safe. -/
theorem survives_iff (hrow : row.get "hardware_config" = some (.obj hw)) (e : Edit)
    (haccepted : e.Accepted lax row) :
    (∀ row', e.apply lax row = some row' → Survives e.Names hw (hardware row')) ↔
      e.Safe lax hw := by
  cases e with
  | unchanged => exact survives_unchanged hrow haccepted
  | patch body => exact survives_patch hrow haccepted
  | laneConfig body => exact survives_laneConfig hrow haccepted

end Edits

section Gates

/-- Integers, numbers, and truth values, as they are. -/
def strict : Lax where
  int
    | .num x => if x.den = 1 then some (.num x) else none
    | _ => none
  float
    | .num x => some (.num x)
    | _ => none
  bool
    | .num x => if x = 0 ∨ x = 1 then some (.num x) else none
    | _ => none
  int_read {v w} h := by
    cases v with
    | num x =>
      obtain ⟨-, he⟩ := Option.ite_none_right_eq_some.mp h
      obtain rfl := Option.some.inj he
      exact h
    | _ => cases h
  float_read {v w} h := by
    cases v with
    | num x =>
      obtain rfl := Option.some.inj h
      exact h
    | _ => cases h
  bool_read {v w} h := by
    cases v with
    | num x =>
      obtain ⟨-, he⟩ := Option.ite_none_right_eq_some.mp h
      obtain rfl := Option.some.inj he
      exact h
    | _ => cases h
  int_int n := by simp
  float_int n _ := rfl
  bool_bool b := by cases b <;> simp [Json.bool]

/-- An entry gate with this `hardware_config`. -/
def entryGate (hw : Obj Json) : Row :=
  [("id", .num 1), ("name", .str "Gate Masuk 1"), ("code", .str "GIN1"), ("direction", .str "IN"),
   ("area_parkir_id", .null), ("pos_id", .null), ("protocol", .str "compass"),
   ("controller_host", .str "192.168.1.100"), ("controller_port", .num 5000),
   ("controller_device", .null), ("controller_baudrate", .null), ("has_close_sensor", .bool false),
   ("gate_close_duration_ms", .num 5000), ("relay_mode", .str "SINGLE"),
   ("gate_open_timeout_s", .num 10), ("sensor_stuck_s", .null), ("hardware_config", .obj hw),
   ("is_active", .bool true), ("is_online", .bool false), ("last_heartbeat", .null)]

/-- What the model class gives a new gate. -/
def displayOff : Obj Json :=
  [("display", .obj [("enabled", .bool false)]), ("audio", .obj [("enabled", .bool false)])]

def oneCamera : Obj Json :=
  [("camera", .obj [("enabled", .bool true), ("url", .str "http://192.168.1.201/snap")])]

/-- A camera survives that the gate is written back with, and not an edit of the card reader. -/
theorem survives_oneCamera :
    let edit : Edit := .patch [("hardware_config", .obj [("rfid", .obj [("enabled", .bool true)])])]
    (∀ row', Edit.unchanged.apply strict (entryGate oneCamera) = some row' →
      Survives Edit.unchanged.Names oneCamera (hardware row')) ∧
    ¬ ∀ row', edit.apply strict (entryGate oneCamera) = some row' →
      Survives edit.Names oneCamera (hardware row') := by
  intro edit
  have hread : Edit.unchanged.Accepted strict (entryGate oneCamera) := by
    rw [Edit.Accepted]
    decide +kernel
  have hsent : edit.Accepted strict (entryGate oneCamera) := by
    change ((gateUpdate strict).parse _).isSome = true
    decide +kernel
  constructor
  · refine (survives_iff rfl .unchanged hread).mpr fun k v hv => ?_
    refine ⟨⟨"camera", dict, some (.obj [])⟩, by simp [hardwareConfig], ?_⟩
    rw [oneCamera, Obj.get_cons] at hv
    split at hv
    · rename_i hk
      obtain rfl := Option.some.inj hv
      exact ⟨hk.symm, rfl⟩
    · cases hv
  · intro hsurvives
    have hsafe := (survives_iff rfl edit hsent).mp hsurvives
    exact hsafe _ rfl "camera" (Option.some_ne_none _) rfl

theorem entryGate_accepted : Edit.unchanged.Accepted strict (entryGate displayOff) := by
  rw [Edit.Accepted]
  decide +kernel

/-- The display that was off comes back on. -/
theorem display_on :
    Edit.unchanged.Accepted strict (entryGate displayOff) ∧ ∃ row',
      Edit.unchanged.apply strict (entryGate displayOff) = some row' ∧
      displayEnabled (hardware (entryGate displayOff)) = some false ∧
      displayEnabled (hardware row') = some true ∧
      ¬ Survives Edit.unchanged.Names displayOff (hardware row') := by
  have hrow : Obj.get (entryGate displayOff) "hardware_config" = some (.obj displayOff) := rfl
  obtain ⟨set, row', hset, happly, hnew⟩ := unchanged_apply hrow entryGate_accepted
  have hgone : (hardware row').get "display" = none := by
    rw [hardware_of hnew]
    exact Schema.get_fill_of_notMem (by simp [Schema.names, hardwareConfig])
  have hon : displayEnabled (hardware row') = some true := by
    rw [displayEnabled, getPeripheral, hgone]
    decide +kernel
  refine ⟨entryGate_accepted, row', happly, rfl, hon, fun hsurvives => ?_⟩
  have hsame := hsurvives.display id
  rw [hon] at hsame
  cases hsame

end Gates
end ParkIt.GateConfig
