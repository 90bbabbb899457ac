import ParkIt.Pricing
import ParkIt.Quotes

/-! The configuration step of the setup wizard: what it stores, and what its tariffs come to. -/
namespace ParkIt.Setup.Wizard

open Effects DateTime

inductive RateType where
  | flat
  | hourly
  | progressive
deriving DecidableEq, Repr

/-- Amounts are in IDR. -/
structure PresetItem where
  name : String
  rateType : RateType
  firstHourRate : ℕ
  perHourRate : ℕ
  dailyCap : ℕ

structure Preset where
  id : String
  items : List PresetItem

def presets : List Preset :=
  [⟨"indonesian_mall",
    [⟨"Motor", .hourly, 2000, 1000, 15000⟩,
     ⟨"Mobil", .hourly, 5000, 2000, 30000⟩,
     ⟨"Truk", .hourly, 10000, 3000, 60000⟩]⟩,
   ⟨"office_building",
    [⟨"Motor", .flat, 3000, 0, 3000⟩,
     ⟨"Mobil", .progressive, 5000, 3000, 50000⟩]⟩,
   ⟨"apartment",
    [⟨"Motor", .flat, 2000, 0, 2000⟩,
     ⟨"Mobil", .flat, 5000, 0, 5000⟩]⟩,
   ⟨"hospital",
    [⟨"Motor", .hourly, 1000, 500, 8000⟩,
     ⟨"Mobil", .hourly, 3000, 2000, 20000⟩]⟩]

def clonePreset (id : String) : Option Preset := presets.find? (·.id = id)

/-- What an input for a number holds; an empty one is sent as an empty text. -/
abbrev Input := Option Rat

/-- A line of the table of tariffs. -/
structure TariffItem where
  name : String
  code : String
  baseTariff : Input
  hourlyRate : Input
  maxDailyCap : Input
  overnightMode : String := "midnight"
  overnightTariff : Input := some 0
  lostTicketPenalty : Input := some 0
  isProgressive : Bool

structure AreaItem where
  name : String
  code : String
  capacity : Input

structure SiteForm where
  name : String
  address : String := ""
  city : String := ""
  phone : String := ""
  email : String := ""
  taxId : String := ""
deriving DecidableEq

structure Form where
  site : SiteForm
  items : List TariffItem
  areas : List AreaItem

def PresetItem.code (x : PresetItem) (idx : ℕ) : String :=
  String.ofList ((x.name.toList.map Char.toUpper).take 4) ++ if 0 < idx then toString idx else ""

def PresetItem.line (x : PresetItem) (idx : ℕ) : TariffItem where
  name := x.name
  code := x.code idx
  baseTariff := some x.firstHourRate
  hourlyRate := some x.perHourRate
  maxDailyCap := some x.dailyCap
  isProgressive := decide (x.rateType = .progressive)

def applyPreset (presetId : String) (form : Form) : Form :=
  match clonePreset presetId with
  | none => form
  | some preset => { form with items := preset.items.mapIdx fun idx x => x.line idx }

def Form.canAdvance (form : Form) : Bool :=
  form.site.name ≠ "" && !form.items.isEmpty &&
    form.areas.all fun a => a.name ≠ "" && a.code ≠ "" && decide (0 ≤ a.capacity.getD 0)

/-! The tables of the server; a request answers with its status. -/

structure Area where
  id : Id
  code : String
  capacity : ℤ

structure Table (ρ : Type) where
  rows : List ρ := []
  next : Id := 1

/-- A resource of `create_crud_router` whose code is unique: the checks of its schema, what its
columns take, and its row. -/
structure Resource (α ρ : Type) where
  valid : α → Bool
  storable : α → Bool
  code : α → String
  row : α → Id → ρ
  rowId : ρ → Id
  rowCode : ρ → String
  rowId_row : ∀ x i, rowId (row x i) = i
  rowCode_row : ∀ x i, rowCode (row x i) = code x

section Resources
variable {α ρ : Type} (R : Resource α ρ)

/-- A failed insertion has taken an id all the same. -/
def createItem (x : α) (t : Table ρ) : ℕ × Table ρ :=
  if R.valid x then
    if R.storable x then
      if R.code x ∈ t.rows.map R.rowCode then (500, { t with next := t.next + 1 })
      else (201, { rows := t.rows ++ [R.row x t.next], next := t.next + 1 })
    else (500, t)
  else (422, t)

end Resources

/-- An integer that is not negative. -/
def natural (v : Input) : Option ℕ :=
  v.bind fun x => if x.den = 1 ∧ 0 ≤ x.num then some x.num.toNat else none

def int32Max : ℕ := 2 ^ 31 - 1

/-- A text of a column holds no NUL. -/
def clean (s : String) : Bool := '\x00' ∉ s.toList

def fitsInteger (v : Input) : Bool := (natural v).all (· ≤ int32Max)

def lengthIn (low high : ℕ) (s : String) : Bool := low ≤ s.length && s.length ≤ high

def TariffItem.amounts (x : TariffItem) : List Input :=
  [x.baseTariff, x.hourlyRate, x.maxDailyCap, x.overnightTariff, x.lostTicketPenalty]

def vehicleTypes : Resource TariffItem VehicleType where
  valid x := lengthIn 1 50 x.name && lengthIn 1 10 x.code && lengthIn 0 20 x.overnightMode &&
    x.amounts.all fun v => (natural v).isSome
  storable x := clean x.name && clean x.code && clean x.overnightMode && x.amounts.all fitsInteger
  code := TariffItem.code
  row x i :=
    { id := i, code := x.code
      baseTariff := (natural x.baseTariff).getD 0
      hourlyRate := (natural x.hourlyRate).getD 0
      maxDailyCap := (natural x.maxDailyCap).getD 0
      lostTicketPenalty := (natural x.lostTicketPenalty).getD 0
      overnightMode := x.overnightMode
      overnightTariff := (natural x.overnightTariff).getD 0
      isProgressive := x.isProgressive }
  rowId := VehicleType.id
  rowCode := VehicleType.code
  rowId_row _ _ := rfl
  rowCode_row _ _ := rfl

def areas : Resource AreaItem Area where
  valid a := lengthIn 1 100 a.name && lengthIn 1 20 a.code && (natural a.capacity).isSome
  storable a := clean a.name && clean a.code && fitsInteger a.capacity
  code := AreaItem.code
  row a i := { id := i, code := a.code, capacity := (natural a.capacity).getD 0 }
  rowId := Area.id
  rowCode := Area.code
  rowId_row _ _ := rfl
  rowCode_row _ _ := rfl

def SiteForm.storable (s : SiteForm) : Bool :=
  [s.name, s.address, s.city, s.phone, s.email, s.taxId].all clean &&
    lengthIn 0 100 s.name && lengthIn 0 100 s.city && lengthIn 0 20 s.phone &&
    lengthIn 0 100 s.email && lengthIn 0 50 s.taxId

structure Tables where
  site : Option SiteForm := none
  vehicleTypes : Table VehicleType := {}
  areas : Table Area := {}

def updateSiteConfig (s : SiteForm) (db : Tables) : ℕ × Tables :=
  if s.storable then (200, { db with site := some s }) else (500, db)

inductive WizardOp where
  | putSite (s : SiteForm)
  | postVehicleType (x : TariffItem)
  | postArea (a : AreaItem)

def WizardOp.route (db : Tables) : WizardOp → ℕ × Tables
  | .putSite s => updateSiteConfig s db
  | .postVehicleType x =>
    let (status, t) := createItem Wizard.vehicleTypes x db.vehicleTypes
    (status, { db with vehicleTypes := t })
  | .postArea a =>
    let (status, t) := createItem Wizard.areas a db.areas
    (status, { db with areas := t })

/-- What may go wrong around a route. -/
inductive Failure where
  | unauthorized
  | forbidden
  | tooManyRequests
  | badGateway
  | unavailable
  | gatewayTimeout
  | network
deriving DecidableEq, Repr

def Failure.status : Failure → Option ℕ
  | .unauthorized => some 401
  | .forbidden => some 403
  | .tooManyRequests => some 429
  | .badGateway => some 502
  | .unavailable => some 503
  | .gatewayTimeout => some 504
  | .network => none

/-- A request is served, or fails before its route has run or after. -/
inductive Fate where
  | served
  | refused (f : Failure)
  | unheard (f : Failure)
deriving DecidableEq, Repr

/-- What `fetchApi` throws is known by its status. -/
def WizardOp.fetch (o : WizardOp) (fate : Fate) (db : Tables) :
    Except (Option ℕ) Unit × Tables :=
  match fate with
  | .served =>
    let (status, db') := o.route db
    (if status < 300 then .ok () else .error (some status), db')
  | .refused f => (.error f.status, db)
  | .unheard f => (.error f.status, (o.route db).2)

/-! The wizard. -/

abbrev Script (α : Type) := Prog WizardOp (fun _ => Except (Option ℕ) Unit) (Option ℕ) α

def fetchApi (o : WizardOp) : Script Unit := do
  match ← Prog.perform o with
  | .ok () => pure ()
  | .error status => Prog.raise status

/-- `.catch((err) => { if (err.status !== 409) throw err })` -/
def ignoring409 (p : Script Unit) : Script Unit :=
  p.handle fun status => if status = some 409 then pure () else Prog.raise status

def sendAll : List WizardOp → Script Unit
  | [] => pure ()
  | o :: os => do
    ignoring409 (fetchApi o)
    sendAll os

/-- `saveCurrentStep` at the step `config`. -/
def saveConfig (form : Form) : Script Bool :=
  if form.items.isEmpty then pure false
  else
    Prog.handle (do
      fetchApi (.putSite form.site)
      sendAll (form.items.map .postVehicleType)
      sendAll (form.areas.map .postArea)
      pure true) fun _ => pure false

/-- The requests that are to come have these fates; one more does not get through. -/
def WizardOp.meet (o : WizardOp) (w : Tables × List Fate) :
    Except (Option ℕ) Unit × (Tables × List Fate) :=
  let (answer, db) := o.fetch (w.2.headD (.refused .network)) w.1
  (answer, (db, w.2.tail))

def exec (o : WizardOp) (w : Tables × List Fate) :
    Except (Option ℕ) (Except (Option ℕ) Unit) × (Tables × List Fate) :=
  (.ok (o.meet w).1, (o.meet w).2)

structure Attempt where
  form : Form
  fates : List Fate

/-- `onNext` at the step `config`: whether the wizard goes on, and the tables. -/
def Attempt.onNext (a : Attempt) (db : Tables) : Bool × Tables :=
  if a.form.canAdvance then
    match (saveConfig a.form).run exec (db, a.fates) with
    | (.ok advances, w) => (advances, w.1)
    | (.error _, w) => (false, w.1)
  else (false, db)

/-- The tables after these attempts; the form is edited in between. -/
def after (db : Tables) (attempts : List Attempt) : Tables :=
  attempts.foldl (fun db a => (a.onNext db).2) db

section Resources
variable {α ρ : Type} {R : Resource α ρ} {x : α} {xs : List α} {t t' t'' : Table ρ}

/-- The request gets a row of its own. -/
structure Resource.Accepts (R : Resource α ρ) (x : α) (t : Table ρ) : Prop where
  valid : R.valid x = true
  storable : R.storable x = true
  new : R.code x ∉ t.rows.map R.rowCode

def Resource.push (R : Resource α ρ) (x : α) (t : Table ρ) : Table ρ where
  rows := t.rows ++ [R.row x t.next]
  next := t.next + 1

structure Resource.AcceptsAll (R : Resource α ρ) (xs : List α) (t : Table ρ) : Prop where
  valid : ∀ x ∈ xs, R.valid x = true
  storable : ∀ x ∈ xs, R.storable x = true
  distinct : (xs.map R.code).Nodup
  new : ∀ x ∈ xs, R.code x ∉ t.rows.map R.rowCode

structure Resource.Keyed (R : Resource α ρ) (t : Table ρ) : Prop where
  ids : (t.rows.map R.rowId).Nodup
  below : ∀ r ∈ t.rows, R.rowId r < t.next

/-- No row is changed or deleted. -/
structure Resource.Grows (R : Resource α ρ) (t t' : Table ρ) : Prop where
  rows : t.rows <+: t'.rows
  keyed : R.Keyed t → R.Keyed t'

theorem Resource.Grows.refl : R.Grows t t := ⟨List.prefix_rfl, id⟩

theorem Resource.Grows.trans (h : R.Grows t t') (h' : R.Grows t' t'') : R.Grows t t'' :=
  ⟨h.rows.trans h'.rows, h'.keyed ∘ h.keyed⟩

theorem createItem_of_accepts (h : R.Accepts x t) : createItem R x t = (201, R.push x t) := by
  rw [createItem, if_pos h.valid, if_pos h.storable, if_neg h.new]
  rfl

theorem createItem_of_not_accepts (h : ¬ R.Accepts x t) :
    ∃ status next, createItem R x t = (status, { t with next }) ∧
      (status = 422 ∨ status = 500) ∧ t.next ≤ next := by
  unfold createItem
  split_ifs with hvalid hstorable hnew
  · exact ⟨500, t.next + 1, rfl, .inr rfl, (lt_add_one t.next).le⟩
  · exact absurd ⟨hvalid, hstorable, hnew⟩ h
  · exact ⟨500, t.next, rfl, .inr rfl, le_rfl⟩
  · exact ⟨422, t.next, rfl, .inl rfl, le_rfl⟩

theorem keyed_push (h : R.Keyed t) : R.Keyed (R.push x t) := by
  refine ⟨?_, fun r hr => ?_⟩
  · rw [Resource.push, List.map_append, List.nodup_append]
    refine ⟨h.ids, List.nodup_singleton _, fun i hi j hj hij => ?_⟩
    obtain ⟨r, hr, rfl⟩ := List.mem_map.mp hi
    rw [List.map_singleton, List.mem_singleton, R.rowId_row] at hj
    exact absurd (hij.trans hj) (h.below r hr).ne
  · show R.rowId r < t.next + 1
    rcases List.mem_append.mp hr with hr | hr
    · exact (h.below r hr).trans (lt_add_one t.next)
    · rw [List.mem_singleton.mp hr, R.rowId_row]
      exact lt_add_one t.next

theorem grows_push : R.Grows t (R.push x t) := ⟨List.prefix_append _ _, keyed_push⟩

theorem createItem_grows : R.Grows t (createItem R x t).2 := by
  by_cases h : R.Accepts x t
  · rw [createItem_of_accepts h]
    exact grows_push
  · obtain ⟨status, next, hcreate, -, hnext⟩ := createItem_of_not_accepts h
    rw [hcreate]
    exact ⟨List.prefix_rfl, fun hkeyed => ⟨hkeyed.ids, fun r hr =>
      lt_of_lt_of_le (hkeyed.below r hr) hnext⟩⟩

theorem codes_push : (R.push x t).rows.map R.rowCode = t.rows.map R.rowCode ++ [R.code x] := by
  rw [Resource.push, List.map_append, List.map_singleton, R.rowCode_row]

theorem acceptsAll_nil : R.AcceptsAll [] t :=
  ⟨by simp, by simp, List.nodup_nil, by simp⟩

theorem acceptsAll_cons :
    R.AcceptsAll (x :: xs) t ↔ R.Accepts x t ∧ R.AcceptsAll xs (R.push x t) := by
  constructor
  · rintro ⟨hvalid, hstorable, hdistinct, hnew⟩
    rw [List.map_cons, List.nodup_cons] at hdistinct
    rw [List.forall_mem_cons] at hvalid hstorable hnew
    refine ⟨⟨hvalid.1, hstorable.1, hnew.1⟩, hvalid.2, hstorable.2, hdistinct.2, fun y hy => ?_⟩
    rw [codes_push, List.mem_append, List.mem_singleton, not_or]
    exact ⟨hnew.2 y hy, fun he => hdistinct.1 (he ▸ List.mem_map_of_mem hy)⟩
  · rintro ⟨⟨hvalid, hstorable, hnew⟩, hall⟩
    have hlater : ∀ y ∈ xs, R.code y ∉ t.rows.map R.rowCode ∧ R.code y ≠ R.code x := by
      intro y hy
      have h := hall.new y hy
      rwa [codes_push, List.mem_append, List.mem_singleton, not_or] at h
    refine ⟨List.forall_mem_cons.mpr ⟨hvalid, hall.valid⟩,
      List.forall_mem_cons.mpr ⟨hstorable, hall.storable⟩, ?_,
      List.forall_mem_cons.mpr ⟨hnew, fun y hy => (hlater y hy).1⟩⟩
    rw [List.map_cons, List.nodup_cons]
    refine ⟨fun hmem => ?_, hall.distinct⟩
    obtain ⟨y, hy, he⟩ := List.mem_map.mp hmem
    exact (hlater y hy).2 he

end Resources

section Requests
variable {o : WizardOp} {os os' : List WizardOp} {fate : Fate} {fates : List Fate}
  {db db' db'' : Tables}

structure Tables.Grows (db db' : Tables) : Prop where
  vehicleTypes : Wizard.vehicleTypes.Grows db.vehicleTypes db'.vehicleTypes
  areas : Wizard.areas.Grows db.areas db'.areas

theorem Tables.Grows.refl : db.Grows db := ⟨.refl, .refl⟩

theorem Tables.Grows.trans (h : db.Grows db') (h' : db'.Grows db'') : db.Grows db'' :=
  ⟨h.vehicleTypes.trans h'.vehicleTypes, h.areas.trans h'.areas⟩

def WizardOp.Accepted (db : Tables) : WizardOp → Prop
  | .putSite s => s.storable = true
  | .postVehicleType x => Wizard.vehicleTypes.Accepts x db.vehicleTypes
  | .postArea a => Wizard.areas.Accepts a db.areas

/-- No route answers that there is a conflict. -/
theorem route_status : ((o.route db).1 < 300 ↔ o.Accepted db) ∧ (o.route db).1 ≠ 409 := by
  have hitem : ∀ {α ρ : Type} (R : Resource α ρ) (x : α) (t : Table ρ),
      ((createItem R x t).1 < 300 ↔ R.Accepts x t) ∧ (createItem R x t).1 ≠ 409 := by
    intro α ρ R x t
    by_cases h : R.Accepts x t
    · rw [createItem_of_accepts h]
      exact ⟨iff_of_true (by omega) h, by omega⟩
    · obtain ⟨status, next, hcreate, rfl | rfl, -⟩ := createItem_of_not_accepts h <;> rw [hcreate]
      · exact ⟨iff_of_false (by omega) h, by omega⟩
      · exact ⟨iff_of_false (by omega) h, by omega⟩
  cases o with
  | putSite s =>
    show ((updateSiteConfig s db).1 < 300 ↔ s.storable = true) ∧ (updateSiteConfig s db).1 ≠ 409
    unfold updateSiteConfig
    split_ifs with h
    · exact ⟨iff_of_true (by omega) h, by omega⟩
    · exact ⟨iff_of_false (by omega) h, by omega⟩
  | postVehicleType x => exact hitem _ x db.vehicleTypes
  | postArea a => exact hitem _ a db.areas

theorem route_grows : db.Grows (o.route db).2 := by
  cases o with
  | putSite s =>
    show db.Grows (updateSiteConfig s db).2
    unfold updateSiteConfig
    split_ifs
    · exact ⟨.refl, .refl⟩
    · exact .refl
  | postVehicleType x => exact ⟨createItem_grows, .refl⟩
  | postArea a => exact ⟨.refl, createItem_grows⟩

theorem fetch_grows : db.Grows (o.fetch fate db).2 := by
  cases fate with
  | served => exact route_grows
  | refused f => exact .refl
  | unheard f => exact route_grows

theorem fetch_ok : (o.fetch fate db).1 = .ok () ↔ fate = .served ∧ o.Accepted db := by
  cases fate with
  | served =>
    rw [← route_status.1]
    show (if (o.route db).1 < 300 then _ else _) = _ ↔ _
    split_ifs with h <;> simp [h]
  | refused f => simp [WizardOp.fetch]
  | unheard f => simp [WizardOp.fetch]

theorem fetch_ne_409 : (o.fetch fate db).1 ≠ .error (some 409) := by
  cases fate with
  | served =>
    show (if (o.route db).1 < 300 then _ else _) ≠ _
    have hstatus : (o.route db).1 ≠ 409 := route_status.2
    split_ifs
    · simp
    · exact fun h => hstatus (Option.some.inj (Except.error.inj h))
  | refused f => cases f <;> simp [WizardOp.fetch, Failure.status]
  | unheard f => cases f <;> simp [WizardOp.fetch, Failure.status]

theorem fetch_served (h : (o.fetch fate db).1 = .ok ()) : (o.fetch fate db).2 = (o.route db).2 := by
  obtain ⟨rfl, -⟩ := fetch_ok.mp h
  rfl

end Requests

section Attempts
variable {o : WizardOp} {os os' : List WizardOp} {fates : List Fate} {w : Tables × List Fate}
  {db db' : Tables} {form : Form} {x : TariffItem} {xs : List TariffItem} {y : AreaItem}
  {ys : List AreaItem}

/-- The requests in turn, up to the first that fails. -/
def go : List WizardOp → Tables × List Fate → Bool × (Tables × List Fate)
  | [], w => (true, w)
  | o :: os, w =>
    match o.meet w with
    | (.ok (), w') => go os w'
    | (.error _, w') => (false, w')

theorem go_append : go (os ++ os') w =
    if (go os w).1 then go os' (go os w).2 else (false, (go os w).2) := by
  induction os generalizing w with
  | nil => rfl
  | cons o os ih =>
    rcases hmeet : o.meet w with ⟨⟨⟩ | ⟨⟩, w'⟩
    · simp only [List.cons_append, go, hmeet]
      rfl
    · simp only [List.cons_append, go, hmeet]
      exact ih

/-- The script sends these requests, and gives this result or throws what a request threw. -/
def Sends {α : Type} (p : Script α) (os : List WizardOp) (a : α) : Prop :=
  ∀ w, (go os w).1 = true ∧ p.run exec w = (.ok a, (go os w).2) ∨
    (go os w).1 = false ∧ ∃ status, p.run exec w = (.error status, (go os w).2)

theorem sends_pure {α : Type} (a : α) : Sends (pure a) [] a := fun _ => .inl ⟨rfl, rfl⟩

theorem Sends.bind {α β : Type} {p : Script α} {f : α → Script β} {a : α} {b : β}
    (hp : Sends p os a) (hf : Sends (f a) os' b) : Sends (p >>= f) (os ++ os') b := by
  intro w
  obtain ⟨hgo, hok⟩ | ⟨hgo, status, herror⟩ := hp w
  · rw [go_append, if_pos hgo, Prog.run_bind_ok exec f hok]
    exact hf _
  · rw [go_append, if_neg (by simp [hgo]), Prog.run_bind_error exec f herror]
    exact .inr ⟨rfl, status, rfl⟩

theorem run_fetchApi : (fetchApi o).run exec w = o.meet w := by
  rcases hmeet : o.meet w with ⟨status | ⟨⟩, w'⟩
  · have hexec : exec o w = (.ok (.error status), w') := by rw [exec, hmeet]
    rw [fetchApi, Prog.perform, Prog.call_bind, Prog.run_call, hexec]
    rfl
  · have hexec : exec o w = (.ok (.ok ()), w') := by rw [exec, hmeet]
    rw [fetchApi, Prog.perform, Prog.call_bind, Prog.run_call, hexec]
    rfl

theorem sends_fetchApi : Sends (fetchApi o) [o] () := by
  intro w
  rw [run_fetchApi, go]
  rcases o.meet w with ⟨status | ⟨⟩, w'⟩
  · exact .inr ⟨rfl, status, rfl⟩
  · exact .inl ⟨rfl, rfl⟩

theorem exec_raises {α : Type} {h : Option ℕ → Script α} (o : WizardOp) (w : Tables × List Fate)
    (e : Option ℕ) (w' : Tables × List Fate) (hexec : exec o w = (.error e, w')) :
    h e = Prog.raise e := by
  cases hexec

/-- No request ends in a conflict that there would be to ignore. -/
theorem run_ignoring409 : (ignoring409 (fetchApi o)).run exec w = o.meet w := by
  have hne : (o.meet w).1 ≠ .error (some 409) := fetch_ne_409
  rw [ignoring409, Prog.run_handle exec w (fetchApi o) exec_raises, run_fetchApi]
  rcases hmeet : o.meet w with ⟨status | ⟨⟩, w'⟩
  · have hstatus : status ≠ some 409 := fun h => hne (by rw [hmeet, h])
    show (if status = some 409 then pure () else Prog.raise status : Script Unit).run exec w' = _
    rw [if_neg hstatus]
    rfl
  · rfl

theorem sends_sendAll : Sends (sendAll os) os () := by
  induction os with
  | nil => exact sends_pure ()
  | cons o os ih =>
    have hfirst : Sends (ignoring409 (fetchApi o)) [o] () := fun w => by
      rw [run_ignoring409, ← run_fetchApi]
      exact sends_fetchApi w
    exact hfirst.bind ih

def Form.posts (form : Form) : List WizardOp :=
  .putSite form.site :: (form.items.map .postVehicleType ++ form.areas.map .postArea)

theorem run_saveConfig (h : form.items ≠ []) :
    (saveConfig form).run exec w = (.ok (go form.posts w).1, (go form.posts w).2) := by
  have hsends : Sends (do
      fetchApi (.putSite form.site)
      sendAll (form.items.map .postVehicleType)
      sendAll (form.areas.map .postArea)
      pure true) form.posts true := by
    have hposts : form.posts = [.putSite form.site] ++ (form.items.map .postVehicleType ++
        (form.areas.map .postArea ++ [])) := by rw [List.append_nil]; rfl
    rw [hposts]
    exact sends_fetchApi.bind (sends_sendAll.bind (sends_sendAll.bind (sends_pure true)))
  rw [saveConfig, if_neg (by simpa using h), Prog.run_handle exec w _ exec_raises]
  obtain ⟨hgo, hok⟩ | ⟨hgo, status, herror⟩ := hsends w
  · rw [hok, hgo]
  · rw [herror, hgo]
    rfl

/-- The requests are served and each is accepted by the tables that those before it leave. -/
def AllAccepted : List WizardOp → Tables → Prop
  | [], _ => True
  | o :: os, db => o.Accepted db ∧ AllAccepted os (o.route db).2

def Served (n : ℕ) (fates : List Fate) : Prop := ∀ k < n, fates[k]? = some .served

theorem served_succ {n : ℕ} :
    Served (n + 1) fates ↔ fates.headD (.refused .network) = .served ∧ Served n fates.tail := by
  cases fates with
  | nil =>
    refine iff_of_false (fun h => ?_) (fun h => ?_)
    · cases h 0 (Nat.succ_pos n)
    · cases h.1
  | cons f fates =>
    constructor
    · exact fun h => ⟨Option.some.inj (h 0 (Nat.succ_pos n)), fun k hk => h (k + 1) (by omega)⟩
    · rintro ⟨hf, h⟩ k hk
      cases k with
      | zero => exact congrArg some hf
      | succ k => exact h k (by omega)

theorem meet_ok (hserved : fates.headD (.refused .network) = .served) (h : o.Accepted db) :
    o.meet (db, fates) = (.ok (), ((o.route db).2, fates.tail)) := by
  have hok := fetch_ok.mpr ⟨hserved, h⟩
  exact Prod.ext hok (congrArg (·, fates.tail) (fetch_served hok))

theorem go_iff : (go os (db, fates)).1 = true ↔ Served os.length fates ∧ AllAccepted os db := by
  induction os generalizing db fates with
  | nil => exact iff_of_true rfl ⟨fun _ h => absurd h (Nat.not_lt_zero _), trivial⟩
  | cons o os ih =>
    rw [List.length_cons, served_succ, AllAccepted, go]
    by_cases h : fates.headD (.refused .network) = .served ∧ o.Accepted db
    · rw [meet_ok h.1 h.2]
      show (go os ((o.route db).2, fates.tail)).1 = true ↔ _
      rw [ih]
      tauto
    · rcases hmeet : o.meet (db, fates) with ⟨status | ⟨⟩, w'⟩
      · exact iff_of_false (by simp) fun hall => h ⟨hall.1.1, hall.2.1⟩
      · exact absurd (fetch_ok.mp (congrArg Prod.fst hmeet)) h

theorem go_grows : db.Grows (go os (db, fates)).2.1 := by
  induction os generalizing db fates with
  | nil => exact .refl
  | cons o os ih =>
    have hfirst : db.Grows (o.meet (db, fates)).2.1 := fetch_grows
    rw [go]
    rcases hmeet : o.meet (db, fates) with ⟨status | ⟨⟩, db', fates'⟩
    · rw [hmeet] at hfirst
      exact hfirst
    · rw [hmeet] at hfirst
      exact hfirst.trans ih

theorem allAccepted_areas :
    AllAccepted (ys.map .postArea) db ↔ areas.AcceptsAll ys db.areas := by
  induction ys generalizing db with
  | nil => exact iff_of_true trivial acceptsAll_nil
  | cons y ys ih =>
    rw [List.map_cons, AllAccepted, ih, acceptsAll_cons]
    refine and_congr_right fun h => ?_
    have hroute : ((WizardOp.postArea y).route db).2.areas = areas.push y db.areas :=
      congrArg Prod.snd (createItem_of_accepts h)
    rw [hroute]

theorem allAccepted_items :
    AllAccepted (xs.map .postVehicleType ++ ys.map .postArea) db ↔
      vehicleTypes.AcceptsAll xs db.vehicleTypes ∧ areas.AcceptsAll ys db.areas := by
  induction xs generalizing db with
  | nil => exact allAccepted_areas.trans (iff_and_self.mpr fun _ => acceptsAll_nil)
  | cons x xs ih =>
    rw [List.map_cons, List.cons_append, AllAccepted, ih, acceptsAll_cons, and_assoc]
    refine and_congr_right fun h => ?_
    have hroute : ((WizardOp.postVehicleType x).route db).2.vehicleTypes =
        vehicleTypes.push x db.vehicleTypes := congrArg Prod.snd (createItem_of_accepts h)
    rw [hroute]
    rfl

theorem allAccepted_posts : AllAccepted form.posts db ↔ form.site.storable = true ∧
    vehicleTypes.AcceptsAll form.items db.vehicleTypes ∧ areas.AcceptsAll form.areas db.areas := by
  refine and_congr_right fun h => ?_
  have hroute : ((WizardOp.putSite form.site).route db).2 = { db with site := some form.site } := by
    show (updateSiteConfig form.site db).2 = _
    exact congrArg Prod.snd (if_pos h)
  rw [hroute]
  exact allAccepted_items

/-- What is posted by requests that all go through is stored. -/
theorem go_stores (h : (go os (db, fates)).1 = true) :
    (∀ x, .postVehicleType x ∈ os → ∃ i, vehicleTypes.row x i ∈
      (go os (db, fates)).2.1.vehicleTypes.rows) ∧
    ∀ y, .postArea y ∈ os → ∃ i, areas.row y i ∈ (go os (db, fates)).2.1.areas.rows := by
  induction os generalizing db fates with
  | nil => exact ⟨fun _ hx => absurd hx List.not_mem_nil, fun _ hy => absurd hy List.not_mem_nil⟩
  | cons o os ih =>
    obtain ⟨hserved, haccepted, -⟩ := go_iff.mp h
    rw [List.length_cons, served_succ] at hserved
    have hgo : go (o :: os) (db, fates) = go os ((o.route db).2, fates.tail) := by
      rw [go, meet_ok hserved.1 haccepted]
    rw [hgo] at h ⊢
    obtain ⟨hitems, hareas⟩ := ih h
    have hgrows : (o.route db).2.Grows (go os ((o.route db).2, fates.tail)).2.1 := go_grows
    refine ⟨fun x hx => ?_, fun y hy => ?_⟩
    · rcases List.mem_cons.mp hx with rfl | hx
      · have hroute : ((WizardOp.postVehicleType x).route db).2.vehicleTypes =
            vehicleTypes.push x db.vehicleTypes :=
          congrArg Prod.snd (createItem_of_accepts haccepted)
        refine ⟨db.vehicleTypes.next, hgrows.vehicleTypes.rows.subset ?_⟩
        rw [hroute]
        exact List.mem_append_right _ (List.mem_singleton_self _)
      · exact hitems x hx
    · rcases List.mem_cons.mp hy with rfl | hy
      · have hroute : ((WizardOp.postArea y).route db).2.areas = areas.push y db.areas :=
          congrArg Prod.snd (createItem_of_accepts haccepted)
        refine ⟨db.areas.next, hgrows.areas.rows.subset ?_⟩
        rw [hroute]
        exact List.mem_append_right _ (List.mem_singleton_self _)
      · exact hareas y hy

end Attempts

section Runs
variable {db : Tables} {a b : Attempt} {rest : List Attempt}

/-- What it takes for an attempt to go through. -/
structure Attempt.Clean (a : Attempt) (db : Tables) : Prop where
  advance : a.form.canAdvance = true
  served : Served (1 + a.form.items.length + a.form.areas.length) a.fates
  site : a.form.site.storable = true
  items : vehicleTypes.AcceptsAll a.form.items db.vehicleTypes
  areas : areas.AcceptsAll a.form.areas db.areas

theorem items_ne_nil (h : a.form.canAdvance = true) : a.form.items ≠ [] := by
  intro hnil
  simp [Form.canAdvance, hnil] at h

theorem onNext_eq (h : a.form.canAdvance = true) :
    a.onNext db = ((go a.form.posts (db, a.fates)).1, (go a.form.posts (db, a.fates)).2.1) := by
  rw [Attempt.onNext, if_pos h, run_saveConfig (items_ne_nil h)]

theorem onNext_stays (h : ¬ a.form.canAdvance = true) : a.onNext db = (false, db) := by
  rw [Attempt.onNext, if_neg h]

theorem onNext_iff : (a.onNext db).1 = true ↔ a.Clean db := by
  by_cases h : a.form.canAdvance = true
  · have hlength : a.form.posts.length = 1 + a.form.items.length + a.form.areas.length := by
      simp [Form.posts]
      omega
    rw [onNext_eq h, go_iff, allAccepted_posts, hlength]
    exact ⟨fun ⟨hserved, hsite, hitems, hareas⟩ => ⟨h, hserved, hsite, hitems, hareas⟩,
      fun ⟨_, hserved, hsite, hitems, hareas⟩ => ⟨hserved, hsite, hitems, hareas⟩⟩
  · rw [onNext_stays h]
    exact iff_of_false (by simp) fun hclean => h hclean.advance

theorem onNext_grows : db.Grows (a.onNext db).2 := by
  by_cases h : a.form.canAdvance = true
  · rw [onNext_eq h]
    exact go_grows
  · rw [onNext_stays h]
    exact .refl

theorem after_grows : db.Grows (after db rest) := by
  induction rest generalizing db with
  | nil => exact .refl
  | cons a rest ih => exact onNext_grows.trans ih

theorem onNext_stores (h : (a.onNext db).1 = true) :
    (∀ x ∈ a.form.items, ∃ i, vehicleTypes.row x i ∈ (a.onNext db).2.vehicleTypes.rows) ∧
      ∀ y ∈ a.form.areas, ∃ i, areas.row y i ∈ (a.onNext db).2.areas.rows := by
  have hadvance := (onNext_iff.mp h).advance
  rw [onNext_eq hadvance] at h ⊢
  obtain ⟨hitems, hareas⟩ := go_stores h
  refine ⟨fun x hx => hitems x ?_, fun y hy => hareas y ?_⟩
  · simp [Form.posts, hx]
  · simp [Form.posts, hy]

/-- What the tables `t` have taken of a form. -/
structure Form.StoredIn (form : Form) (t : Tables) : Prop where
  items : ∀ x ∈ form.items, ∃ i, Wizard.vehicleTypes.row x i ∈ t.vehicleTypes.rows
  areas : ∀ y ∈ form.areas, ∃ i, Wizard.areas.row y i ∈ t.areas.rows

/-- A code of the form is taken. -/
def Form.Clashes (form : Form) (t : Tables) : Prop :=
  (∃ x ∈ form.items, x.code ∈ t.vehicleTypes.rows.map (·.code)) ∨
    ∃ y ∈ form.areas, y.code ∈ t.areas.rows.map (·.code)

/-- The configuration step goes through once: a form is stored by the first attempt that is clean,
nothing that is stored changes by a later one, and no form with a code that is stored, by an
attempt that has gone through or by one that has not, ever goes through. -/
theorem config_step_once (db : Tables) (a : Attempt) (rest : List Attempt) (b : Attempt) :
    ((a.onNext db).1 = true ↔ a.Clean db) ∧
    ((a.onNext db).1 = true → a.form.StoredIn (after db (a :: rest))) ∧
    (a.onNext db).2.vehicleTypes.rows <+: (after db (a :: rest)).vehicleTypes.rows ∧
    (a.onNext db).2.areas.rows <+: (after db (a :: rest)).areas.rows ∧
    (b.form.Clashes (a.onNext db).2 → (b.onNext (after db (a :: rest))).1 = false) := by
  have hgrows : (a.onNext db).2.Grows (after db (a :: rest)) := after_grows
  refine ⟨onNext_iff, fun h => ?_, hgrows.vehicleTypes.rows, hgrows.areas.rows, fun h => ?_⟩
  · obtain ⟨hitems, hareas⟩ := onNext_stores h
    refine ⟨fun x hx => ?_, fun y hy => ?_⟩
    · obtain ⟨i, hi⟩ := hitems x hx
      exact ⟨i, hgrows.vehicleTypes.rows.subset hi⟩
    · obtain ⟨i, hi⟩ := hareas y hy
      exact ⟨i, hgrows.areas.rows.subset hi⟩
  · rw [Bool.eq_false_iff, ne_eq, onNext_iff]
    intro hclean
    rcases h with ⟨x, hx, hcode⟩ | ⟨y, hy, hcode⟩
    · exact hclean.items.new x hx (List.map_subset _ hgrows.vehicleTypes.rows.subset hcode)
    · exact hclean.areas.new y hy (List.map_subset _ hgrows.areas.rows.subset hcode)

end Runs

section Prices
variable {x : PresetItem} {hours days idx : ℕ} {i : Id} {v : VehicleType} {t : ParkingTransaction}

/-- The fee under one daily cap a started day. -/
def PresetItem.underCap (x : PresetItem) (days fee : ℕ) : ℕ :=
  if 0 < x.dailyCap then min fee (days * x.dailyCap) else fee

/-- What the presets say of a rate: a flat one is due once, whatever the duration, and of the
others the first hour, and then every hour. -/
def PresetItem.described (x : PresetItem) (hours days : ℕ) : ℕ :=
  match x.rateType with
  | .flat => x.firstHourRate
  | .hourly | .progressive =>
    x.underCap days (x.firstHourRate + (hours - 1) * x.perHourRate)

/-- What its vehicle type comes to. -/
def PresetItem.charged (x : PresetItem) (hours days : ℕ) : ℕ :=
  match x.rateType with
  | .flat => days * x.firstHourRate
  | .hourly => x.underCap days (hours * x.perHourRate)
  | .progressive => x.underCap days (x.firstHourRate + (hours - 1) * x.perHourRate)

/-- How the presets are written. -/
def PresetItem.Sound (x : PresetItem) : Prop :=
  0 < x.firstHourRate ∧
    match x.rateType with
    | .flat => x.perHourRate = 0 ∧ x.dailyCap = x.firstHourRate
    | .hourly => 0 < x.perHourRate ∧ x.perHourRate < x.firstHourRate ∧ 0 < x.dailyCap
    | .progressive => True

theorem presets_sound {preset : Preset} (h : preset ∈ presets) (hx : x ∈ preset.items) :
    x.Sound := by
  simp only [presets, List.mem_cons, List.not_mem_nil, or_false] at h
  rcases h with rfl | rfl | rfl | rfl <;>
    simp only [List.mem_cons, List.not_mem_nil, or_false] at hx
  · rcases hx with rfl | rfl | rfl <;> simp [PresetItem.Sound]
  · rcases hx with rfl | rfl <;> simp [PresetItem.Sound]
  · rcases hx with rfl | rfl <;> simp [PresetItem.Sound]
  · rcases hx with rfl | rfl <;> simp [PresetItem.Sound]

/-- The first hour of an hourly rate costs what the others cost, so that the price is as described
only under the cap; a flat rate is due every day. -/
theorem charged_eq_described (hx : x.Sound) (hhours : 0 < hours) :
    x.charged hours days = x.described hours days ↔
      match x.rateType with
      | .flat => days = 1
      | .hourly => days * x.dailyCap ≤ hours * x.perHourRate
      | .progressive => True := by
  obtain ⟨hfirst, hkind⟩ := hx
  unfold PresetItem.charged PresetItem.described
  cases hr : x.rateType with
  | flat =>
    show days * x.firstHourRate = x.firstHourRate ↔ days = 1
    exact ⟨fun h => Nat.eq_of_mul_eq_mul_right hfirst (by omega), fun h => by rw [h, one_mul]⟩
  | hourly =>
    rw [hr] at hkind
    obtain ⟨-, hlt, hcap⟩ := hkind
    have hmore : hours * x.perHourRate < x.firstHourRate + (hours - 1) * x.perHourRate := by
      obtain ⟨k, rfl⟩ := Nat.exists_eq_succ_of_ne_zero hhours.ne'
      rw [Nat.succ_mul, Nat.succ_sub_one]
      omega
    show x.underCap days _ = x.underCap days _ ↔ _
    rw [PresetItem.underCap, PresetItem.underCap, if_pos hcap, if_pos hcap]
    omega
  | progressive => exact iff_of_true rfl trivial

theorem natural_natCast (n : ℕ) : natural (some (n : Rat)) = some n := by
  simp [natural]

theorem rate_line : (vehicleTypes.row (x.line idx) i).rate =
    { hourlyRate := x.perHourRate, dailyCap := x.dailyCap, baseTariff := x.firstHourRate
      overnightMode := "midnight", isProgressive := decide (x.rateType = .progressive) } := by
  have hzero : natural (some 0) = some 0 := natural_natCast 0
  simp [vehicleTypes, VehicleType.rate, PresetItem.line, natural_natCast, hzero]

theorem startedBlocks_le (duration : Int) : startedBlocks duration ≤ startedHours duration :=
  (startedBlocks_hours duration).2 ⟨(started_hours duration).pos, by rw [nsmul_eq_mul, Nat.cast_id]; omega⟩

theorem timeFee_line (hx : x.Sound) (hhours : 0 < hours) :
    timeFee (vehicleTypes.row (x.line idx) i).rate hours =
      match x.rateType with
      | .flat => (hours * x.firstHourRate : ℕ)
      | .hourly => (hours * x.perHourRate : ℕ)
      | .progressive => (x.firstHourRate + (hours - 1) * x.perHourRate : ℕ) := by
  obtain ⟨hfirst, hkind⟩ := hx
  rw [rate_line, timeFee]
  cases hr : x.rateType with
  | flat =>
    rw [hr] at hkind
    simp [orInt, hkind.1]
  | hourly =>
    rw [hr] at hkind
    have hne : x.perHourRate ≠ 0 := hkind.1.ne'
    simp [orInt, hne]
  | progressive =>
    have hmax : max 0 ((hours : Int) - 1) = ((hours - 1 : ℕ) : Int) := by omega
    simp [orInt, hfirst.ne', hmax]

theorem capped_line {duration : Int} {fee : ℕ} :
    capped (vehicleTypes.row (x.line idx) i).rate duration fee =
      (x.underCap (startedBlocks duration) fee : ℕ) := by
  rw [rate_line, capped, PresetItem.underCap]
  by_cases hcap : 0 < x.dailyCap
  · rw [if_pos (by simpa using hcap), if_pos hcap]
    push_cast
    rfl
  · rw [if_neg (by simpa using hcap), if_neg hcap]

/-- The fee of a stay that is past its grace, with its ticket at hand. -/
theorem calculateTariff_line (hx : x.Sound) {entryTime exitTime : DateTime}
    (hpast : 15 * microsPerMinute < exitTime.instant - entryTime.instant)
    (hv : v = vehicleTypes.row (x.line idx) i) :
    calculateTariff entryTime exitTime v.code v.tariffConfig =
      .ok (x.charged (startedHours (exitTime.instant - entryTime.instant))
        (startedBlocks (exitTime.instant - entryTime.instant)) : ℕ) := by
  have hminute : (0 : Int) < microsPerMinute := by decide
  have hrate : v.tariffConfig.vehicleTypes.lookup v.code = some v.rate := by
    simp [VehicleType.tariffConfig]
  have hgrace : ¬ WithinGrace v.tariffConfig false entryTime exitTime := fun h =>
    absurd h.2 (not_le.mpr hpast)
  have hsurcharge : surcharge v.rate entryTime exitTime = 0 := by
    rw [hv, rate_line, surcharge, if_neg fun h => absurd h.2 (lt_irrefl _)]
  have hhours := (started_hours (exitTime.instant - entryTime.instant)).pos
  rw [calculateTariff_eq hrate (by omega), if_neg hgrace, floored_false, stayFee, meteredFee,
    hsurcharge, add_zero, hv, timeFee_line hx hhours]
  congr 1
  cases hr : x.rateType with
  | flat =>
    obtain ⟨hfirst, hkind⟩ := hx
    rw [hr] at hkind
    have hle := Nat.mul_le_mul_right x.firstHourRate
      (startedBlocks_le (exitTime.instant - entryTime.instant))
    rw [capped_line, PresetItem.charged, hr, PresetItem.underCap, hkind.2, if_pos hfirst,
      min_eq_right hle]
  | hourly => rw [capped_line, PresetItem.charged, hr]
  | progressive => rw [capped_line, PresetItem.charged, hr]

theorem find_of_keyed {table : Table VehicleType} (h : vehicleTypes.Keyed table)
    (hv : v ∈ table.rows) : table.rows.find? (fun r => r.id = v.id) = some v := by
  obtain ⟨r, hr⟩ : ∃ r, table.rows.find? (fun r => r.id = v.id) = some r := by
    rw [← Option.isSome_iff_exists, List.find?_isSome]
    exact ⟨v, hv, by simp⟩
  have hid : r.id = v.id := by simpa using List.find?_some hr
  rw [hr, List.inj_on_of_nodup_map h.ids (List.mem_of_find?_eq_some hr) hv hid]

/-- What the vehicle types of a preset charge once its form has gone through, whatever becomes of
the wizard later on: the price of the preset, except that a flat rate is due for every day that
has started, and that the first hour of an hourly rate costs no more than the others. -/
theorem preset_charges {db : Tables} {a : Attempt} {rest : List Attempt} {presetId : String}
    {preset : Preset} {form : Form} (hdb : vehicleTypes.Keyed db.vehicleTypes)
    (hpreset : clonePreset presetId = some preset) (hform : a.form = applyPreset presetId form)
    (hgoes : (a.onNext db).1 = true) (hx : preset.items[idx]? = some x) :
    ∃ v ∈ (after db (a :: rest)).vehicleTypes.rows, v.code = x.code idx ∧
      ∀ (w : World) (t : ParkingTransaction),
        w.db.vehicleTypes = (after db (a :: rest)).vehicleTypes.rows → w.db.byId t.id = some t →
        t.status = .active → t.isLostTicket = false →
        t.entryTime.instant + 15 * microsPerMinute < w.now →
        let hours := startedHours (w.now - t.entryTime.instant)
        let days := startedBlocks (w.now - t.entryTime.instant)
        ((calculateFee t.id (some v.id)).exec w).1 = .ok (x.charged hours days : ℕ) ∧
          (x.charged hours days = x.described hours days ↔
            match x.rateType with
            | .flat => days = 1
            | .hourly => days * x.dailyCap ≤ hours * x.perHourRate
            | .progressive => True) := by
  have hsound : x.Sound :=
    presets_sound (List.mem_of_find?_eq_some hpreset) (List.mem_of_getElem? hx)
  have hitem : x.line idx ∈ a.form.items := by
    rw [hform, applyPreset, hpreset]
    have hline : (preset.items.mapIdx fun idx x => x.line idx)[idx]? = some (x.line idx) := by
      rw [List.getElem?_mapIdx, hx, Option.map_some]
    exact List.mem_of_getElem? hline
  obtain ⟨hitems, -⟩ := onNext_stores hgoes
  obtain ⟨i, hi⟩ := hitems _ hitem
  have hlater : (a.onNext db).2.Grows (after db (a :: rest)) := after_grows
  have hrow := hlater.vehicleTypes.rows.subset hi
  have hkeyed : vehicleTypes.Keyed (after db (a :: rest)).vehicleTypes :=
    after_grows.vehicleTypes.keyed hdb
  refine ⟨_, hrow, rfl, fun w t htypes ht hactive hlost hpast => ⟨?_, ?_⟩⟩
  · refine calculateFee_quotes ht hactive ?_
    have hminute : (0 : Int) < microsPerMinute := by decide
    rw [quote, Option.some_or, Option.bind_some, htypes, find_of_keyed hkeyed hrow, hlost,
      if_neg (by show ¬ w.now < _; omega)]
    exact calculateTariff_line hsound (by show _ < w.now - _; omega) rfl
  · exact charged_eq_described hsound (started_hours _).pos

end Prices

section Mall

def mobil : PresetItem := ⟨"Mobil", .hourly, 5000, 2000, 30000⟩

def mallForm : Form :=
  applyPreset "indonesian_mall"
    { site := { name := "Mall" }, items := [], areas := [⟨"Area Utama", "MAIN", some 100⟩] }

def mallAttempt : Attempt := ⟨mallForm, List.replicate 5 .served⟩

def mallStay : ParkingTransaction where
  id := 1
  status := .active
  entryTime := .utc 0
  vehicleTypeId := none

def mallWorld : World where
  db := { parking := [mallStay], vehicleTypes := (after {} [mallAttempt]).vehicleTypes.rows }
  nextTx := 2
  nextEmoney := 1
  now := 3 * DateTime.microsPerHour

example : mallWorld.db.vehicleTypes.map (·.code) = ["MOTO", "MOBI1", "TRUK2"] := by decide +kernel

/-- A car that stays three hours is charged 6000 where the preset says 9000. -/
theorem preset_charges_mall : ∃ v ∈ mallWorld.db.vehicleTypes, v.code = "MOBI1" ∧
    ((calculateFee 1 (some v.id)).exec mallWorld).1 = .ok 6000 ∧
      mobil.described 3 1 = 9000 := by
  have hpreset : clonePreset "indonesian_mall" = some ⟨"indonesian_mall",
      [⟨"Motor", .hourly, 2000, 1000, 15000⟩, mobil, ⟨"Truk", .hourly, 10000, 3000, 60000⟩]⟩ := rfl
  have hgoes : (mallAttempt.onNext {}).1 = true := by decide +kernel
  have hcar : [⟨"Motor", .hourly, 2000, 1000, 15000⟩, mobil,
      ⟨"Truk", .hourly, 10000, 3000, 60000⟩][1]? = some mobil := rfl
  obtain ⟨v, hv, hcode, hfee⟩ : ∃ v ∈ (after {} (mallAttempt :: [])).vehicleTypes.rows, _ :=
    preset_charges ⟨List.nodup_nil, by simp⟩ hpreset rfl hgoes hcar
  have hstay : mallWorld.db.byId mallStay.id = some mallStay := by decide +kernel
  obtain ⟨hcharged, -⟩ := hfee mallWorld mallStay rfl hstay rfl rfl (by decide +kernel)
  exact ⟨v, hv, hcode, hcharged, by decide +kernel⟩

end Mall
end ParkIt.Setup.Wizard
