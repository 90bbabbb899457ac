import Mathlib.Data.Rat.Init
import Mathlib.Algebra.Order.Field.Rat
import ParkIt.Lib.Schema

/-! The schemas of the gate routes, and the keys of `hardware_config` that are read. -/
namespace ParkIt.GateConfig

open Schemas

/-- JSON values as `==` of Python compares them: a truth value is a number. -/
inductive Json where
  | null
  | num (x : Rat)
  | str (s : String)
  | arr (xs : List Json)
  | obj (o : List (String × Json))

namespace Json

def bool (b : Bool) : Json := .num (if b then 1 else 0)

def truthy : Json → Bool
  | .null => false
  | .num x => x ≠ 0
  | .str s => s ≠ ""
  | .arr xs => ¬ xs.isEmpty
  | .obj o => ¬ o.isEmpty

/-- `j.get(key, default)`, which only an object has. -/
def at? (j : Json) (key : String) (default : Json) : Option Json :=
  match j with
  | .obj o => some ((Obj.get o key).getD default)
  | _ => none

/-- `j or {}`. -/
def orEmpty : Json → Obj Json
  | .obj o => o
  | _ => []

end Json

/-- How pydantic reads numbers and truth values: what it has read it reads as it is. -/
structure Lax where
  int : Json → Option Json
  float : Json → Option Json
  bool : Json → Option Json
  int_read : ∀ {v w}, int v = some w → int w = some w
  float_read : ∀ {v w}, float v = some w → float w = some w
  bool_read : ∀ {v w}, bool v = some w → bool w = some w
  int_int : ∀ n : Int, int (.num n) = some (.num n)
  float_int : ∀ n : Nat, n ≤ 2 ^ 53 → float (.num n) = some (.num n)
  bool_bool : ∀ b, bool (.bool b) = some (.bool b)

abbrev Check := Json → Option Json

/-- `T | None`. -/
def orNone (c : Check) : Check
  | .null => some .null
  | v => c v

def text : Check
  | .str s => some (.str s)
  | _ => none

def maxLength (n : Nat) : Check
  | .str s => if s.length ≤ n then some (.str s) else none
  | _ => none

/-- A pattern of alternatives. -/
def oneOf (alternatives : List String) : Check
  | .str s => if s ∈ alternatives then some (.str s) else none
  | _ => none

def atLeast (low : Rat) : Json → Bool
  | .num x => decide (low ≤ x)
  | _ => false

def dict : Check
  | .obj o => some (.obj o)
  | _ => none

section Schemas
variable (lax : Lax)

def hardwareConfig : Schema Json where
  fields :=
    [⟨"gate_open_timeout_s", orNone lax.int, some (.num 10)⟩,
     ⟨"sensor_stuck_s", orNone lax.int, some (.num 30)⟩,
     ⟨"open_command", text, some (.str "")⟩,
     ⟨"close_command", text, some (.str "")⟩,
     ⟨"close_delay_seconds", lax.float, some (.num 3)⟩,
     ⟨"lane_type", oneOf ["SINGLE", "MIXED"], some (.str "MIXED")⟩,
     ⟨"default_vehicle_type_id", orNone lax.int, some .null⟩,
     ⟨"rfid", dict, some (.obj [])⟩,
     ⟨"ticket_printer", dict, some (.obj [])⟩,
     ⟨"emoney", dict, some (.obj [])⟩,
     ⟨"camera", dict, some (.obj [])⟩,
     ⟨"audio", dict, some (.obj [])⟩,
     ⟨"led", dict, some (.obj [])⟩,
     ⟨"omnikey_reader", dict, some (.obj [])⟩,
     ⟨"receipt_printer", dict, some (.obj [])⟩]
  nodup := by simp

/-- A `HardwareConfig`, as it is written with `exclude_unset`. -/
def hardwareConfigSet : Check
  | .obj o => ((hardwareConfig lax).parse o).map .obj
  | _ => none

/-- A `HardwareConfig`, as it is written in full. -/
def hardwareConfigFull : Check
  | .obj o => ((hardwareConfig lax).parse o).map fun p => .obj ((hardwareConfig lax).fill p)
  | _ => none

def gateResponse : Schema Json where
  fields :=
    [⟨"name", maxLength 100, none⟩,
     ⟨"code", maxLength 20, none⟩,
     ⟨"direction", oneOf ["IN", "OUT"], none⟩,
     ⟨"area_parkir_id", orNone lax.int, some .null⟩,
     ⟨"pos_id", orNone lax.int, some .null⟩,
     ⟨"protocol", oneOf ["compass", "enet", "serial"], some (.str "compass")⟩,
     ⟨"controller_host", orNone (maxLength 100), some .null⟩,
     ⟨"controller_port", orNone lax.int, some .null⟩,
     ⟨"controller_device", orNone (maxLength 100), some .null⟩,
     ⟨"controller_baudrate", orNone lax.int, some .null⟩,
     ⟨"has_close_sensor", lax.bool, some (.bool false)⟩,
     ⟨"gate_close_duration_ms", fun v => (lax.int v).filter (atLeast 0), some (.num 5000)⟩,
     ⟨"relay_mode", oneOf ["SINGLE", "DUAL", "TRIPLE"], some (.str "SINGLE")⟩,
     ⟨"hardware_config", hardwareConfigFull lax, some (.obj ((hardwareConfig lax).fill []))⟩,
     ⟨"is_active", lax.bool, some (.bool true)⟩,
     ⟨"id", lax.int, none⟩,
     ⟨"is_online", lax.bool, none⟩,
     ⟨"last_heartbeat", orNone text, some .null⟩]
  nodup := by simp

def gateUpdate : Schema Json where
  fields :=
    [⟨"name", orNone (maxLength 100), some .null⟩,
     ⟨"code", orNone (maxLength 20), some .null⟩,
     ⟨"pos_id", orNone lax.int, some .null⟩,
     ⟨"controller_host", orNone (maxLength 100), some .null⟩,
     ⟨"controller_port", orNone lax.int, some .null⟩,
     ⟨"controller_device", orNone (maxLength 100), some .null⟩,
     ⟨"controller_baudrate", orNone lax.int, some .null⟩,
     ⟨"has_close_sensor", orNone lax.bool, some .null⟩,
     ⟨"gate_close_duration_ms", orNone fun v => (lax.int v).filter (atLeast 0), some .null⟩,
     ⟨"relay_mode", orNone (oneOf ["SINGLE", "DUAL", "TRIPLE"]), some .null⟩,
     ⟨"hardware_config", orNone (hardwareConfigSet lax), some .null⟩,
     ⟨"is_active", orNone lax.bool, some .null⟩]
  nodup := by simp

def gateLaneConfigUpdate : Schema Json where
  fields :=
    [⟨"lane_type", oneOf ["SINGLE", "MIXED"], none⟩,
     ⟨"default_vehicle_type_id", orNone lax.int, some .null⟩]
  nodup := by simp

/-- The attributes of a gate, which are its columns. -/
abbrev Row := Obj Json

/-- `GateResponse.model_validate(gate)`, as it is sent. -/
def getGate (row : Row) : Option (Obj Json) :=
  ((gateResponse lax).parse row).map (gateResponse lax).fill

/-- A request that is rejected writes nothing. -/
def updateGate (row : Row) (body : Obj Json) : Option Row :=
  ((gateUpdate lax).parse body).map row.update

def updateGateLaneConfig (row : Row) (body : Obj Json) : Option Row := do
  let set ← (gateLaneConfigUpdate lax).parse body
  let data := (gateLaneConfigUpdate lax).fill set
  match row.get "hardware_config" with
  | some (.obj hw) =>
    let hw := Obj.set hw "lane_type" ((data.get "lane_type").getD .null)
    let hw := hw.set "default_vehicle_type_id" ((data.get "default_vehicle_type_id").getD .null)
    some (row.set "hardware_config" (.obj hw))
  | _ => none

end Schemas

section Readers

/-- `gate.hardware_config or {}`. -/
def hardware (row : Row) : Obj Json := ((row.get "hardware_config").getD .null).orEmpty

variable (hw : Obj Json)

/-- `hw.get(key, {})`. -/
def getPeripheral (key : String) : Json := (hw.get key).getD (.obj [])

/-- All that the daemon reads. -/
def daemonKeys : List String := ["rfid", "ticket_printer", "display", "audio"]

def displayEnabled : Option Bool :=
  ((getPeripheral hw "display").at? "enabled" (.bool true)).map (·.truthy)

/-- A camera of `cameras`, if it is active. -/
def activeCamera (c : Json) : Option (Option (Obj Json)) := do
  let url ← c.at? "url" .null
  if url.truthy then
    let enabled ← c.at? "enabled" (.bool true)
    if enabled.truthy then
      let label ← c.at? "label" .null
      let username ← c.at? "username" .null
      let password ← c.at? "password" .null
      let authType ← c.at? "auth_type" (.str "none")
      return some [("url", url), ("label", label), ("username", username), ("password", password),
        ("auth_type", authType)]
    else return none
  else return none

/-- Without an answer an exception is raised. -/
def getCameras : Option (List (Obj Json)) :=
  let cameras := (hw.get "cameras").getD (.arr [])
  if cameras.truthy then
    match cameras with
    | .arr cs => (cs.mapM activeCamera).map (·.filterMap id)
    | _ => none
  else do
    let cam := getPeripheral hw "camera"
    let enabled ← cam.at? "enabled" (.bool false)
    let url ← cam.at? "url" .null
    return if enabled.truthy && url.truthy then
      [[("url", url), ("label", .null), ("username", .null), ("password", .null),
        ("auth_type", .str "none")]]
    else []

end Readers
end ParkIt.GateConfig
