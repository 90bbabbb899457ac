import Mathlib.Data.Rat.Init
import ParkIt.Booth.Command
import ParkIt.Lib.Path

/-! The gate row of a bridge, the opener and the poller built from it, and their refresh. -/
namespace ParkIt.Booth

open ByteString Transition

inductive ConfigError where
  | typeError
  | valueError
  | attributeError
deriving DecidableEq, Repr

/-- Text, or null. -/
abbrev Text := Option String

/-- A finite number, its text, or null. -/
inductive Numeral where
  | null
  | int (n : Int)
  | float (x : Rat)
  | text (s : String)
deriving DecidableEq

/-- How `int` and `float` read text. -/
structure Reading where
  int : String → Option Int
  float : String → Option Rat
  int_empty : int "" = none
  float_empty : float "" = none

def Text.truthy (t : Text) : Bool := t.any (· ≠ "")

/-- `a or b`. -/
def Text.or (a b : Text) : Text := if a.truthy then a else b

namespace Numeral

def truthy : Numeral → Bool
  | .null => false
  | .int n => n ≠ 0
  | .float x => x ≠ 0
  | .text s => s ≠ ""

/-- `a or b`. -/
def or (a b : Numeral) : Numeral := if a.truthy then a else b

def toInt (r : Reading) : Numeral → Except ConfigError Int
  | .null => .error .typeError
  | .int n => .ok n
  | .float x => .ok (x.num.tdiv x.den)
  | .text s => (r.int s).elim (.error .valueError) .ok

def toFloat (r : Reading) : Numeral → Except ConfigError Rat
  | .null => .error .typeError
  | .int n => .ok n
  | .float x => .ok x
  | .text s => (r.float s).elim (.error .valueError) .ok

end Numeral

/-! A key that is missing is `none`. -/

structure OmnikeyConfig where
  enabled : Option Bool := none
  devicePath : Option Text := none
  deviceNameMatch : Option Text := none
  dedupeCooldownS : Option Numeral := none
  flushIdleMs : Option Numeral := none
  minCardLen : Option Numeral := none
  minInvalidFeedbackLen : Option Numeral := none
deriving DecidableEq

structure HardwareConfig where
  device : Option Text := none
  baudrate : Option Numeral := none
  openCommand : Option Text := none
  closeCommand : Option Text := none
  closeDelaySeconds : Option Numeral := none
  omnikeyReader : Option (Option OmnikeyConfig) := none
deriving DecidableEq

structure GateRow where
  code : Option String := none
  id : Option Int := none
  controllerDevice : Option Text := none
  controllerBaudrate : Option Numeral := none
  openCommand : Option Text := none
  closeCommand : Option Text := none
  hardwareConfig : Option (Option HardwareConfig) := none
deriving DecidableEq

namespace GateRow

/-- `g.get("hardware_config") or {}`. -/
def hw (g : GateRow) : HardwareConfig := (g.hardwareConfig.getD none).getD {}

def gateCode (g : GateRow) : String := g.code.getD ""
def dbId (g : GateRow) : Int := g.id.getD 0

/-- The device, with the value that a missing one has. -/
def device (default : String) (g : GateRow) : Text :=
  (g.controllerDevice.getD none).or (g.hw.device.getD (some default))

/-- The baud rate, with the value that a missing one has. -/
def baudrate (default : Int) (g : GateRow) : Numeral :=
  (g.controllerBaudrate.getD .null).or (g.hw.baudrate.getD (.int default))

def openText (g : GateRow) : Text :=
  (g.hw.openCommand.getD none).or (g.openCommand.getD (some ""))

def closeText (g : GateRow) : Text :=
  (g.hw.closeCommand.getD none).or (g.closeCommand.getD (some ""))

def closeDelay (g : GateRow) : Numeral := g.hw.closeDelaySeconds.getD (.int 3)

/-- The row leaves the device to the default. -/
def NoDevice (g : GateRow) : Prop :=
  (g.controllerDevice.getD none).truthy = false ∧ g.hw.device = none

/-- The row leaves the baud rate to the default. -/
def NoBaudrate (g : GateRow) : Prop :=
  (g.controllerBaudrate.getD .null).truthy = false ∧ g.hw.baudrate = none

instance (g : GateRow) : Decidable g.NoDevice := inferInstanceAs (Decidable (_ ∧ _))

instance (g : GateRow) : Decidable g.NoBaudrate := inferInstanceAs (Decidable (_ ∧ _))

end GateRow

structure GateOpener where
  gateId : String
  gateDbId : Int
  device : Text
  baudrate : Int
  openCommandHex : Text
  closeCommandHex : Text
  closeDelayS : Rat
  openBytes : Bytes
  closeBytes : Bytes
deriving DecidableEq

/-- What the opener does at the gate. -/
structure Behaviour where
  gateId : String
  device : Text
  baudrate : Int
  openBytes : Bytes
  closeBytes : Bytes
  closeDelayS : Rat
deriving DecidableEq

def GateOpener.behaviour (o : GateOpener) : Behaviour :=
  ⟨o.gateId, o.device, o.baudrate, o.openBytes, o.closeBytes, o.closeDelayS⟩

structure GateSignature where
  code : String
  device : Text
  baudrate : Int
  openCommand : Text
  closeCommand : Text
  closeDelay : Rat
deriving DecidableEq

structure OmnikeyPoller where
  gateId : String
  gateDbId : Int
  opener : GateOpener
  devicePath : Text
  deviceNameMatch : String
  dedupeCooldownS : Rat
  flushIdleS : Rat
  minCardLen : Int
  minInvalidFeedbackLen : Int
deriving DecidableEq

/-- The openers of the WebSocket server and of the refresher, and the poller. -/
structure Bridge where
  opener : Option GateOpener := none
  signature : Option GateSignature := none
  wsOpener : Option GateOpener := none
  poller : Option OmnikeyPoller := none
deriving DecidableEq

section Code
variable (r : Reading)

/-- The constructor of `GateOpener`. -/
def newOpener (g : GateRow) : Except ConfigError GateOpener := do
  let baudrate ← (g.baudrate 9600).toInt r
  let closeDelayS ← g.closeDelay.toFloat r
  pure {
    gateId := g.gateCode
    gateDbId := g.dbId
    device := g.device "/dev/ttyUSB0"
    baudrate
    openCommandHex := g.openText
    closeCommandHex := g.closeText
    closeDelayS
    openBytes := (decodeCommand (g.openText.getD "")).bytes
    closeBytes := (decodeCommand (g.closeText.getD "")).bytes }

def gateSignature (g : GateRow) : Except ConfigError GateSignature := do
  let baudrate ← ((g.baudrate 0).or (.int 0)).toInt r
  let closeDelay ← (g.closeDelay.or (.int 0)).toFloat r
  pure ⟨g.gateCode, g.device "", baudrate, g.openText, g.closeText, closeDelay⟩

def buildPoller (g : GateRow) (opener : GateOpener) : Except ConfigError (Option OmnikeyPoller) :=
  let cfg := (g.hw.omnikeyReader.getD none).getD {}
  if cfg.enabled.getD false = false then pure none
  else do
    let dedupeCooldownS ← (cfg.dedupeCooldownS.getD (.int 3)).toFloat r
    let flushIdleMs ← (cfg.flushIdleMs.getD (.int 200)).toInt r
    let minCardLen ← (cfg.minCardLen.getD (.int 6)).toInt r
    let minInvalidFeedbackLen ← (cfg.minInvalidFeedbackLen.getD (.int 3)).toInt r
    let deviceNameMatch ←
      (cfg.deviceNameMatch.getD (some "omnikey")).elim (.error .attributeError) .ok
    pure (some {
      gateId := g.gateCode
      gateDbId := g.dbId
      opener
      devicePath := cfg.devicePath.getD none
      deviceNameMatch := deviceNameMatch.toLower
      dedupeCooldownS
      flushIdleS := (flushIdleMs : Rat) / 1000
      minCardLen
      minInvalidFeedbackLen })

def bootBridge (row : Option GateRow) : Except ConfigError Bridge :=
  match row with
  | none => pure {}
  | some g => do
    let opener ← newOpener r g
    let signature ← gateSignature r g
    let poller ← buildPoller r g opener
    pure ⟨some opener, some signature, some opener, poller⟩

/-- The opener is rebuilt where the signature has changed. -/
def swapOpener (s : Bridge) (g : GateRow) : Except ConfigError Bridge := do
  let newSig ← gateSignature r g
  if s.signature = some newSig ∧ s.opener.isSome then pure s
  else
    let opener ← newOpener r g
    pure {
      opener := some opener
      signature := some newSig
      wsOpener := some opener
      poller := s.poller.map fun p => { p with opener } }

/-- A poller is started where there is none. -/
def bringUp (s : Bridge) (g : GateRow) : Except ConfigError Bridge :=
  match s.poller, s.opener with
  | none, some opener => do
    let poller ← buildPoller r g opener
    pure { s with poller }
  | _, _ => pure s

/-- A tick of the refresher; what has been written before an exception stays. -/
def refresh (s : Bridge) (g : GateRow) : Bridge :=
  match swapOpener r s g with
  | .error _ => s
  | .ok s' =>
    match bringUp r s' g with
    | .error _ => s'
    | .ok s'' => s''

/-- The tick builds a new opener. -/
def Bridge.rebuilds (s : Bridge) (g : GateRow) : Bool :=
  match gateSignature r g, newOpener r g with
  | .ok newSig, .ok _ => ¬ (s.signature = some newSig ∧ s.opener.isSome)
  | _, _ => false

end Code

/-- A bridge with the row it fetched last and the row its opener was built from. -/
structure Live where
  bridge : Bridge := {}
  fetched : Option GateRow := none
  built : Option GateRow := none
deriving DecidableEq

section Live
variable (r : Reading)

def Live.boot (row : Option GateRow) : Except ConfigError Live := do
  let bridge ← bootBridge r row
  pure ⟨bridge, row, row⟩

/-- A tick, which may fetch nothing. -/
def Live.after (s : Live) : Option GateRow → Live
  | none => s
  | some g => ⟨refresh r s.bridge g, some g, if s.bridge.rebuilds r g then some g else s.built⟩

def Tick (s : Live) (row : Option GateRow) (s' : Live) : Prop := s' = s.after r row

/-- The openers and the ids of the poller are those of the row fetched last. -/
structure UpToDate (s : Live) : Prop where
  server : ∀ g o', s.fetched = some g → newOpener r g = .ok o' →
    ∃ o, s.bridge.wsOpener = some o ∧ o.behaviour = o'.behaviour
  poller : ∀ g o' p, s.fetched = some g → newOpener r g = .ok o' → s.bridge.poller = some p →
    p.opener.behaviour = o'.behaviour
  ids : ∀ g p, s.fetched = some g → s.bridge.poller = some p →
    p.gateId = g.gateCode ∧ p.gateDbId = g.dbId

/-- The rows have the same signature, and the second one builds an opener. -/
def Confusable (b g : GateRow) : Prop :=
  gateSignature r b = gateSignature r g ∧ ∃ o, newOpener r g = .ok o

/-- A running poller has the ids of the row, and a row that is taken for the one the opener was
built from leaves the same settings to their defaults. -/
def InLine (s : Live) (row : Option GateRow) (_ : Live) : Prop :=
  ∀ g, row = some g →
    (∀ p, s.bridge.poller = some p → p.gateId = g.gateCode ∧ p.gateDbId = g.dbId) ∧
    ∀ b, s.built = some b → Confusable r b g →
      (b.NoDevice ↔ g.NoDevice) ∧ (b.NoBaudrate ↔ g.NoBaudrate)

end Live

section Settings
variable {r : Reading} {b g : GateRow} {o o' : GateOpener} {sig : GateSignature} {n : Numeral}

theorem toInt_or_zero {k : Int} (h : n.toInt r = .ok k) : (n.or (.int 0)).toInt r = .ok k := by
  rw [Numeral.or]
  split
  · exact h
  · rename_i hfalse
    cases n with
    | null => cases h
    | int m =>
      have hm : m = 0 := by simpa [Numeral.truthy] using hfalse
      rw [hm] at h
      exact h
    | float x =>
      have hx : x = 0 := by simpa [Numeral.truthy] using hfalse
      rw [hx] at h
      exact h
    | text t =>
      have ht : t = "" := by simpa [Numeral.truthy] using hfalse
      rw [ht, Numeral.toInt, r.int_empty] at h
      cases h

theorem toFloat_or_zero {x : Rat} (h : n.toFloat r = .ok x) :
    (n.or (.int 0)).toFloat r = .ok x := by
  rw [Numeral.or]
  split
  · exact h
  · rename_i hfalse
    cases n with
    | null => cases h
    | int m =>
      have hm : m = 0 := by simpa [Numeral.truthy] using hfalse
      rw [hm] at h
      exact h
    | float y =>
      have hy : y = 0 := by simpa [Numeral.truthy] using hfalse
      rw [hy] at h
      exact h
    | text t =>
      have ht : t = "" := by simpa [Numeral.truthy] using hfalse
      rw [ht, Numeral.toFloat, r.float_empty] at h
      cases h

theorem device_default (h : g.NoDevice) (d : String) : g.device d = some d := by
  obtain ⟨hcontroller, hhw⟩ := h
  rw [GateRow.device, Text.or, if_neg (by rw [hcontroller]; exact Bool.false_ne_true), hhw]
  rfl

theorem device_given (h : ¬ g.NoDevice) (d d' : String) : g.device d = g.device d' := by
  rw [GateRow.device, GateRow.device, Text.or, Text.or]
  split
  · rfl
  · rename_i hcontroller
    cases hhw : g.hw.device with
    | none => exact absurd ⟨Bool.not_eq_true _ ▸ hcontroller, hhw⟩ h
    | some v => rfl

theorem baudrate_default (h : g.NoBaudrate) (d : Int) : g.baudrate d = .int d := by
  obtain ⟨hcontroller, hhw⟩ := h
  rw [GateRow.baudrate, Numeral.or, if_neg (by rw [hcontroller]; exact Bool.false_ne_true), hhw]
  rfl

theorem baudrate_given (h : ¬ g.NoBaudrate) (d d' : Int) : g.baudrate d = g.baudrate d' := by
  rw [GateRow.baudrate, GateRow.baudrate, Numeral.or, Numeral.or]
  split
  · rfl
  · rename_i hcontroller
    cases hhw : g.hw.baudrate with
    | none => exact absurd ⟨Bool.not_eq_true _ ▸ hcontroller, hhw⟩ h
    | some v => rfl

/-- What the signature of a row tells of the opener that the row builds. -/
structure Signs (g : GateRow) (o : GateOpener) (sig : GateSignature) : Prop where
  code : sig.code = o.gateId
  openCommand : sig.openCommand = o.openCommandHex
  closeCommand : sig.closeCommand = o.closeCommandHex
  closeDelay : sig.closeDelay = o.closeDelayS
  openBytes : o.openBytes = (decodeCommand (o.openCommandHex.getD "")).bytes
  closeBytes : o.closeBytes = (decodeCommand (o.closeCommandHex.getD "")).bytes
  noDevice : g.NoDevice → sig.device = some "" ∧ o.device = some "/dev/ttyUSB0"
  device : ¬ g.NoDevice → sig.device = o.device
  noBaudrate : g.NoBaudrate → sig.baudrate = 0 ∧ o.baudrate = 9600
  baudrate : ¬ g.NoBaudrate → sig.baudrate = o.baudrate

theorem signature_signs (h : newOpener r g = .ok o) :
    ∃ sig, gateSignature r g = .ok sig ∧ Signs g o sig := by
  rw [newOpener] at h
  cases hbaud : (g.baudrate 9600).toInt r with
  | error e => rw [hbaud] at h; cases h
  | ok baud =>
    cases hdelay : g.closeDelay.toFloat r with
    | error e => rw [hbaud, hdelay] at h; cases h
    | ok delay =>
      rw [hbaud, hdelay] at h
      cases h
      have hdelay' := toFloat_or_zero hdelay
      by_cases hno : g.NoBaudrate
      · have hbaud' : ((g.baudrate 0).or (.int 0)).toInt r = .ok 0 := by
          rw [baudrate_default hno]
          rfl
        rw [baudrate_default hno] at hbaud
        cases hbaud
        refine ⟨⟨g.gateCode, g.device "", 0, g.openText, g.closeText, delay⟩, ?_, rfl, rfl, rfl,
          rfl, rfl, rfl, fun hd => ⟨device_default hd _, device_default hd _⟩,
          fun hd => device_given hd _ _, fun _ => ⟨rfl, rfl⟩, fun hb => absurd hno hb⟩
        rw [gateSignature, hbaud', hdelay']
        rfl
      · have hbaud' := toInt_or_zero hbaud
        rw [baudrate_given hno 9600 0] at hbaud'
        refine ⟨⟨g.gateCode, g.device "", baud, g.openText, g.closeText, delay⟩, ?_, rfl, rfl, rfl,
          rfl, rfl, rfl, fun hd => ⟨device_default hd _, device_default hd _⟩,
          fun hd => device_given hd _ _, fun hb => absurd hb hno, fun _ => rfl⟩
        rw [gateSignature, hbaud', hdelay']
        rfl

/-- Two rows of one signature build the same opener where they leave the same settings to their
defaults. -/
theorem behaviour_eq_iff (hb : Signs b o sig) (hg : Signs g o' sig) :
    o.behaviour = o'.behaviour ↔ (b.NoDevice ↔ g.NoDevice) ∧ (b.NoBaudrate ↔ g.NoBaudrate) := by
  have hopen : o.openBytes = o'.openBytes := by
    rw [hb.openBytes, hg.openBytes, ← hb.openCommand, ← hg.openCommand]
  have hclose : o.closeBytes = o'.closeBytes := by
    rw [hb.closeBytes, hg.closeBytes, ← hb.closeCommand, ← hg.closeCommand]
  have hdevice : o.device = o'.device ↔ (b.NoDevice ↔ g.NoDevice) := by
    by_cases hnb : b.NoDevice <;> by_cases hng : g.NoDevice
    · simp [hnb, hng, (hb.noDevice hnb).2, (hg.noDevice hng).2]
    · have hval : o'.device = some "" := by rw [← hg.device hng, (hb.noDevice hnb).1]
      simp [hnb, hng, hval, (hb.noDevice hnb).2]
    · have hval : o.device = some "" := by rw [← hb.device hnb, (hg.noDevice hng).1]
      simp [hnb, hng, hval, (hg.noDevice hng).2]
    · simp [hnb, hng, ← hb.device hnb, ← hg.device hng]
  have hbaudrate : o.baudrate = o'.baudrate ↔ (b.NoBaudrate ↔ g.NoBaudrate) := by
    by_cases hnb : b.NoBaudrate <;> by_cases hng : g.NoBaudrate
    · simp [hnb, hng, (hb.noBaudrate hnb).2, (hg.noBaudrate hng).2]
    · have hval : o'.baudrate = 0 := by rw [← hg.baudrate hng, (hb.noBaudrate hnb).1]
      simp [hnb, hng, hval, (hb.noBaudrate hnb).2]
    · have hval : o.baudrate = 0 := by rw [← hb.baudrate hnb, (hg.noBaudrate hng).1]
      simp [hnb, hng, hval, (hg.noBaudrate hng).2]
    · simp [hnb, hng, ← hb.baudrate hnb, ← hg.baudrate hng]
  rw [← hdevice, ← hbaudrate, GateOpener.behaviour, GateOpener.behaviour, Behaviour.mk.injEq,
    ← hb.code, ← hg.code, hopen, hclose, ← hb.closeDelay, ← hg.closeDelay]
  constructor
  · rintro ⟨-, hd, hr, -⟩
    exact ⟨hd, hr⟩
  · rintro ⟨hd, hr⟩
    exact ⟨rfl, hd, hr, rfl, rfl, rfl⟩

end Settings

section Ticks
variable {r : Reading} {s s' : Bridge} {b g : GateRow} {o : GateOpener} {l : Live}

/-- The openers stay, and a poller is at most added, with the ids of the row. -/
structure Keeps (g : GateRow) (s s' : Bridge) : Prop where
  opener : s'.opener = s.opener
  signature : s'.signature = s.signature
  server : s'.wsOpener = s.wsOpener
  poller : ∀ p, s.poller = some p → s'.poller = some p
  added : ∀ p, s'.poller = some p → s.poller = some p ∨
    s.opener = some p.opener ∧ p.gateId = g.gateCode ∧ p.gateDbId = g.dbId

theorem Keeps.refl (g : GateRow) (s : Bridge) : Keeps g s s :=
  ⟨rfl, rfl, rfl, fun _ h => h, fun _ h => Or.inl h⟩

theorem buildPoller_ids {p : OmnikeyPoller} (h : buildPoller r g o = .ok (some p)) :
    p.opener = o ∧ p.gateId = g.gateCode ∧ p.gateDbId = g.dbId := by
  rw [buildPoller] at h
  split at h
  · cases h
  · simp only [bind, Except.bind, pure, Except.pure] at h
    repeat' split at h
    all_goals cases h
    exact ⟨rfl, rfl, rfl⟩

theorem bringUp_keeps (h : bringUp r s g = .ok s') : Keeps g s s' := by
  rw [bringUp] at h
  split at h
  · rename_i o hpoller hopener
    cases hbuild : buildPoller r g o with
    | error e => rw [hbuild] at h; cases h
    | ok poller =>
      rw [hbuild] at h
      cases h
      refine ⟨rfl, rfl, rfl, fun p hp => ?_, fun p hp => Or.inr ?_⟩
      · cases hpoller.symm.trans hp
      · obtain rfl : poller = some p := hp
        obtain ⟨hop, hid, hdb⟩ := buildPoller_ids hbuild
        exact ⟨hop ▸ hopener, hid, hdb⟩
  · cases h
    exact Keeps.refl g s

theorem refresh_of_swap (h : swapOpener r s g = .ok s') : Keeps g s' (refresh r s g) := by
  rw [refresh, h]
  dsimp only
  split
  · exact Keeps.refl g s'
  · rename_i hbring
    exact bringUp_keeps hbring

/-- A bridge with the opener of a row. -/
def Bridge.swapped (s : Bridge) (o : GateOpener) (sig : GateSignature) : Bridge :=
  ⟨some o, some sig, some o, s.poller.map fun p => { p with opener := o }⟩

theorem swapOpener_eq {sig : GateSignature} (h : gateSignature r g = .ok sig) :
    swapOpener r s g = if s.signature = some sig ∧ s.opener.isSome then .ok s
      else (newOpener r g).map (s.swapped · sig) := by
  rw [swapOpener, h]
  change (if s.signature = some sig ∧ s.opener.isSome = true then _ else _) = _
  cases newOpener r g <;> rfl

theorem refresh_rebuilds (h : s.rebuilds r g = true) :
    ∃ o sig, newOpener r g = .ok o ∧ gateSignature r g = .ok sig ∧
      Keeps g (s.swapped o sig) (refresh r s g) := by
  rw [Bridge.rebuilds] at h
  split at h
  · rename_i sig o hsig hopener
    refine ⟨o, sig, hopener, hsig, refresh_of_swap ?_⟩
    rw [swapOpener_eq hsig, if_neg (of_decide_eq_true h), hopener]
    rfl
  · cases h

theorem refresh_keeps (h : s.rebuilds r g = false) : Keeps g s (refresh r s g) := by
  cases hswap : swapOpener r s g with
  | error e =>
    rw [refresh, hswap]
    exact Keeps.refl g s
  | ok s' =>
    cases hsig : gateSignature r g with
    | error e =>
      rw [swapOpener, hsig] at hswap
      cases hswap
    | ok sig =>
      cases hopener : newOpener r g with
      | error e =>
        rw [swapOpener_eq hsig, hopener] at hswap
        split at hswap
        · cases hswap
          exact refresh_of_swap (by rw [swapOpener_eq hsig, if_pos ‹_›])
        · cases hswap
      | ok o =>
        rw [Bridge.rebuilds, hsig, hopener] at h
        have hsame := not_not.mp (of_decide_eq_false h)
        exact refresh_of_swap (by rw [swapOpener_eq hsig, if_pos hsame])

/-- The openers and the signature of the bridge are those of the row it was built from. -/
structure BuiltFrom (r : Reading) (s : Bridge) (b : GateRow) (o : GateOpener) : Prop where
  built : newOpener r b = .ok o
  signature : ∃ sig, gateSignature r b = .ok sig ∧ s.signature = some sig
  opener : s.opener = some o
  server : s.wsOpener = some o
  poller : ∀ p, s.poller = some p → p.opener = o

/-- A bridge without an opener has nothing else, and one with an opener has it from a row. -/
def Coherent (r : Reading) (l : Live) : Prop :=
  (l.built = none → l.bridge = {}) ∧ ∀ b, l.built = some b → ∃ o, BuiltFrom r l.bridge b o

theorem BuiltFrom.keeps (h : BuiltFrom r s b o) (hkeeps : Keeps g s s') :
    BuiltFrom r s' b o := by
  obtain ⟨sig, hsig, hs⟩ := h.signature
  refine ⟨h.built, ⟨sig, hsig, hkeeps.signature.trans hs⟩, hkeeps.opener.trans h.opener,
    hkeeps.server.trans h.server, fun p hp => ?_⟩
  rcases hkeeps.added p hp with hold | ⟨hop, -⟩
  · exact h.poller p hold
  · exact Option.some.inj (hop.symm.trans h.opener)

theorem builtFrom_swapped {sig : GateSignature} (ho : newOpener r g = .ok o)
    (hsig : gateSignature r g = .ok sig) : BuiltFrom r (s.swapped o sig) g o := by
  refine ⟨ho, ⟨sig, hsig, rfl⟩, rfl, rfl, fun p hp => ?_⟩
  obtain ⟨q, -, rfl⟩ := Option.map_eq_some_iff.mp hp
  rfl

theorem keeps_empty (h : Keeps g {} s') : s' = {} := by
  obtain ⟨opener, signature, server, poller⟩ := s'
  obtain rfl : opener = none := h.opener
  obtain rfl : signature = none := h.signature
  obtain rfl : server = none := h.server
  cases poller with
  | none => rfl
  | some p =>
    rcases h.added p rfl with hold | ⟨hop, -⟩
    · cases hold
    · cases hop

theorem coherent_after (hl : Coherent r l) (row : Option GateRow) :
    Coherent r (l.after r row) := by
  cases row with
  | none => exact hl
  | some g =>
    cases hre : l.bridge.rebuilds r g with
    | true =>
      obtain ⟨o, sig, ho, hsig, hkeeps⟩ := refresh_rebuilds hre
      have hbuilt : (l.after r (some g)).built = some g := by
        rw [Live.after, hre]
        rfl
      refine ⟨fun hnone => ?_, fun b hb => ⟨o, ?_⟩⟩
      · cases hbuilt.symm.trans hnone
      · obtain rfl := Option.some.inj (hbuilt.symm.trans hb)
        exact (builtFrom_swapped ho hsig).keeps hkeeps
    | false =>
      have hkeeps : Keeps g l.bridge (l.after r (some g)).bridge := refresh_keeps hre
      have hbuilt : (l.after r (some g)).built = l.built := by
        rw [Live.after, hre]
        rfl
      refine ⟨fun hnone => ?_, fun b hb => ?_⟩
      · rw [hl.1 (hbuilt.symm.trans hnone)] at hkeeps
        exact keeps_empty hkeeps
      · obtain ⟨o, ho⟩ := hl.2 b (hbuilt.symm.trans hb)
        exact ⟨o, ho.keeps hkeeps⟩

/-- An opener that a buildable row does not replace has been built from a row of its signature. -/
theorem builtFrom_of_keeps (hl : Coherent r l) (hre : l.bridge.rebuilds r g = false)
    (ho : newOpener r g = .ok o) :
    ∃ b ob, l.built = some b ∧ BuiltFrom r l.bridge b ob ∧ Confusable r b g := by
  obtain ⟨sig, hsig, -⟩ := signature_signs ho
  rw [Bridge.rebuilds, hsig, ho] at hre
  obtain ⟨hsame, hsome⟩ := not_not.mp (of_decide_eq_false hre)
  cases hbuilt : l.built with
  | none =>
    rw [hl.1 hbuilt] at hsome
    cases hsome
  | some b =>
    obtain ⟨ob, hb⟩ := hl.2 b hbuilt
    obtain ⟨sigb, hsigb, hs⟩ := hb.signature
    obtain rfl := Option.some.inj (hs.symm.trans hsame)
    exact ⟨b, ob, rfl, hb, hsigb.trans hsig.symm, o, ho⟩

theorem keeps_of_confusable (hb : BuiltFrom r s b o) (h : Confusable r b g) :
    s.rebuilds r g = false := by
  obtain ⟨sig, hsig, hs⟩ := hb.signature
  obtain ⟨o', ho'⟩ := h.2
  rw [Bridge.rebuilds, ← h.1, hsig, ho', hs, hb.opener]
  simp

theorem behaviour_confusable {o' : GateOpener} (ho : newOpener r b = .ok o)
    (hsig : gateSignature r b = gateSignature r g) (ho' : newOpener r g = .ok o') :
    o.behaviour = o'.behaviour ↔ (b.NoDevice ↔ g.NoDevice) ∧ (b.NoBaudrate ↔ g.NoBaudrate) := by
  obtain ⟨sig, hb, hsigns⟩ := signature_signs ho
  obtain ⟨sig', hg, hsigns'⟩ := signature_signs ho'
  cases (hb.symm.trans hsig).trans hg
  exact behaviour_eq_iff hsigns hsigns'

/-- A poller that runs already keeps its ids. -/
theorem ids_after {p : OmnikeyPoller} (hp : l.bridge.poller = some p) :
    ∃ p', (l.after r (some g)).bridge.poller = some p' ∧ p'.gateId = p.gateId ∧
      p'.gateDbId = p.gateDbId := by
  cases hre : l.bridge.rebuilds r g with
  | true =>
    obtain ⟨o, sig, -, -, hkeeps⟩ := refresh_rebuilds hre
    refine ⟨{ p with opener := o }, hkeeps.poller _ ?_, rfl, rfl⟩
    rw [Bridge.swapped, hp]
    rfl
  | false => exact ⟨p, (refresh_keeps hre).poller p hp, rfl, rfl⟩

theorem inLine_of_upToDate (hl : Coherent r l) (h : UpToDate r (l.after r (some g))) :
    InLine r l (some g) (l.after r (some g)) := by
  intro g' hg
  obtain rfl := Option.some.inj hg
  refine ⟨fun p hp => ?_, fun b hb hconf => ?_⟩
  · obtain ⟨p', hp', hid, hdb⟩ := ids_after (r := r) (g := g) hp
    obtain ⟨hid', hdb'⟩ := h.ids g p' rfl hp'
    exact ⟨hid ▸ hid', hdb ▸ hdb'⟩
  · obtain ⟨ob, hob⟩ := hl.2 b hb
    obtain ⟨o', ho'⟩ := hconf.2
    obtain ⟨o, ho, heq⟩ := h.server g o' rfl ho'
    have hkeeps := refresh_keeps (keeps_of_confusable hob hconf)
    obtain rfl := Option.some.inj ((hkeeps.server.trans hob.server).symm.trans ho)
    exact (behaviour_confusable hob.built hconf.1 ho').mp heq

theorem upToDate_of_inLine (hl : Coherent r l) (h : InLine r l (some g) (l.after r (some g))) :
    UpToDate r (l.after r (some g)) := by
  obtain ⟨hids, hdefaults⟩ := h g rfl
  cases hre : l.bridge.rebuilds r g with
  | true =>
    obtain ⟨o, sig, ho, hsig, hkeeps⟩ := refresh_rebuilds hre
    have hbuilt : BuiltFrom r (l.after r (some g)).bridge g o :=
      (builtFrom_swapped ho hsig).keeps hkeeps
    refine ⟨fun g' o' hg ho' => ?_, fun g' o' p hg ho' hp => ?_, fun g' p hg hp => ?_⟩ <;>
      obtain rfl := Option.some.inj hg
    · obtain rfl := Except.ok.inj (ho.symm.trans ho')
      exact ⟨o, hbuilt.server, rfl⟩
    · obtain rfl := Except.ok.inj (ho.symm.trans ho')
      rw [hbuilt.poller p hp]
    · rcases hkeeps.added p hp with hold | ⟨-, hid⟩
      · obtain ⟨q, hq, rfl⟩ := Option.map_eq_some_iff.mp hold
        exact hids q hq
      · exact hid
  | false =>
    have hkeeps : Keeps g l.bridge (l.after r (some g)).bridge := refresh_keeps hre
    have hsame : ∀ o', newOpener r g = .ok o' → ∃ b ob,
        BuiltFrom r (l.after r (some g)).bridge b ob ∧ ob.behaviour = o'.behaviour := by
      intro o' ho'
      obtain ⟨b, ob, hb, hob, hconf⟩ := builtFrom_of_keeps hl hre ho'
      exact ⟨b, ob, hob.keeps hkeeps,
        (behaviour_confusable hob.built hconf.1 ho').mpr (hdefaults b hb hconf)⟩
    refine ⟨fun g' o' hg ho' => ?_, fun g' o' p hg ho' hp => ?_, fun g' p hg hp => ?_⟩ <;>
      obtain rfl := Option.some.inj hg
    · obtain ⟨b, ob, hob, heq⟩ := hsame o' ho'
      exact ⟨ob, hob.server, heq⟩
    · obtain ⟨b, ob, hob, heq⟩ := hsame o' ho'
      rw [hob.poller p hp, heq]
    · rcases hkeeps.added p hp with hold | ⟨-, hid⟩
      · exact hids p hold
      · exact hid

theorem boot_coherent {row : Option GateRow} (h : Live.boot r row = .ok l) :
    Coherent r l ∧ UpToDate r l := by
  cases row with
  | none =>
    cases h
    refine ⟨⟨fun _ => rfl, fun b hb => ?_⟩, fun g o hg => ?_, fun g o p hg => ?_, fun g p hg => ?_⟩
    · cases hb
    all_goals cases hg
  | some g =>
    cases ho : newOpener r g with
    | error e =>
      rw [Live.boot, bootBridge, ho] at h
      cases h
    | ok o =>
      obtain ⟨sig, hsig, -⟩ := signature_signs ho
      cases hpoller : buildPoller r g o with
      | error e =>
        simp only [Live.boot, bootBridge, ho, hsig, hpoller, bind, Except.bind] at h
        cases h
      | ok poller =>
        simp only [Live.boot, bootBridge, ho, hsig, hpoller, bind, Except.bind] at h
        cases h
        have hids : ∀ p, poller = some p → p.opener = o ∧ p.gateId = g.gateCode ∧
            p.gateDbId = g.dbId := by
          rintro p rfl
          exact buildPoller_ids hpoller
        refine ⟨⟨fun hnone => ?_, fun b hb => ?_⟩, fun g' o' hg ho' => ?_,
          fun g' o' p hg ho' hp => ?_, fun g' p hg hp => ?_⟩
        · cases hnone
        · obtain rfl := Option.some.inj hb
          exact ⟨o, ho, ⟨sig, hsig, rfl⟩, rfl, rfl, fun p hp => (hids p hp).1⟩
        all_goals obtain rfl := Option.some.inj hg
        · obtain rfl := Except.ok.inj (ho.symm.trans ho')
          exact ⟨o, rfl, rfl⟩
        · obtain rfl := Except.ok.inj (ho.symm.trans ho')
          rw [(hids p hp).1]
        · exact (hids p hp).2

/-- The bridge follows its gate in exactly the runs whose rows are all in line. -/
theorem upToDate_iff {row : Option GateRow} {xs : List (Option GateRow × Live)}
    (hboot : Live.boot r row = .ok l) (h : Path (Tick r) l xs) :
    UpToDate r l ∧ (Path (fun _ _ t => UpToDate r t) l xs ↔ Path (InLine r) l xs) := by
  obtain ⟨hcoherent, hfirst⟩ := boot_coherent hboot
  refine ⟨hfirst, ?_⟩
  clear hboot
  induction xs generalizing l with
  | nil => exact Iff.rfl
  | cons x xs ih =>
    obtain ⟨row', t⟩ := x
    obtain ⟨rfl, hrest⟩ := h
    have hcoherent' := coherent_after hcoherent row'
    have hstep : UpToDate r (l.after r row') ↔ InLine r l row' (l.after r row') := by
      cases row' with
      | none =>
        refine ⟨fun _ g hg => ?_, fun _ => hfirst⟩
        cases hg
      | some g => exact ⟨inLine_of_upToDate hcoherent, upToDate_of_inLine hcoherent⟩
    constructor
    · rintro ⟨hup, hups⟩
      exact ⟨hstep.mp hup, (ih hrest hcoherent' hup).mp hups⟩
    · rintro ⟨hin, hins⟩
      exact ⟨hstep.mpr hin, (ih hrest hcoherent' (hstep.mpr hin)).mpr hins⟩

def digits (s : String) : Option Nat :=
  if s ≠ "" ∧ s.toList.all Char.isDigit then
    some (s.toList.foldl (fun n c => 10 * n + (c.toNat - 48)) 0)
  else none

/-- Text of decimal digits. -/
def decimalText : Reading :=
  ⟨fun s => (digits s).map Int.ofNat, fun s => (digits s).map Nat.cast, rfl, rfl⟩

/-- An exit gate with a reader. -/
def exitGate : GateRow where
  code := some "OUT1"
  id := some 7
  controllerDevice := some none
  controllerBaudrate := some .null
  openCommand := some (some "*TRIG1#")
  hardwareConfig := some (some {
    device := some (some "/dev/parking-gate")
    baudrate := some (.int 19200)
    omnikeyReader := some (some { enabled := some true }) })

/-- The same gate with another command. -/
def editedGate : GateRow := { exitGate with openCommand := some (some "A0 01 01 A2") }

def booted : Live := (Live.boot decimalText (some exitGate)).toOption.getD {}

theorem upToDate_edited :
    Path (fun _ _ t => UpToDate decimalText t) booted
      (trace (Live.after decimalText) booted [some exitGate, none, some editedGate]) := by
  have hboot : Live.boot decimalText (some exitGate) = .ok booted := rfl
  refine (upToDate_iff hboot (trace_path _ _ _)).2.mpr
    ⟨fun g hg => ?_, fun g hg => ?_, fun g hg => ?_, trivial⟩
  · obtain rfl := Option.some.inj hg
    refine ⟨fun p hp => ?_, fun b hb _ => ?_⟩
    · obtain rfl := Option.some.inj hp
      exact ⟨rfl, rfl⟩
    · obtain rfl := Option.some.inj hb
      exact ⟨Iff.rfl, Iff.rfl⟩
  · cases hg
  · obtain rfl := Option.some.inj hg
    refine ⟨fun p hp => ?_, fun b hb _ => ?_⟩
    · obtain rfl := Option.some.inj hp
      exact ⟨rfl, rfl⟩
    · obtain rfl := Option.some.inj hb
      exact ⟨Iff.rfl, Iff.rfl⟩

/-- The gate after it has been deleted and made again. -/
def recreatedGate : GateRow := { exitGate with id := some 9 }

/-- A row without a device, and one whose device is empty. -/
def bareGate : GateRow := { exitGate with hardwareConfig := some (some {}) }

def blankGate : GateRow :=
  { exitGate with hardwareConfig := some (some { device := some (some "") }) }

theorem stale_gate :
    Live.boot decimalText (some exitGate) = .ok booted ∧
      ¬ UpToDate decimalText (booted.after decimalText (some recreatedGate)) ∧
      gateSignature decimalText bareGate = gateSignature decimalText blankGate ∧
      (newOpener decimalText bareGate).map GateOpener.device = .ok (some "/dev/ttyUSB0") ∧
      (newOpener decimalText blankGate).map GateOpener.device = .ok (some "") := by
  refine ⟨rfl, fun h => ?_, rfl, rfl, rfl⟩
  have hids := h.ids recreatedGate _ rfl rfl
  exact absurd hids.2 (by decide)

end Ticks
end ParkIt.Booth
