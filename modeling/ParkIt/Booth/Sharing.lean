import ParkIt.Booth.Serial
import ParkIt.Lib.Turns
import ParkIt.Lib.Path

/-! Callers that share the peripherals of a booth: every exchange has its port to itself. -/
namespace ParkIt.Booth

open Effects ByteString Transition Turns

/-- The `except` branch of `write_only`. -/
def rewriting (data : Bytes) : BridgeError → Serial Unit
  | .serial _ => do
    reconnect
    write data
  | .other msg => Prog.raise (.other msg)

def writeOnly (data : Bytes) : Serial Unit := do
  openPort
  (write data).handle (rewriting data)

/-- A POS asks the reader, or prints; the answer of a printer is not read. -/
inductive PortCall where
  | send (data : Bytes)
  | writeOnly (data : Bytes)
deriving DecidableEq

def PortCall.data : PortCall → Bytes
  | .send data | .writeOnly data => data

/-- What the call does under the lock of its peripheral, in a thread of its own. -/
def PortCall.code : PortCall → Serial (Option Bytes)
  | .send data => do
    let response ← Booth.send data
    pure (some response)
  | .writeOnly data => do
    Booth.writeOnly data
    pure none

/-- An operation takes any time. -/
def SerialOp.delay (_ : SerialOp) : ℕ := 0

/-- The callers of the peripherals, each of which has a lock; the calls are numbered in the order
in which they get their locks. -/
abbrev Ports := Sys String PortCall ℕ SerialOp SerialOp.Ans BridgeError (Option Bytes)

/-- A thread that waits for a lock or has it is not cancelled with the task that awaits it. -/
def Stays : Label String PortCall → Prop
  | .leave _ => False
  | _ => True

def PortsStep (s : Ports) (x : Label String PortCall) (t : Ports) : Prop :=
  Step PortCall.code SerialOp.delay s x t ∧ Stays x

/-- What goes over the wire of a peripheral, with the number of the call. -/
def wire (s : Ports) (peripheral : String) : List (ℕ × Event ℕ SerialOp SerialOp.Ans) :=
  (s.log.filter (fun x => x.1 = peripheral)).map (·.2)

/-- Every caller has the peripheral to itself. -/
structure Exclusive (s : Ports) (peripheral : String) : Prop where
  order : ((wire s peripheral).map (·.1)).Pairwise (· ≤ ·)
  own : ∀ i data ans time, (i, ⟨.write data, ans, time⟩) ∈ wire s peripheral →
    ∃ c, s.calls[i]? = some (peripheral, c) ∧ c.data = data
  answered : ∀ i data response, (i, .ok (some response)) ∈ s.results →
    s.calls[i]? = some (peripheral, .send data) → ∃ before t₁ t₂ t₃ after,
      wire s peripheral = before ++ [(i, ⟨.resetInputBuffer, .ok (), t₁⟩),
        (i, ⟨.write data, .ok (), t₂⟩), (i, ⟨.read 1024, .ok response, t₃⟩)] ++ after
  written : ∀ i data, (i, .ok none) ∈ s.results →
    s.calls[i]? = some (peripheral, .writeOnly data) → ∃ before t after,
      wire s peripheral = before ++ [(i, ⟨.write data, .ok (), t⟩)] ++ after

section Exchanges
variable {delay : SerialOp → ℕ} {data response : Bytes} {s u : ℕ}
  {es : List (Event ℕ SerialOp SerialOp.Ans)}

theorem timed_orRaise {α : Type} {r : Except BridgeError α} {a : α}
    (h : Timed delay (orRaise r : Serial α) s es (.pure a) u) : es = [] ∧ r = .ok a := by
  cases r with
  | error e =>
    obtain ⟨-, hthrow⟩ := timed_throw h
    cases hthrow
  | ok b =>
    obtain ⟨hnil, hpure⟩ := timed_pure h
    cases hpure
    exact ⟨hnil, rfl⟩

/-- An operation whose exception is raised. -/
theorem timed_ask {o : SerialOp} {α : Type} {f : o.Ans → Except BridgeError α} {a : α}
    (h : Timed delay (Prog.perform o >>= fun x => (orRaise (f x) : Serial α)) s es (.pure a) u) :
    ∃ x t, es = [⟨o, x, t⟩] ∧ f x = .ok a := by
  obtain ⟨es₁, x, v, es₂, hask, hrest, rfl⟩ := timed_bind_pure h
  obtain ⟨rfl, hx⟩ := timed_orRaise hrest
  rcases timed_perform hask with ⟨-, hcall⟩ | ⟨y, t, rfl, hpure⟩
  · cases hcall
  · cases hpure
    exact ⟨x, t, rfl, hx⟩

theorem timed_write (h : Timed delay (write data) s es (.pure ()) u) :
    ∃ t, es = [⟨.write data, .ok (), t⟩] := by
  obtain ⟨x, t, rfl, hx⟩ := timed_ask (o := .write data) (f := id) h
  exact ⟨t, by rw [show x = .ok () from hx]⟩

/-- What an exchange that answers has done. -/
theorem timed_exchange (h : Timed delay (exchange data) s es (.pure response) u) :
    ∃ t₁ t₂ t₃, es = [⟨.resetInputBuffer, .ok (), t₁⟩, ⟨.write data, .ok (), t₂⟩,
      ⟨.read 1024, .ok response, t₃⟩] := by
  obtain ⟨es₁, ⟨⟩, v, es₂, hreset, hrest, rfl⟩ := timed_bind_pure h
  obtain ⟨es₃, ⟨⟩, w, es₄, hwrite, hread, rfl⟩ := timed_bind_pure hrest
  obtain ⟨x, t₁, rfl, hx⟩ := timed_ask (o := .resetInputBuffer) (f := id) hreset
  obtain ⟨t₂, rfl⟩ := timed_write hwrite
  obtain ⟨y, t₃, rfl, hy⟩ := timed_ask (o := .read 1024) (f := id) hread
  refine ⟨t₁, t₂, t₃, ?_⟩
  rw [show x = .ok () from hx, show y = .ok response from hy]
  rfl

theorem timed_send (h : Timed delay (send data) s es (.pure response) u) :
    ∃ before t₁ t₂ t₃, es = before ++ [⟨.resetInputBuffer, .ok (), t₁⟩, ⟨.write data, .ok (), t₂⟩,
      ⟨.read 1024, .ok response, t₃⟩] := by
  obtain ⟨es₁, ⟨⟩, v, es₂, -, hrest, rfl⟩ := timed_bind_pure h
  rcases timed_handle_pure hrest with hrest | ⟨es₃, e, w, es₄, -, hretry, rfl⟩
  · obtain ⟨t₁, t₂, t₃, rfl⟩ := timed_exchange hrest
    exact ⟨es₁, t₁, t₂, t₃, rfl⟩
  · cases e with
    | other msg =>
      obtain ⟨-, hthrow⟩ := timed_throw hretry
      cases hthrow
    | serial msg =>
      obtain ⟨es₅, ⟨⟩, x, es₆, -, hagain, rfl⟩ := timed_bind_pure hretry
      obtain ⟨t₁, t₂, t₃, rfl⟩ := timed_exchange hagain
      exact ⟨es₁ ++ (es₃ ++ es₅), t₁, t₂, t₃, by simp only [List.append_assoc]⟩

theorem timed_writeOnly (h : Timed delay (writeOnly data) s es (.pure ()) u) :
    ∃ before t, es = before ++ [⟨.write data, .ok (), t⟩] := by
  obtain ⟨es₁, ⟨⟩, v, es₂, -, hrest, rfl⟩ := timed_bind_pure h
  rcases timed_handle_pure hrest with hrest | ⟨es₃, e, w, es₄, -, hretry, rfl⟩
  · obtain ⟨t, rfl⟩ := timed_write hrest
    exact ⟨es₁, t, rfl⟩
  · cases e with
    | other msg =>
      obtain ⟨-, hthrow⟩ := timed_throw hretry
      cases hthrow
    | serial msg =>
      obtain ⟨es₅, ⟨⟩, x, es₆, -, hagain, rfl⟩ := timed_bind_pure hretry
      obtain ⟨t, rfl⟩ := timed_write hagain
      exact ⟨es₁ ++ (es₃ ++ es₅), t, by simp only [List.append_assoc]⟩

/-- Nothing else is written. -/
def SerialOp.WritesOnly (data : Bytes) : SerialOp → Prop
  | .write d => d = data
  | _ => True

abbrev Writes {α : Type} (data : Bytes) (p : Serial α) : Prop :=
  Only (SerialOp.WritesOnly data) (fun _ => True) p

theorem writes_ask {o : SerialOp} {α : Type} {f : o.Ans → Except BridgeError α}
    (ho : o.WritesOnly data) :
    Writes data (Prog.perform o >>= fun x => (orRaise (f x) : Serial α)) := by
  refine (only_perform ho).bind fun x => ?_
  rcases f x with e | a
  · trivial
  · trivial

theorem writes_reconnect : Writes data reconnect :=
  writes_ask (o := .reconnect) (f := id) trivial

theorem writes_write : Writes data (write data) := writes_ask (o := .write data) (f := id) rfl

theorem writes_openPort : Writes data openPort := by
  refine (only_perform trivial).bind fun x => ?_
  cases x
  · exact writes_reconnect
  · trivial

theorem writes_exchange : Writes data (exchange data) := by
  refine Only.bind (writes_ask (o := .resetInputBuffer) (f := id) trivial) fun _ => ?_
  exact Only.bind writes_write fun _ => writes_ask (o := .read 1024) (f := id) trivial

theorem writes_code (c : PortCall) : Writes c.data c.code := by
  cases c with
  | send data =>
    refine Only.bind (Only.bind writes_openPort fun _ => ?_) fun _ => trivial
    refine Only.handle writes_exchange fun e _ => ?_
    cases e with
    | other msg => trivial
    | serial msg => exact writes_reconnect.bind fun _ => writes_exchange
  | writeOnly data =>
    refine Only.bind (Only.bind writes_openPort fun _ => ?_) fun _ => trivial
    refine Only.handle writes_write fun e _ => ?_
    cases e with
    | other msg => trivial
    | serial msg => exact writes_reconnect.bind fun _ => writes_write

end Exchanges

section Runs
variable {s t : Ports} {peripheral : String} {x : Label String PortCall}
  {xs : List (Label String PortCall × Ports)}
  {turns : List (Turns.Turn String PortCall ℕ SerialOp SerialOp.Ans BridgeError (Option Bytes))}

abbrev PortTurn := Turns.Turn String PortCall ℕ SerialOp SerialOp.Ans BridgeError (Option Bytes)

theorem undisturbed_of_stays (hx : Stays x) : Undisturbed (· = peripheral) s x := by
  cases x with
  | call k c => exact fun hk k' hk' hne => absurd (hk'.trans hk.symm) hne
  | leave i => exact absurd hx id
  | begin i | go i | finish i | tick => trivial

theorem taken_run (hs : s.Fresh) (h : Path PortsStep s xs) :
    ∃ turns, Taken PortCall.code SerialOp.delay (· = peripheral) (finish s xs) turns := by
  have hend := h.invariant (P := fun s => Lined (· = peripheral) s ∧
      ∃ turns, Taken PortCall.code SerialOp.delay (· = peripheral) s turns)
    (fun s x t hstep ⟨hlined, turns, hturns⟩ =>
      ⟨lined_step hstep.1 (undisturbed_of_stays hstep.2) hlined,
        taken_step hstep.1 hlined hturns⟩)
    ⟨hs.lined, [], hs.taken⟩
  exact hend.2

/-- The wire belongs to one call after the other. -/
theorem wire_eq (h : Taken PortCall.code SerialOp.delay (· = peripheral) s turns) :
    wire s peripheral = turns.flatMap fun n => n.events.map fun e => (n.call, e) := by
  unfold wire
  rw [h.log, List.map_flatMap]
  refine List.flatMap_congr fun n _ => ?_
  rw [Turns.Turn.entries, List.map_map]
  rfl

/-- A turn is a part of the wire. -/
theorem wire_split (h : Taken PortCall.code SerialOp.delay (· = peripheral) s turns) {n : PortTurn}
    (hn : n ∈ turns) : ∃ before after,
      wire s peripheral = before ++ n.events.map (fun e => (n.call, e)) ++ after := by
  obtain ⟨l₁, l₂, rfl⟩ := List.mem_iff_append.mp hn
  rw [wire_eq h, List.flatMap_append, List.flatMap_cons]
  exact ⟨_, _, (List.append_assoc ..).symm⟩

/-- The turn of a call that is over. -/
theorem turn_of_result (h : Taken PortCall.code SerialOp.delay (· = peripheral) s turns) {i : ℕ}
    {c : PortCall} {r : Except BridgeError (Option Bytes)} (hi : (i, r) ∈ s.results)
    (hcall : s.calls[i]? = some (peripheral, c)) :
    ∃ n ∈ turns, n.call = i ∧ n.cause = c ∧ outcome n.rest = some r := by
  obtain ⟨k, c', hknown, hturn⟩ := h.results _ hi
  rw [hcall] at hknown
  cases hknown
  obtain ⟨n, hn, rfl, hout⟩ := hturn rfl
  obtain ⟨hcall', -⟩ := h.known n hn
  rw [hcall] at hcall'
  cases hcall'
  exact ⟨n, hn, rfl, rfl, hout⟩

theorem rest_of_outcome {α : Type} {p : Serial α} {a : α} (h : outcome p = some (.ok a)) :
    p = .pure a := by
  cases p with
  | pure b =>
    cases h
    rfl
  | throw e => cases h
  | call o k => cases h

theorem exclusive_of_taken
    (h : Taken PortCall.code SerialOp.delay (· = peripheral) s turns) : Exclusive s peripheral := by
  refine ⟨?_, fun i data ans time hi => ?_, fun i data response hi hcall => ?_,
    fun i data hi hcall => ?_⟩
  · rw [wire_eq h, List.map_flatMap]
    refine List.pairwise_flatMap.mpr ⟨fun n _ => ?_,
      (List.pairwise_map.mp h.order).imp fun {m n} hmn a ha b hb => ?_⟩
    · rw [List.map_map]
      exact List.pairwise_map.mpr (List.pairwise_of_forall fun _ _ => Nat.le_refl _)
    · obtain ⟨e, he, rfl⟩ := List.mem_map.mp ha
      obtain ⟨e', he', rfl⟩ := List.mem_map.mp hb
      obtain ⟨_, _, rfl⟩ := List.mem_map.mp he
      obtain ⟨_, _, rfl⟩ := List.mem_map.mp he'
      exact Nat.le_of_lt hmn
  · rw [wire_eq h] at hi
    obtain ⟨n, hn, he⟩ := List.mem_flatMap.mp hi
    obtain ⟨e, he, heq⟩ := List.mem_map.mp he
    cases heq
    obtain ⟨hcall, hk⟩ := h.known n hn
    obtain ⟨hwrites, -⟩ := timed_only (h.timed n hn) (writes_code n.cause)
    exact ⟨n.cause, hk ▸ hcall, (hwrites _ he).symm⟩
  · obtain ⟨n, hn, rfl, hcause, hout⟩ := turn_of_result h hi hcall
    have htimed := h.timed n hn
    rw [hcause, rest_of_outcome hout] at htimed
    obtain ⟨es₁, r, v, es₂, hsend, hpure, hevents⟩ := timed_bind_pure htimed
    obtain ⟨rfl, hr⟩ := timed_pure hpure
    cases hr
    obtain ⟨before, t₁, t₂, t₃, rfl⟩ := timed_send hsend
    obtain ⟨pre, post, hwire⟩ := wire_split h hn
    refine ⟨pre ++ before.map fun e => (n.call, e), t₁, t₂, t₃, post, ?_⟩
    rw [hwire, hevents]
    simp only [List.map_append, List.map_cons, List.map_nil, List.append_assoc, List.append_nil]
  · obtain ⟨n, hn, rfl, hcause, hout⟩ := turn_of_result h hi hcall
    have htimed := h.timed n hn
    rw [hcause, rest_of_outcome hout] at htimed
    obtain ⟨es₁, r, v, es₂, hwrite, hpure, hevents⟩ := timed_bind_pure htimed
    obtain ⟨rfl, -⟩ := timed_pure hpure
    obtain ⟨before, t, rfl⟩ := timed_writeOnly hwrite
    obtain ⟨pre, post, hwire⟩ := wire_split h hn
    refine ⟨pre ++ before.map fun e => (n.call, e), t, post, ?_⟩
    rw [hwire, hevents]
    simp only [List.map_append, List.map_cons, List.map_nil, List.append_assoc, List.append_nil]

/-- However many callers share the peripherals and however their threads interleave, each of them
has the peripheral to itself. -/
theorem ports_exclusive (hs : s.Fresh) (h : Path PortsStep s xs) (peripheral : String) :
    Exclusive (finish s xs) peripheral := by
  obtain ⟨turns, hturns⟩ := taken_run hs h
  exact exclusive_of_taken hturns

end Runs

section Reader

/-- A second POS asks the reader while the frame of the first one is on its way. -/
theorem reader_path : ∃ xs, Path PortsStep { now := 0 } xs ∧
    (finish { now := 0 } xs).results = [(0, .ok (some [0x02]))] ∧
      (finish { now := 0 } xs).line "emoney_reader" = [1] := by
  refine ⟨[(_, _), (_, _), (_, _), (_, _), (_, _), (_, _), (_, _), (_, _)],
    ⟨⟨.call "emoney_reader" (.send [0x10]), trivial⟩,
      ⟨.begin (i := 0) rfl rfl rfl, trivial⟩,
      ⟨.go (i := 0) (o := .isOpen) true rfl rfl (Nat.le_refl 0), trivial⟩,
      ⟨.go (i := 0) (o := .resetInputBuffer) (.ok ()) rfl rfl (Nat.le_refl 0), trivial⟩,
      ⟨.call "emoney_reader" (.send [0x11]), trivial⟩,
      ⟨.go (i := 0) (o := .write [0x10]) (.ok ()) rfl rfl (Nat.le_refl 0), trivial⟩,
      ⟨.go (i := 0) (o := .read 1024) (.ok [0x02]) rfl rfl (Nat.le_refl 0), trivial⟩,
      ⟨.finish (i := 0) rfl rfl rfl, trivial⟩, trivial⟩, ?_, ?_⟩
  · rfl
  · rfl

theorem ports_exclusive_reader : ∃ xs : List (Label String PortCall × Ports),
    Exclusive (finish { now := 0 } xs) "emoney_reader" ∧
      (finish { now := 0 } xs).results = [(0, .ok (some [0x02]))] := by
  obtain ⟨xs, hpath, hresults, -⟩ := reader_path
  have hfresh : Sys.Fresh ({ now := 0 } : Ports) := ⟨fun _ => rfl, fun _ => rfl, rfl, rfl⟩
  exact ⟨xs, ports_exclusive hfresh hpath _, hresults⟩

end Reader
end ParkIt.Booth
