import ParkIt.GateIn.Messages
import ParkIt.Lib.Json.RoundTrip
import ParkIt.Replay
import ParkIt.Sockets.Routing

/-! What the daemon of a gate publishes, letter by letter, and what the socket sends of it. -/
namespace ParkIt.Sockets

open GateIn Json Replay

/-- An event of the daemon; the time is as `isoformat` has it. -/
structure Event where
  gateId : String
  timestamp : String
  /-- A heartbeat says whether the controller answers. -/
  kind : Bool ⊕ GateIn.GateEvent

namespace Event

def eventType (e : Event) : String :=
  match e.kind with
  | .inl _ => "heartbeat"
  | .inr (.vehicleDetected _) => "vehicle_detected"
  | .inr .ticketButtonPressed => "ticket_button_pressed"
  | .inr (.rfidCardRead _ _) => "rfid_card_read"
  | .inr .helpButtonPressed => "help_button_pressed"
  | .inr .gateOpened => "gate_opened"
  | .inr .gateOpenFailed => "gate_open_failed"
  | .inr .vehiclePassed => "vehicle_passed"
  | .inr .printFailedAlert => "print_failed_alert"
  | .inr (.playAudio _) => "play_audio"

/-- The fields after those of `BaseEvent`. -/
def own (e : Event) : List (String × Value) :=
  match e.kind with
  | .inl controllerOk => [("controller_ok", .bool controllerOk)]
  | .inr (.vehicleDetected sensor) => [("sensor", .str sensor)]
  | .inr (.rfidCardRead cardNumber channel) =>
    [("card_number", .str cardNumber), ("channel", .str channel)]
  | .inr (.playAudio track) => [("track", .int track)]
  | .inr _ => []

def fields (e : Event) : List (String × Value) :=
  ("event_type", .str e.eventType) :: ("gate_id", .str e.gateId) ::
    ("timestamp", .str e.timestamp) :: e.own

def modelDumpJson (e : Event) : String := dumps .compact (.obj e.fields)

end Event

/-- The id of an entry as Redis writes it. -/
def idText (id : EventId) : String := toString id.1 ++ "-" ++ toString id.2

/-- `json.loads`, the key `_event_id`, `json.dumps`. -/
def stamp (text id : String) : Option String :=
  match loads text with
  | some (.obj o) => some (dumps .dumps (.obj (Json.setKey o "_event_id" (.str id))))
  | _ => none

/-- A message as it goes over the socket. -/
def frame : Message → String
  | .replayed id text => (stamp text (idText id)).getD ""
  | .live id text => payload stamp text (id.map idText)
  | .complete count => dumps .dumps (.obj [("type", .str "replay_complete"), ("count", .int count)])

def ackFrame (data : String) : String :=
  dumps .dumps (.obj [("type", .str "ack"), ("data", .str data)])

/-- A publication: the event, and the id that `XADD` gives it with the number of old entries that
are trimmed, unless `XADD` fails. -/
structure Publication where
  event : Event
  added : Option (EventId × ℕ)

/-- The event log of a gate, and what has been published under its channel. -/
structure Channel where
  log : List Entry := []
  live : List Message := []

def publishEvent (c : Channel) (p : Publication) : Channel :=
  let text := p.event.modelDumpJson
  match p.added with
  | none => { c with live := c.live ++ [.live none text] }
  | some (id, trimmed) =>
    { log := (c.log ++ [entry id text]).drop trimmed, live := c.live ++ [.live (some id) text] }

def published (ps : List Publication) : Channel := ps.foldl publishEvent {}

/-- What is read of a publication: its fields, and the id of its entry. -/
def Publication.fields (p : Publication) : List (String × Value) :=
  p.event.fields ++ (p.added.map fun a => ("_event_id", Value.str (idText a.1))).toList

def Publication.live (p : Publication) : Message :=
  .live (p.added.map (·.1)) p.event.modelDumpJson

section Fields
variable (e : Event)

theorem fields_nodup : (e.fields.map (·.1)).Nodup := by
  obtain ⟨gateId, timestamp, controllerOk | event⟩ := e
  · exact (by decide : ["event_type", "gate_id", "timestamp", "controller_ok"].Nodup)
  · cases event with
    | vehicleDetected sensor =>
      exact (by decide : ["event_type", "gate_id", "timestamp", "sensor"].Nodup)
    | rfidCardRead cardNumber channel =>
      exact (by decide : ["event_type", "gate_id", "timestamp", "card_number", "channel"].Nodup)
    | playAudio track => exact (by decide : ["event_type", "gate_id", "timestamp", "track"].Nodup)
    | _ => exact (by decide : ["event_type", "gate_id", "timestamp"].Nodup)

/-- The keys that the socket adds are none of an event's own. -/
theorem not_mem_fields {k : String} (h : k = "_event_id" ∨ k = "type") :
    k ∉ e.fields.map (·.1) := by
  have hown : ∀ k' ∈ e.fields.map (·.1), k' ∈ ["event_type", "gate_id", "timestamp",
      "controller_ok", "sensor", "card_number", "channel", "track"] := by
    obtain ⟨gateId, timestamp, controllerOk | event⟩ := e
    · intro k' hk
      simp only [Event.fields, Event.own, List.map_cons, List.map_nil] at hk
      revert k'
      decide
    · cases event <;> intro k' hk <;>
        simp only [Event.fields, Event.own, List.map_cons, List.map_nil] at hk <;>
        revert k' <;> decide
  intro hk
  have hmem := hown k hk
  rcases h with rfl | rfl
  · exact absurd hmem (by decide)
  · exact absurd hmem (by decide)

theorem lookup_none {o : List (String × Value)} {k : String} (h : k ∉ o.map (·.1)) :
    o.lookup k = none := by
  rw [List.lookup_eq_none_iff]
  intro p hp
  refine bne_iff_ne.mpr ?_
  rintro rfl
  exact h (List.mem_map_of_mem hp)

theorem plain_fields : (Value.obj e.fields).Plain := by
  refine .obj (fields_nodup e) fun p hp => ?_
  have hown : ∀ p ∈ e.own, p.2.Plain := by
    obtain ⟨gateId, timestamp, controllerOk | event⟩ := e
    · simp [Event.own, Value.Plain.bool]
    · cases event <;> simp [Event.own, Value.Plain.str, Value.Plain.int]
  simp only [Event.fields, List.mem_cons] at hp
  obtain rfl | rfl | rfl | hp := hp
  · exact .str _
  · exact .str _
  · exact .str _
  · exact hown p hp

theorem loads_modelDumpJson : loads e.modelDumpJson = some (.obj e.fields) :=
  loads_dumps (plain_fields e)

theorem stamp_modelDumpJson (id : String) :
    stamp e.modelDumpJson id =
      some (dumps .dumps (.obj (e.fields ++ [("_event_id", .str id)]))) := by
  rw [stamp, loads_modelDumpJson]
  exact congrArg (fun o => some (dumps .dumps (.obj o))) (setKey_new (not_mem_fields e (.inl rfl)))

end Fields

section Runs
variable (p : Publication) (ps : List Publication)

theorem idText_ne (id : EventId) : idText id ≠ "" := by
  intro h
  have hchars := congrArg String.toList h
  simp [idText, String.toList_append] at hchars

theorem plain_publication : (Value.obj p.fields).Plain := by
  obtain ⟨e, _ | ⟨id, trimmed⟩⟩ := p
  · have hfields : Publication.fields ⟨e, none⟩ = e.fields := by simp [Publication.fields]
    rw [hfields]
    exact plain_fields e
  · cases plain_fields e with
    | obj hkeys hvalues =>
      refine .obj ?_ fun q hq => ?_
      · have hnew := not_mem_fields e (.inl rfl)
        simp only [Publication.fields, Option.map_some, Option.toList_some, List.map_append,
          List.map_cons, List.map_nil]
        refine List.nodup_append.mpr ⟨hkeys, List.nodup_singleton _, ?_⟩
        rintro k hk _ hid rfl
        exact hnew (List.mem_singleton.mp hid ▸ hk)
      · obtain hq | hq := List.mem_append.mp hq
        · exact hvalues q hq
        · obtain rfl := List.mem_singleton.mp hq
          exact .str _

/-- What is published is read as the fields of the event and the id of its entry. -/
theorem loads_live : loads (frame p.live) = some (.obj p.fields) := by
  obtain ⟨e, _ | ⟨id, trimmed⟩⟩ := p
  · have hplain := loads_modelDumpJson e
    simpa [frame, Publication.live, payload, Publication.fields] using hplain
  · have hframe : frame (Publication.live ⟨e, some (id, trimmed)⟩) =
        dumps .dumps (.obj (Publication.fields ⟨e, some (id, trimmed)⟩)) := by
      have hid : (some (idText id)).filter (· ≠ "") = some (idText id) :=
        Option.filter_eq_some_iff.mpr ⟨rfl, decide_eq_true (idText_ne id)⟩
      simp only [frame, Publication.live, Option.map_some, payload, hid, stamp_modelDumpJson,
        Option.getD_some]
      rfl
    rw [hframe]
    exact loads_dumps (plain_publication _)

/-- An entry is replayed with the text that was published live. -/
theorem frame_replayed {e : Event} {id : EventId} :
    frame (.replayed id e.modelDumpJson) = frame (.live (some id) e.modelDumpJson) := by
  have hid : (some (idText id)).filter (· ≠ "") = some (idText id) :=
    Option.filter_eq_some_iff.mpr ⟨rfl, decide_eq_true (idText_ne id)⟩
  simp only [frame, Option.map_some, payload, hid, stamp_modelDumpJson, Option.getD_some]

theorem published_append : published (ps ++ [p]) = publishEvent (published ps) p := by
  rw [published, List.foldl_append]
  rfl

theorem published_live : (published ps).live = ps.map Publication.live := by
  induction ps using List.reverseRecOn with
  | nil => rfl
  | append_singleton ps p ih =>
    obtain ⟨e, _ | ⟨id, trimmed⟩⟩ := p
    all_goals
      rw [published_append, List.map_append, ← ih]
      rfl

/-- The entry of a publication. -/
def Publication.entry (p : Publication) : Option Entry :=
  p.added.map fun a => Replay.entry a.1 p.event.modelDumpJson

/-- The log is what is left of the entries. -/
theorem published_log : ∃ k, (published ps).log = (ps.filterMap Publication.entry).drop k := by
  induction ps using List.reverseRecOn with
  | nil => exact ⟨0, rfl⟩
  | append_singleton ps p ih =>
    obtain ⟨k, hlog⟩ := ih
    obtain ⟨e, _ | ⟨id, trimmed⟩⟩ := p
    · have hnone : [(⟨e, none⟩ : Publication)].filterMap Publication.entry = [] := rfl
      refine ⟨k, ?_⟩
      rw [published_append, List.filterMap_append, hnone, List.append_nil]
      exact hlog
    · rw [published_append, List.filterMap_append]
      have hone : [(⟨e, some (id, trimmed)⟩ : Publication)].filterMap Publication.entry =
          [Replay.entry id e.modelDumpJson] := rfl
      rw [hone]
      by_cases hk : k ≤ (ps.filterMap Publication.entry).length
      · refine ⟨k + trimmed, ?_⟩
        simp only [publishEvent, hlog]
        rw [← List.drop_append_of_le_length hk, List.drop_drop]
      · refine ⟨(ps.filterMap Publication.entry).length + trimmed, ?_⟩
        have hnil : (ps.filterMap Publication.entry).drop k = [] :=
          List.drop_eq_nil_of_le (Nat.le_of_not_le hk)
        simp only [publishEvent, hlog, hnil, List.nil_append]
        rw [← List.drop_drop, List.drop_left]

/-- The entries that are buffered. -/
theorem entry_of_mem_log {x : Entry} (h : x ∈ (published ps).log) :
    ∃ e : Event, x = Replay.entry x.id e.modelDumpJson := by
  obtain ⟨k, hlog⟩ := published_log ps
  rw [hlog] at h
  obtain ⟨p, -, hp⟩ := List.mem_filterMap.mp (List.mem_of_mem_drop h)
  obtain ⟨a, -, rfl⟩ := Option.map_eq_some_iff.mp hp
  exact ⟨p.event, rfl⟩

/-- What the replay sends of an entry. -/
def entryFrame (x : Entry) : String := ((Entry.replay x).map frame).getD ""

theorem entryFrame_entry (e : Event) (id : EventId) :
    entryFrame (Replay.entry id e.modelDumpJson) = frame (.live (some id) e.modelDumpJson) := by
  simp only [entryFrame, Replay.entry, Entry.replay, Option.map_some, Option.getD_some]
  exact frame_replayed

theorem replay_entries {xs : List Entry}
    (h : ∀ x ∈ xs, ∃ e : Event, x = Replay.entry x.id e.modelDumpJson) :
    (xs.filterMap Entry.replay).map frame = xs.map entryFrame := by
  induction xs with
  | nil => rfl
  | cons x xs ih =>
    obtain ⟨e, he⟩ := h x List.mem_cons_self
    have hreplay : Entry.replay x = some (.replayed x.id e.modelDumpJson) := by
      rw [he]
      rfl
    have hone : entryFrame x = frame (.replayed x.id e.modelDumpJson) := by
      simp only [entryFrame, hreplay, Option.map_some, Option.getD_some]
    rw [List.filterMap_cons, hreplay, List.map_cons, List.map_cons, hone,
      ih fun y hy => h y (List.mem_cons_of_mem x hy)]

theorem entryFrame_entries :
    (ps.filterMap Publication.entry).map entryFrame =
      (ps.filter (·.added.isSome)).map fun p => frame p.live := by
  induction ps with
  | nil => rfl
  | cons p ps ih =>
    obtain ⟨e, _ | ⟨id, trimmed⟩⟩ := p
    · exact ih
    · have hlive : Publication.live ⟨e, some (id, trimmed)⟩ = .live (some id) e.modelDumpJson := rfl
      have hhead : List.filterMap Publication.entry (⟨e, some (id, trimmed)⟩ :: ps) =
          Replay.entry id e.modelDumpJson :: ps.filterMap Publication.entry := rfl
      have hfilter : (⟨e, some (id, trimmed)⟩ :: ps : List Publication).filter (·.added.isSome) =
          ⟨e, some (id, trimmed)⟩ :: ps.filter (·.added.isSome) := rfl
      rw [hhead, hfilter, List.map_cons, List.map_cons, hlive, entryFrame_entry, ih]

end Runs

/-- What a replay of everything in the log sends. -/
def replayFrames (c : Channel) : List String := (c.log.filterMap Entry.replay).map frame

end ParkIt.Sockets
