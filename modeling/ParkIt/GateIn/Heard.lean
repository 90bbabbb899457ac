import ParkIt.GateIn.Listener
import ParkIt.Sockets.Frames

/-! The consumer of the API hears what the daemon of the gate has published. -/
namespace ParkIt.GateIn.Listener

open Json.Value Sockets

mutual

/-- A number is kept as it is written. -/
def jsonOf : Json.Value → Json
  | .null => .null
  | .bool b => .bool b
  | .int n => .number (String.ofList (Json.writeInt n))
  | .str s => .string s
  | .arr xs => .array (jsonItems xs)
  | .obj o => .object (jsonMembers o)

def jsonItems : List Json.Value → List Json
  | [] => []
  | x :: xs => jsonOf x :: jsonItems xs

def jsonMember : String × Json.Value → String × Json
  | (k, v) => (k, jsonOf v)

def jsonMembers : List (String × Json.Value) → List (String × Json)
  | [] => []
  | p :: o => jsonMember p :: jsonMembers o

end

def jsonLoads (text : String) : Loaded :=
  match Json.loads text with
  | some v => .value (jsonOf v)
  | none => .decodeError

/-- What a publication comes to in the consumer, and what happens around its handler. -/
structure Heard where
  publication : Publication
  logged : Bool := true
  closed : Bool := true

def Heard.arrival (h : Heard) : Arrival :=
  ⟨"pmessage", frame h.publication.live, h.logged, h.closed⟩

/-- The handler that the event is meant for. -/
def Heard.meant (h : Heard) : Option Received :=
  match h.publication.event.kind with
  | .inr .ticketButtonPressed => some (.ticket (.string h.publication.event.gateId))
  | .inr (.rfidCardRead cardNumber _) =>
    some (.card (.string h.publication.event.gateId) (.string cardNumber))
  | _ => none

/-- The log line of an event is written, and the session of its handler closes. -/
def Heard.Quiet (h : Heard) : Prop :=
  (h.publication.event.eventType = "vehicle_detected" ∨
      h.publication.event.eventType = "help_button_pressed" → h.logged = true) ∧
    (h.publication.event.eventType = "ticket_button_pressed" ∨
      h.publication.event.eventType = "rfid_card_read" → h.logged = true ∧ h.closed = true)

section Fields
variable {o : List (String × Json.Value)} {k : String} {default : Json}

theorem lookup_members (o : List (String × Json.Value)) (k : String) :
    (jsonMembers o).lookup k = (o.lookup k).map jsonOf ∧
      (jsonMembers o).map (·.1) = o.map (·.1) := by
  induction o with
  | nil => simp [jsonMembers]
  | cons p o ih =>
    obtain ⟨k', v⟩ := p
    constructor
    · simp only [jsonMembers, jsonMember, List.lookup_cons, ih.1]
      split <;> rfl
    · simp only [jsonMembers, jsonMember, List.map_cons, ih.2]

theorem lookup_reverse {o : List (String × Json)} (h : (o.map (·.1)).Nodup) :
    o.reverse.lookup k = o.lookup k := by
  induction o with
  | nil => rfl
  | cons p o ih =>
    obtain ⟨hnew, hrest⟩ := List.nodup_cons.mp h
    rw [List.reverse_cons, List.lookup_append, ih hrest, List.lookup_cons, List.lookup_cons]
    cases hk : k == p.1 with
    | false => simp
    | true =>
      have hnone : o.lookup k = none := by
        rw [List.lookup_eq_none_iff]
        intro q hq
        refine bne_iff_ne.mpr ?_
        rintro rfl
        exact hnew (List.mem_map.mpr ⟨q, hq, eq_of_beq hk⟩)
      rw [hnone]
      rfl

/-- A payload without repeated keys has its fields as they are. -/
theorem field_members (h : (o.map (·.1)).Nodup) :
    field (jsonMembers o) k default = ((o.lookup k).map jsonOf).getD default := by
  obtain ⟨hlookup, hkeys⟩ := lookup_members o k
  rw [field, lookup_reverse (hkeys ▸ h), hlookup]

end Fields

section Publications
variable (h : Heard)

theorem jsonLoads_arrival :
    jsonLoads h.arrival.data = .value (.object (jsonMembers h.publication.fields)) := by
  have hloads : Json.loads h.arrival.data = some (.obj h.publication.fields) :=
    loads_live h.publication
  rw [jsonLoads, hloads]
  simp only [jsonOf]

theorem field_type : field (jsonMembers h.publication.fields) "event_type" .null =
    .string h.publication.event.eventType := by
  cases plain_publication h.publication with
  | obj hkeys _ =>
    rw [field_members hkeys]
    rfl

theorem field_gate (default : Json) : field (jsonMembers h.publication.fields) "gate_id" default =
    .string h.publication.event.gateId := by
  cases plain_publication h.publication with
  | obj hkeys _ =>
    rw [field_members hkeys]
    rfl

theorem field_card {cardNumber channel : String} (default : Json)
    (hkind : h.publication.event.kind = .inr (.rfidCardRead cardNumber channel)) :
    field (jsonMembers h.publication.fields) "card_number" default = .string cardNumber := by
  cases plain_publication h.publication with
  | obj hkeys _ =>
    rw [field_members hkeys]
    simp only [Publication.fields, Event.fields, Event.own, hkind]
    rfl

/-- The loop enters the handler that the event is meant for. -/
theorem received_arrival : received jsonLoads h.arrival = h.meant := by
  have htype : h.arrival.type = "pmessage" := rfl
  unfold received
  rw [if_pos htype, jsonLoads_arrival]
  simp only [eventOf, field_type, field_gate]
  unfold Heard.meant Event.eventType
  cases hkind : h.publication.event.kind with
  | inl controllerOk => rfl
  | inr event =>
    cases event with
    | rfidCardRead cardNumber channel =>
      simp only [field_card h _ hkind]
      rfl
    | _ => rfl

theorem harmless_arrival : Harmless jsonLoads h.arrival ↔ h.Quiet := by
  have htype : h.arrival.type = "pmessage" := rfl
  unfold Harmless Heard.Quiet
  simp only [htype, true_imp_iff, jsonLoads_arrival, field_type, Json.isText, Json.isNull,
    decide_eq_true_eq, Bool.false_eq_true, false_or]
  rfl

/-- Whatever the strings of the events are, whichever of them have an id, and whatever the handlers
do: the loop goes on over the published texts and enters the handler of each ticket and each card,
with the gate and the number as they were published, exactly if no event fails outside of its
handler. -/
theorem hears_what_is_published {σ : Type} (bodies : Bodies)
    (answers : (o : LaneOp) → σ → o.Ans × σ) (s : σ) (hs : List Heard) :
    (∃ s', (turns jsonLoads bodies (hs.map Heard.arrival)).run (exec answers) (s, []) =
        (.ok (), s', hs.filterMap Heard.meant)) ↔
      ∀ h ∈ hs, h.Quiet := by
  have hmeant : (hs.map Heard.arrival).filterMap (received jsonLoads) =
      hs.filterMap Heard.meant := by
    rw [List.filterMap_map]
    exact List.filterMap_congr fun h _ => received_arrival h
  have hquiet : (∀ m ∈ hs.map Heard.arrival, Harmless jsonLoads m) ↔ ∀ h ∈ hs, h.Quiet := by
    rw [List.forall_mem_map]
    exact forall₂_congr fun h _ => harmless_arrival h
  have hturns : Turns (∀ m ∈ hs.map Heard.arrival, Harmless jsonLoads m)
      ((hs.map Heard.arrival).filterMap (received jsonLoads))
      (turns jsonLoads bodies (hs.map Heard.arrival)) answers s [] := turns_turns _
  obtain ⟨a, s', log, hrun, hok, herr⟩ := hturns
  rw [hquiet] at hok herr
  rw [hmeant] at hok
  constructor
  · rintro ⟨s'', hall⟩
    by_contra hloud
    obtain ⟨e, rfl⟩ := herr hloud
    cases hrun.symm.trans hall
  · intro h
    obtain ⟨rfl, rfl⟩ := hok h
    exact ⟨s', hrun⟩

end Publications
end ParkIt.GateIn.Listener
