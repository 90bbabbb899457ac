import ParkIt.Sockets.Frames

/-! A client's texts and the answers to them, among the events of its gate. -/
namespace ParkIt.Sockets

open Json Replay

/-- What is forwarded before the socket or Redis is turned to, and whether that works. -/
structure Instant where
  forwarded : List Publication := []
  ok : Bool := true

def Instant.turn (x : Instant) : Turn :=
  { live := x.forwarded.map fun p => (p.added.map (·.1), p.event.modelDumpJson), ok := x.ok }

/-- A text of the client: what has been published when a replay reads the log, and what happens
while the text is answered. -/
structure Visit where
  data : String
  before : List Publication := []
  instants : List Instant := []

namespace Visit

def replay (v : Visit) (since : Option EventId) : List String :=
  (sentBy (published v.before).log since (v.instants.map Instant.turn)).map frame

/-- The socket takes the answer. -/
def ok (v : Visit) : Bool := (v.instants.headD {}).ok

def forwarded (v : Visit) : List String :=
  (v.instants.headD {}).turn.forwarded.map frame

end Visit

section Code
variable (asked : String → Option (Option EventId))

/-- The loop of the endpoint over the texts of an authenticated client. What a text asks for, if it
asks for a replay, is read by `asked`. -/
def serve : List Visit → List String
  | [] => []
  | v :: vs =>
    match asked v.data with
    | some since => v.replay since ++ serve vs
    | none => v.forwarded ++ if v.ok then ackFrame v.data :: serve vs else []

/-- The texts that are answered by an echo. -/
def echoed (vs : List Visit) : List String :=
  ((vs.filter fun v => asked v.data = none).takeWhile (·.ok)).map (·.data)

end Code

/-- What the client takes for the echo of its text. -/
def ackOf (text : String) : Option String :=
  match loads text with
  | some (.obj o) =>
    match o.lookup "type", o.lookup "data" with
    | some (.str "ack"), some (.str data) => some data
    | _, _ => none
  | _ => none

section Frames

theorem loads_ackFrame (data : String) :
    loads (ackFrame data) = some (.obj [("type", .str "ack"), ("data", .str data)]) := by
  refine loads_dumps (.obj ((by decide : ["type", "data"].Nodup)) ?_)
  simp [Value.Plain.str]

theorem ackOf_ackFrame (data : String) : ackOf (ackFrame data) = some data := by
  rw [ackOf, loads_ackFrame]
  rfl

/-- A message about an event, or the end of a replay. -/
def Genuine (m : Message) : Prop :=
  (∃ p : Publication, m = p.live ∨ ∃ id, m = .replayed id p.event.modelDumpJson) ∨
    ∃ count, m = .complete count

/-- The text of a genuine message is an object, and no echo. -/
theorem ackOf_frame {m : Message} (h : Genuine m) :
    (∃ o, loads (frame m) = some (.obj o)) ∧ ackOf (frame m) = none := by
  have hlive : ∀ p : Publication, (∃ o, loads (frame p.live) = some (.obj o)) ∧
      ackOf (frame p.live) = none := by
    intro p
    have hloads := loads_live p
    have htype : p.fields.lookup "type" = none := by
      refine lookup_none fun hmem => ?_
      simp only [Publication.fields, List.map_append, List.mem_append] at hmem
      obtain hmem | hmem := hmem
      · exact not_mem_fields p.event (.inr rfl) hmem
      · obtain ⟨e, _ | a⟩ := p
        · cases hmem
        · simp at hmem
    refine ⟨⟨_, hloads⟩, ?_⟩
    rw [ackOf, hloads]
    simp only [htype]
  obtain ⟨p, rfl | ⟨id, rfl⟩⟩ | ⟨count, rfl⟩ := h
  · exact hlive p
  · rw [frame_replayed]
    exact hlive ⟨p.event, some (id, 0)⟩
  · have hloads : loads (frame (.complete count)) =
        some (.obj [("type", .str "replay_complete"), ("count", .int count)]) := by
      refine loads_dumps (.obj ((by decide : ["type", "count"].Nodup)) ?_)
      simp [Value.Plain.str, Value.Plain.int]
    refine ⟨⟨_, hloads⟩, ?_⟩
    rw [ackOf, hloads]
    rfl

end Frames

section Replays
open Effects

/-- The log holds events, events are forwarded, and what has been sent is genuine. -/
structure SoundSite (s : Site) : Prop where
  log : ∀ x ∈ s.log, ∃ e : Event, x = entry x.id e.modelDumpJson
  turns : ∀ t ∈ s.turns, ∀ m ∈ t.forwarded, Genuine m
  sent : ∀ m ∈ s.sent, Genuine m

variable {s : Site} {m : Message}

theorem sound_forward (h : SoundSite s) : SoundSite s.forward := by
  refine ⟨h.log, fun t ht => h.turns t (List.mem_of_mem_tail ht), fun m hm => ?_⟩
  obtain hm | hm := List.mem_append.mp hm
  · exact h.sent m hm
  · cases hturns : s.turns with
    | nil =>
      rw [hturns] at hm
      cases hm
    | cons t ts =>
      rw [hturns] at hm
      exact h.turns t (hturns ▸ List.mem_cons_self) m hm

theorem sound_send (h : SoundSite s) (hm : Genuine m) :
    Prog.Ensures exec (sendText m) s (fun _ s' => SoundSite s' ∧ s'.log = s.log)
      fun _ s' => SoundSite s' := by
  have hforward := sound_forward h
  have hsend : (Prog.perform (ReplayOp.send m) : Replay.Work Bool).run exec s = exec (.send m) s :=
    Prog.run_perform exec s _
  unfold Prog.Ensures sendText
  cases hok : (s.turns.headD {}).ok with
  | false =>
    have hfail : exec (.send m) s = (.ok false, s.forward) := by simp only [exec, hok]; rfl
    rw [Prog.run_bind_ok _ _ (hsend.trans hfail)]
    exact hforward
  | true =>
    have hback : exec (.send m) s =
        (.ok true, { s.forward with sent := s.forward.sent ++ [m] }) := by
      simp only [exec, hok]; rfl
    rw [Prog.run_bind_ok _ _ (hsend.trans hback)]
    refine ⟨⟨hforward.log, hforward.turns, fun m' hm' => ?_⟩, rfl⟩
    obtain hm' | hm' := List.mem_append.mp hm'
    · exact hforward.sent m' hm'
    · exact List.mem_singleton.mp hm' ▸ hm

theorem sound_replayEntries {xs : List Entry} (h : SoundSite s)
    (hxs : ∀ x ∈ xs, ∃ e : Event, x = entry x.id e.modelDumpJson) :
    Prog.Ensures exec (replayEntries xs) s (fun _ s' => SoundSite s')
      fun _ s' => SoundSite s' := by
  induction xs generalizing s with
  | nil => exact h
  | cons x xs ih =>
    obtain ⟨e, he⟩ := hxs x List.mem_cons_self
    have hone : replayEntry x = sendText (.replayed x.id e.modelDumpJson) := by
      rw [he]
      rfl
    have hgenuine : Genuine (.replayed x.id e.modelDumpJson) :=
      .inl ⟨⟨e, none⟩, .inr ⟨x.id, rfl⟩⟩
    rw [replayEntries, hone]
    refine (sound_send h hgenuine).bind (fun _ _ hs => hs) fun _ s' hs' => ?_
    exact ih hs'.1 fun y hy => hxs y (List.mem_cons_of_mem x hy)

theorem sound_replay (h : SoundSite s) (since : Option EventId) :
    Prog.Ensures exec (replay since) s (fun _ s' => SoundSite s') fun _ s' => SoundSite s' := by
  have hforward := sound_forward h
  have hrange : Prog.Ensures exec
      (Prog.perform (ReplayOp.xrange since replayCount) : Replay.Work (Option (List Entry))) s
      (fun found s' => SoundSite s' ∧ ∀ xs, found = some xs → ∀ x ∈ xs, x ∈ s.log)
      fun _ s' => SoundSite s' := by
    unfold Prog.Ensures
    rw [Prog.run_perform]
    refine ⟨hforward, fun xs hxs x hx => ?_⟩
    obtain ⟨-, htaken⟩ := Option.ite_none_right_eq_some.mp hxs
    rw [← Option.some.inj htaken] at hx
    exact List.mem_of_mem_filter (List.mem_of_mem_take hx)
  unfold replay
  refine hrange.bind (fun _ _ hs => hs) fun found s' hfound => ?_
  cases found with
  | none => exact hfound.1
  | some xs =>
    have hxs : ∀ x ∈ xs, ∃ e : Event, x = entry x.id e.modelDumpJson :=
      fun x hx => h.log x (hfound.2 xs rfl x hx)
    refine (sound_replayEntries hfound.1 hxs).bind (fun _ _ hs => hs) fun _ s'' hs'' => ?_
    exact (sound_send hs'' (.inr ⟨xs.length, rfl⟩)).mono (fun _ _ hs => hs.1) fun _ _ hs => hs

end Replays

section Sessions
variable {asked : String → Option (Option EventId)} {v : Visit}

theorem genuine_instant (x : Instant) : ∀ m ∈ x.turn.forwarded, Genuine m := by
  intro m hm
  simp only [Instant.turn, Turn.forwarded, List.map_map] at hm
  obtain ⟨p, -, rfl⟩ := List.mem_map.mp hm
  exact .inl ⟨p, .inl rfl⟩

/-- Whatever is buffered, forwarded and lost meanwhile. -/
theorem genuine_replay (v : Visit) (since : Option EventId) :
    ∀ m ∈ sentBy (published v.before).log since (v.instants.map Instant.turn), Genuine m := by
  have hstart : SoundSite
      { log := (published v.before).log, turns := v.instants.map Instant.turn, sent := [] } := by
    refine ⟨fun x hx => entry_of_mem_log v.before hx, fun t ht => ?_, by simp⟩
    obtain ⟨x, -, rfl⟩ := List.mem_map.mp ht
    exact genuine_instant x
  have hreplay := sound_replay hstart since
  unfold sentBy replayEvents
  rw [Effects.Prog.run_handle _ _ _ fun o s e s' h => by cases o <;> cases h]
  unfold Effects.Prog.Ensures at hreplay
  revert hreplay
  generalize (replay since).run exec _ = out
  intro hreplay
  obtain ⟨_ | _, s'⟩ := out
  · exact hreplay.sent
  · exact hreplay.sent

theorem no_acks {ms : List Message} (h : ∀ m ∈ ms, Genuine m) :
    (ms.map frame).filterMap ackOf = [] := by
  rw [List.filterMap_eq_nil_iff]
  intro text htext
  obtain ⟨m, hm, rfl⟩ := List.mem_map.mp htext
  exact (ackOf_frame (h m hm)).2

theorem genuine_forwarded (v : Visit) : ∀ m ∈ (v.instants.headD {}).turn.forwarded, Genuine m :=
  genuine_instant _

end Sessions
end ParkIt.Sockets
