import ParkIt.GateIn.Moves
import ParkIt.Lib.Answers

/-! Which commands and events the handlers of the lane issue. -/
namespace ParkIt.GateIn

open Effects Answers

/-- Neither a command to the controller nor an event. -/
def Plain : LaneOp → Prop
  | .write _ | .xadd _ | .publish _ _ _ => False
  | _ => True

abbrev Issues (ok : LaneOp → Prop) {α : Type} (p : Work α) : Prop := Only ok (fun _ => True) p

/-- The event may be logged and published. -/
def Takes (ok : LaneOp → Prop) (e : GateEvent) : Prop :=
  ok (.xadd e) ∧ ∀ i n, ok (.publish e i n)

section Issues
variable {ok : LaneOp → Prop} (hplain : ∀ o, Plain o → ok o) (cfg : Config)
include hplain

/-- The rule for a plain operation. -/
theorem issues_then {α : Type} {o : LaneOp} {f : o.Ans → Work α} (ho : Plain o)
    (hf : ∀ a, Issues ok (f a)) : Issues ok (ask o >>= f) := (only_perform (hplain o ho)).bind hf

theorem issues_sendControllerCommand {c : ControllerCommand} (h : ok (.write c)) :
    Issues ok (sendControllerCommand c) := by
  refine (only_send c).mono (fun o ho => ?_) fun _ h => h.elim
  cases o with
  | write c' =>
    obtain rfl : c' = c := ho
    exact h
  | connected | loopTime | breaker | setBreaker _ | close => exact hplain _ trivial
  | _ => exact ho.elim

theorem issues_send {c : ControllerCommand} (h : ok (.write c)) : Issues ok (send c) :=
  (issues_sendControllerCommand hplain h).bind fun _ => only_pure

theorem issues_transition (s : GateState) : Issues ok (transition s) := by
  refine issues_then hplain trivial fun n => Only.bind ?_ fun _ => only_pure
  refine issues_then hplain trivial fun kept => ?_
  cases kept <;> trivial

omit hplain in
theorem issues_publishEvent {e : GateEvent} (h : Takes ok e) (n : Nat) :
    Issues ok (publishEvent e n) := by
  refine (only_perform h.1).bind fun i => (only_perform (h.2 i n)).bind fun told => ?_
  cases told <;> trivial

theorem issues_display (h : ok (.write .dsu)) (h' : ∀ line1 line2, ok (.write (.ds line1 line2)))
    (line1 line2 : String) : Issues ok (display cfg line1 line2) := by
  unfold display
  split
  · split
    · exact issues_send hplain h
    · exact issues_send hplain (h' _ _)
  · exact only_pure

theorem issues_cmdPlayAudio (h : ∀ track, ok (.write (.mt track)))
    (h' : ∀ track, Takes ok (.playAudio track)) (track : Int) :
    Issues ok (cmdPlayAudio cfg track) := by
  unfold cmdPlayAudio
  dsimp only
  split
  · exact issues_publishEvent (h' _) 0
  · exact issues_send hplain (h _)

theorem issues_playIfEnabled (h : ∀ track, ok (.write (.mt track)))
    (h' : ∀ track, Takes ok (.playAudio track)) (track : Int) :
    Issues ok (playIfEnabled cfg track) := by
  unfold playIfEnabled
  split
  · exact issues_cmdPlayAudio hplain cfg h h' track
  · exact only_pure

theorem issues_relayOpenReliable (h : ok (.write .trig1)) (h' : ok (.write .open1)) (n : Nat) :
    Issues ok (relayOpenReliable cfg n) := by
  have hopen : Issues ok (relayOpen cfg) := by
    unfold relayOpen
    split
    · exact issues_sendControllerCommand hplain h
    · exact issues_sendControllerCommand hplain h'
  induction n with
  | zero => exact only_pure
  | succ n ih =>
    refine hopen.bind fun landed => ?_
    split
    · exact only_pure
    · split
      · exact issues_then hplain trivial fun _ => ih
      · exact only_pure

theorem issues_onLaneOpened (h : Takes ok .gateOpened) : Issues ok onLaneOpened :=
  (issues_transition hplain _).bind fun _ => (issues_publishEvent h 0).bind fun _ =>
    issues_then hplain trivial fun _ => only_pure

end Issues

/-- What the operations of a task are answered, whatever the controller and the rest do. -/
abbrev Env := Answers LaneOp LaneOp.Ans

abbrev Log := Journal LaneOp LaneOp.Ans

section Answers
variable {env : Env} {j : Log}

theorem ensures_ask {o : LaneOp} {post : o.Ans → Log → Prop} {err : LaneExc → Log → Prop} :
    Prog.Ensures env.exec (ask o) j post err ↔ post (env j o) (env.record j o) := Iff.rfl

theorem mem_record {o : LaneOp} {x : Exchange LaneOp LaneOp.Ans} :
    x ∈ env.record j o ↔ x ∈ j ∨ x = ⟨o, env j o⟩ := by
  rw [record, List.mem_append, List.mem_singleton]

end Answers
end ParkIt.GateIn
