import Mathlib.Data.List.DropRight
import ParkIt.Sockets.Registry

/-! The way of an event from the daemon of a gate to the clients of the gate. -/
namespace ParkIt.Sockets

open Effects Tasks Transition

/-- `s.rsplit(sep, 1)`. -/
def rsplitOnce (sep : Char) (s : String) : List String :=
  let last := s.toList.rtakeWhile (· ≠ sep)
  if sep ∈ s.toList then
    [String.ofList (s.toList.take (s.toList.length - last.length - 1)), String.ofList last]
  else [s]

def eventChannel (gateId : String) : String := "parking.events." ++ gateId

/-- The text that is published: that of the event, with the id of its entry in the stream if it
has one. -/
def payload (stamp : String → String → Option String) (event : String) (streamId : Option String) :
    String :=
  match streamId.filter (· ≠ "") with
  | some id => (stamp event id).getD event
  | none => event

/-- `parking.events.*`. -/
def subscribed (channel : String) : Bool := "parking.events.".toList.isPrefixOf channel.toList

def handleMessage (loads : String → Bool) (channel data : String) : Work Unit :=
  match rsplitOnce '.' channel with
  | [_, gateId] => if loads data then sendToGate gateId data else pure ()
  | _ => pure ()

/-- What is published under a channel that is not subscribed to does not arrive. -/
def onPublished (loads : String → Bool) (channel data : String) : Work Unit :=
  if subscribed channel then handleMessage loads channel data else pure ()

/-- What the sockets do, and what other tasks make of the registry whenever the broadcaster waits
for one. -/
structure Outside where
  choice : Nat → Registry.Choice := fun _ => {}
  others : Nat → Registry → Registry := fun _ r => r

structure World where
  registry : Registry
  sent : List (Socket × String) := []
  step : Nat := 0

def execManager (x : Outside) (o : ManagerOp) (w : World) : Except ManagerError o.Ans × World :=
  let (a, r) := Registry.perform o (x.choice w.step) w.registry
  (.ok a,
    { registry := if waits o then x.others w.step r else r
      sent := match o with
        | .sendText ws message => w.sent ++ [(ws, message)]
        | _ => w.sent
      step := w.step + 1 })

/-- The messages that are sent when the event has been published. -/
def forwarded (loads : String → Bool) (code data : String) (x : Outside) (r : Registry) :
    List (Socket × String) :=
  ((onPublished loads (eventChannel code) data).run (execManager x) { registry := r }).2.sent

/-- The event goes once to each client of the gate, and to nobody else. -/
structure Forwards (loads : String → Bool) (code data : String) (x : Outside) (r : Registry) :
    Prop where
  clients : ∀ ws ∈ r.registered code,
    (forwarded loads code data x r).filter (·.1 = ws) = [(ws, data)]
  only : ∀ e ∈ forwarded loads code data x r, e.1 ∈ r.registered code
  others : ∀ gate, gate ≠ code → ∀ ws ∈ r.registered gate, ∀ message,
    (ws, message) ∉ forwarded loads code data x r

/-- Sets of sockets, each of which is connected under one gate. -/
structure Separate (r : Registry) : Prop where
  sets : ∀ gate, (r.registered gate).Nodup
  once : ∀ ws gate gate', ws ∈ r.registered gate → ws ∈ r.registered gate' → gate = gate'

section Names

def lastSegment (s : String) : String := String.ofList (s.toList.rtakeWhile (· ≠ '.'))

theorem lastSegment_eq_self {s : String} : lastSegment s = s ↔ '.' ∉ s.toList := by
  rw [← String.toList_inj, lastSegment, String.toList_ofList, List.rtakeWhile_eq_self_iff]
  constructor
  · intro h hdot
    exact absurd rfl (of_decide_eq_true (h '.' hdot))
  · intro hdot c hc
    exact decide_eq_true fun he => hdot (he ▸ hc)

theorem rtakeWhile_append_cons {α : Type} {p : α → Bool} {a : α} (ha : p a = false)
    (xs ys : List α) : (xs ++ a :: ys).rtakeWhile p = ys.rtakeWhile p := by
  induction ys using List.reverseRecOn with
  | nil => simp [List.rtakeWhile_concat_neg, ha]
  | append_singleton ys b ih =>
    have hassoc : xs ++ a :: (ys ++ [b]) = (xs ++ a :: ys) ++ [b] := by simp
    rw [hassoc, List.rtakeWhile_concat, List.rtakeWhile_concat, ih]

/-- The broadcaster takes the last segment of the code for the code. -/
theorem rsplit_channel (code : String) :
    ∃ start, rsplitOnce '.' (eventChannel code) = [start, lastSegment code] := by
  have hchars : (eventChannel code).toList = "parking.events".toList ++ '.' :: code.toList := by
    rw [eventChannel, String.toList_append]
    rfl
  have hlast : (eventChannel code).toList.rtakeWhile (· ≠ '.') =
      code.toList.rtakeWhile (· ≠ '.') := by
    rw [hchars]
    exact rtakeWhile_append_cons (by decide) _ _
  have hdot : '.' ∈ (eventChannel code).toList := by
    rw [hchars]
    exact List.mem_append_right _ List.mem_cons_self
  rw [rsplitOnce, if_pos hdot, hlast]
  exact ⟨_, rfl⟩

theorem subscribed_channel (code : String) : subscribed (eventChannel code) = true := by
  rw [subscribed, eventChannel, String.toList_append]
  exact List.isPrefixOf_iff_prefix.mpr (List.prefix_append ..)

end Names

section Sends
variable {x : Outside} {w : World} {gate message : String}

variable (message) in
theorem sendAll_sent (todo disconnected : List Socket) :
    ∃ disconnected' w', (sendAll message todo disconnected).run (execManager x) w =
      (.ok disconnected', w') ∧ w'.sent = w.sent ++ todo.map (·, message) := by
  induction todo generalizing disconnected w with
  | nil => exact ⟨disconnected, w, rfl, (List.append_nil _).symm⟩
  | cons ws rest ih =>
    have hsend : ∃ ok w', execManager x (.sendText ws message) w = (.ok ok, w') ∧
        w'.sent = w.sent ++ [(ws, message)] := ⟨_, _, rfl, rfl⟩
    obtain ⟨ok, w', hstep, hsent⟩ := hsend
    rw [sendAll, Prog.run_bind_ok _ _ ((Prog.run_perform _ _ _).trans hstep)]
    have hnext : ∀ disconnected, ∃ disconnected' w'',
        (sendAll message rest disconnected).run (execManager x) w' = (.ok disconnected', w'') ∧
          w''.sent = w.sent ++ (ws :: rest).map (·, message) := by
      intro disconnected
      obtain ⟨disconnected', w'', hrun, hsent'⟩ := ih disconnected (w := w')
      refine ⟨disconnected', w'', hrun, ?_⟩
      rw [hsent', hsent, List.append_assoc]
      rfl
    cases ok with
    | true => exact hnext disconnected
    | false => exact hnext (disconnected ++ [ws])

theorem disconnect_sent (ws : Socket) :
    ((disconnect gate ws).run (execManager x) w).2.sent = w.sent := by
  obtain ⟨w', hdiscard, hsent⟩ : ∃ w', execManager x (.discard gate ws) w = (.ok (), w') ∧
      w'.sent = w.sent := ⟨_, rfl, rfl⟩
  obtain ⟨n, w'', hsize, hsent'⟩ : ∃ n w'', execManager x (.size gate) w' = (.ok n, w'') ∧
      w''.sent = w'.sent := ⟨_, _, rfl, rfl⟩
  rw [disconnect, Prog.run_bind_ok _ _ ((Prog.run_perform _ _ _).trans hdiscard),
    Prog.run_bind_ok _ _ ((Prog.run_perform _ _ _).trans hsize)]
  split
  · obtain ⟨deleted, w₃, hdelete, hsent₃⟩ : ∃ deleted w₃,
        execManager x (.delete gate) w'' = (.ok deleted, w₃) ∧ w₃.sent = w''.sent :=
      ⟨_, _, rfl, rfl⟩
    rw [Prog.run_bind_ok _ _ ((Prog.run_perform _ _ _).trans hdelete)]
    have hall := hsent₃.trans (hsent'.trans hsent)
    cases deleted
    · exact hall
    · exact hall
  · exact hsent'.trans hsent

theorem disconnectAll_sent (disconnected : List Socket) :
    ((disconnectAll gate disconnected).run (execManager x) w).2.sent = w.sent := by
  induction disconnected generalizing w with
  | nil => rfl
  | cons ws rest ih =>
    have hone : ((disconnect gate ws).run (execManager x) w).2.sent = w.sent := disconnect_sent ws
    rw [disconnectAll, Prog.run_bind]
    generalize (disconnect gate ws).run (execManager x) w = out at hone
    obtain ⟨e | a, w'⟩ := out
    · exact hone
    · exact ih.trans hone

/-- What is sent to a gate goes to its sockets, whatever happens meanwhile. -/
theorem sendToGate_sent : ∃ found : List Socket, found.Perm (w.registry.registered gate) ∧
    ((sendToGate gate message).run (execManager x) w).2.sent =
      w.sent ++ found.map (·, message) := by
  obtain ⟨found, w', hfound, hperm, hkept⟩ : ∃ found w',
      execManager x (.sockets gate) w = (.ok found, w') ∧
        found.Perm (w.registry.registered gate) ∧ w'.sent = w.sent :=
    ⟨_, _, rfl, sockets_perm (x := x.choice w.step) rfl, rfl⟩
  obtain ⟨disconnected, w'', hsends, hsent⟩ :=
    sendAll_sent message (x := x) (w := w') found []
  refine ⟨found, hperm, ?_⟩
  rw [sendToGate, Prog.run_bind_ok _ _ ((Prog.run_perform _ _ _).trans hfound),
    Prog.run_bind_ok _ _ hsends, disconnectAll_sent, hsent, hkept]

/-- The event goes to the clients of the last segment. -/
theorem forwarded_eq {loads : String → Bool} {data : String} {r : Registry} (code : String)
    (hdata : loads data = true) : ∃ found : List Socket,
      found.Perm (r.registered (lastSegment code)) ∧
        forwarded loads code data x r = found.map (·, data) := by
  obtain ⟨start, hsplit⟩ := rsplit_channel code
  have hcode : onPublished loads (eventChannel code) data = sendToGate (lastSegment code) data := by
    rw [onPublished, if_pos (subscribed_channel code), handleMessage, hsplit]
    exact if_pos hdata
  obtain ⟨found, hperm, hsent⟩ := sendToGate_sent (x := x) (w := { registry := r })
  rw [forwarded, hcode]
  exact ⟨found, hperm, hsent.trans (List.nil_append _)⟩

end Sends

section Routing
variable {loads : String → Bool} {code data : String} {x : Outside} {r : Registry}

/-- An event reaches the clients of its gate, and nobody else, exactly if the code of the gate has
no dot; or if nobody is there under the code, and nobody under its last segment either. -/
theorem forwards_iff (hr : Separate r) (hdata : loads data = true) :
    Forwards loads code data x r ↔ '.' ∉ code.toList ∨
      r.registered code = [] ∧ r.registered (lastSegment code) = [] := by
  obtain ⟨found, hperm, hsent⟩ := forwarded_eq (x := x) (r := r) code hdata
  have hmem : ∀ ws, ws ∈ found ↔ ws ∈ r.registered (lastSegment code) := fun _ => hperm.mem_iff
  have hgets : ∀ ws ∈ found, (ws, data) ∈ forwarded loads code data x r := fun ws hws =>
    hsent ▸ List.mem_map_of_mem hws
  constructor
  · intro h
    by_cases hdot : '.' ∈ code.toList
    · -- the event has gone to the clients of another gate
      have hother : lastSegment code ≠ code := fun he => lastSegment_eq_self.mp he hdot
      have hnobody : r.registered (lastSegment code) = [] := by
        refine List.eq_nil_iff_forall_not_mem.mpr fun ws hws => ?_
        exact h.others _ hother ws hws data (hgets ws ((hmem ws).mpr hws))
      refine .inr ⟨List.eq_nil_iff_forall_not_mem.mpr fun ws hws => ?_, hnobody⟩
      have hreached := h.clients ws hws
      rw [hnobody, List.perm_nil] at hperm
      rw [hsent, hperm] at hreached
      cases hreached
    · exact .inl hdot
  · intro h
    have hsame : r.registered (lastSegment code) = r.registered code := by
      rcases h with hdot | ⟨hcode, hlast⟩
      · rw [lastSegment_eq_self.mpr hdot]
      · rw [hcode, hlast]
    rw [hsame] at hperm
    have hsentTo : ∀ e ∈ forwarded loads code data x r, e.1 ∈ r.registered code := by
      intro e he
      rw [hsent] at he
      obtain ⟨ws, hws, rfl⟩ := List.mem_map.mp he
      exact hperm.mem_iff.mp hws
    refine ⟨fun ws hws => ?_, hsentTo, fun gate hgate ws hws message hsent' => ?_⟩
    · have hfound := hperm.mem_iff.mpr hws
      have hone : found.filter (· = ws) = [ws] := by
        have hnodup := hperm.nodup_iff.mpr (hr.sets code)
        rw [List.filter_eq, List.count_eq_one_of_mem hnodup hfound, List.replicate_one]
      rw [hsent, List.filter_map]
      exact congrArg (List.map (·, data)) hone
    · exact hgate (hr.once ws gate code hws (hsentTo _ hsent'))

end Routing

theorem added_of_standing {gate : Gate} {ws : Socket} {ls : List ManagerLabel}
    (h : standing gate ws ls = true) : ∃ i a, (.go i ⟨.add gate ws, a⟩ : ManagerLabel) ∈ ls := by
  induction ls using List.reverseRecOn with
  | nil => cases h
  | append_singleton ls l ih =>
    rw [standing, List.foldl_append] at h
    have hstep : stands gate ws (standing gate ws ls) l = true := h
    have hbefore : standing gate ws ls = true →
        ∃ i a, (.go i ⟨.add gate ws, a⟩ : ManagerLabel) ∈ ls ++ [l] := by
      intro hstanding
      obtain ⟨i, a, hmem⟩ := ih hstanding
      exact ⟨i, a, List.mem_append_left _ hmem⟩
    unfold stands at hstep
    split at hstep
    · split at hstep
      · rename_i i gate' ws' a hsame
        obtain ⟨rfl, rfl⟩ := hsame
        exact ⟨i, a, List.mem_append_right _ List.mem_cons_self⟩
      · exact hbefore hstep
    · split at hstep
      · cases hstep
      · exact hbefore hstep
    · exact hbefore hstep

/-- Where each socket is connected under one gate, as the endpoint does, no run of the manager
mixes the gates up. -/
theorem separate_run {xs : List (ManagerLabel × ManagerSys)} {gateOf : Socket → Gate}
    (h : Path ManagerStep ManagerSys.initial xs)
    (hone : ∀ i gate ws a s, (.go i ⟨.add gate ws, a⟩, s) ∈ xs → gate = gateOf ws) :
    Separate (finish ManagerSys.initial xs).shared := by
  refine ⟨(managerSound_run h managerSound_initial).sets, ?_⟩
  suffices hgate : ∀ ws gate, ws ∈ (finish ManagerSys.initial xs).shared.registered gate →
      gate = gateOf ws from
    fun ws gate gate' hws hws' => (hgate ws gate hws).trans (hgate ws gate' hws').symm
  intro ws gate hws
  obtain ⟨i, a, hmem⟩ := added_of_standing ((standing_run h).mp hws)
  obtain ⟨⟨l, s⟩, hmem, rfl⟩ := List.mem_map.mp hmem
  exact hone i gate ws a s hmem

/-- A client of gate `A.1`, and one of gate `1`. -/
def dotted : Registry := (∅ : Registry).insert "A.1" [1] |>.insert "1" [2]

theorem dotted_separate : Separate dotted := by
  have hat : ∀ gate, dotted.registered gate =
      if gate = "1" then [2] else if gate = "A.1" then [1] else [] := by
    intro gate
    rw [dotted, registered_insert, registered_insert]
    rfl
  constructor
  · intro gate
    rw [hat]
    split_ifs <;> decide
  · intro ws gate gate' hws hws'
    rw [hat] at hws hws'
    split_ifs at hws hws' <;> simp_all

def anyText : String → Bool := fun _ => true

/-- The event of a gate without a dot in its code reaches its client. -/
theorem forwards_plain : Forwards anyText "1" "{}" {} dotted :=
  (forwards_iff dotted_separate rfl).mpr (.inl (by decide))

/-- The event of gate `A.1` goes to the client of gate `1`. -/
theorem forwarded_astray :
    forwarded anyText "A.1" "{}" {} dotted = [(2, "{}")] ∧ Separate dotted ∧
      ¬ Forwards anyText "A.1" "{}" {} dotted := by
  have hsent : forwarded anyText "A.1" "{}" {} dotted = [(2, "{}")] := by decide
  refine ⟨hsent, dotted_separate, fun h => ?_⟩
  have honly := h.only (2, "{}") (hsent ▸ List.mem_cons_self)
  revert honly
  decide

end ParkIt.Sockets
