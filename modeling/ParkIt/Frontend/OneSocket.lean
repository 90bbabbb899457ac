import Mathlib.Data.List.Dedup
import ParkIt.Frontend.WebSocket

/-! How many sockets of a gate are alive, and which of them is in the map. -/
namespace ParkIt.Frontend.ParkingWebSocket

open Transition

/-- The socket is connecting or open. -/
def Live (s : ParkingWebSocket) (gateId : String) (ws : Nat) : Prop :=
  ∃ k, s.sockets[ws]? = some k ∧ k.gateId = gateId ∧ k.live = true

def Opened (s : ParkingWebSocket) (gateId : String) (ws : Nat) : Prop :=
  ∃ k, s.sockets[ws]? = some k ∧ k.gateId = gateId ∧ k.readyState = .opened

/-- A gate has one live socket at most, `send` and `isConnected` see it, and an event of the
backend is emitted once. -/
structure OneSocket (s : ParkingWebSocket) : Prop where
  single : ∀ gateId ws ws', s.Live gateId ws → s.Live gateId ws' → ws = ws'
  stored : ∀ gateId ws, s.Live gateId ws → s.connections.lookup gateId = some ws
  isConnected : ∀ gateId, s.isConnected gateId = true ↔ ∃ ws, s.Opened gateId ws
  send : ∀ gateId ws payload, s.Opened gateId ws →
    s.send gateId payload = (true, s.transmit ws payload)
  once : s.numbers.Nodup

/-- At every moment of a run that starts without sockets. -/
def AlwaysOneSocket (xs : List (Event × ParkingWebSocket)) : Prop :=
  ∀ pre post, xs = pre ++ post → OneSocket (finish {} pre)

/-- If a close event comes, then not while another live socket of its gate is in the map. -/
def Fits (s : ParkingWebSocket) : Event → Prop
  | .callback (.onclose ws _) => ∀ k, s.closeHandler = none → s.sockets[ws]? = some k →
      k.readyState ≠ .closed → ∀ ws', s.connections.lookup k.gateId = some ws' →
      s.Live k.gateId ws' → ws' = ws
  | _ => True

section Sockets
variable {s s' t : ParkingWebSocket} {gateId gateId' : String} {ws ws' n : Nat} {k : WebSocket}

theorem Live.at (h : s.Live gateId ws) (hk : s.sockets[ws]? = some k) :
    k.gateId = gateId ∧ k.live = true := by
  obtain ⟨k', hk', hlive⟩ := h
  obtain rfl := Option.some.inj (hk.symm.trans hk')
  exact hlive

theorem Opened.live (h : s.Opened gateId ws) : s.Live gateId ws := by
  obtain ⟨k, hk, hgate, hopened⟩ := h
  exact ⟨k, hk, hgate, decide_eq_true (.inr hopened)⟩

theorem Live.lt (h : s.Live gateId ws) : ws < s.sockets.length := by
  obtain ⟨k, hk, -⟩ := h
  exact (List.getElem?_eq_some_iff.mp hk).1

theorem live_modify {f : WebSocket → WebSocket} (hgate : ∀ k, (f k).gateId = k.gateId)
    (hsockets : s'.sockets = s.sockets.modify ws f) : s'.Live gateId ws' ↔
      ∃ k, s.sockets[ws']? = some k ∧ k.gateId = gateId ∧
        (if ws = ws' then f k else k).live = true := by
  rw [Live, hsockets, List.getElem?_modify]
  constructor
  · rintro ⟨k', hk', hgate', hlive⟩
    obtain ⟨k, hk, rfl⟩ := Option.map_eq_some_iff.mp hk'
    refine ⟨k, hk, ?_, hlive⟩
    rw [← hgate']
    split_ifs
    · exact (hgate k).symm
    · rfl
  · rintro ⟨k, hk, rfl, hlive⟩
    refine ⟨_, Option.map_eq_some_iff.mpr ⟨k, hk, rfl⟩, ?_, hlive⟩
    split_ifs
    · exact hgate k
    · rfl

/-- What closes a socket. -/
theorem live_shut {f : WebSocket → WebSocket} (hgate : ∀ k, (f k).gateId = k.gateId)
    (hshut : ∀ k, (f k).live = false) (hsockets : s'.sockets = s.sockets.modify ws f) :
    s'.Live gateId ws' ↔ s.Live gateId ws' ∧ ws' ≠ ws := by
  rw [live_modify hgate hsockets]
  by_cases hws : ws = ws'
  · simp [hws, hshut]
  · simp only [if_neg hws]
    exact ⟨fun h => ⟨h, Ne.symm hws⟩, fun h => h.1⟩

theorem close_gateId (k : WebSocket) : k.close.gateId = k.gateId := by
  rw [WebSocket.close]
  split_ifs <;> rfl

theorem close_shuts (k : WebSocket) : k.close.live = false := by
  rw [WebSocket.close]
  split_ifs with h
  · rfl
  · exact Bool.not_eq_true _ ▸ h

theorem live_close : (s.close ws).Live gateId ws' ↔ s.Live gateId ws' ∧ ws' ≠ ws :=
  live_shut close_gateId close_shuts rfl

theorem live_create : (s.create gateId').Live gateId ws ↔
    s.Live gateId ws ∨ gateId = gateId' ∧ ws = s.sockets.length := by
  rw [Live, create]
  constructor
  · rintro ⟨k, hk, hgate, hlive⟩
    rw [List.getElem?_append] at hk
    split_ifs at hk with hlt
    · exact .inl ⟨k, hk, hgate, hlive⟩
    · rw [List.getElem?_singleton] at hk
      split_ifs at hk with hzero
      obtain rfl := Option.some.inj hk
      exact .inr ⟨hgate.symm, by omega⟩
  · rintro (h | ⟨rfl, rfl⟩)
    · obtain ⟨k, hk, hlive⟩ := id h
      exact ⟨k, by rw [List.getElem?_append_left h.lt, hk], hlive⟩
    · exact ⟨{ gateId }, by simp, rfl, rfl⟩

end Sockets

/-- No event of the backend has moved. -/
structure SameEvents (s t : ParkingWebSocket) : Prop where
  inFlight : t.inFlight = s.inFlight
  published : t.published = s.published
  numbers : t.numbers = s.numbers

/-- The sockets are what they were, but for some that have stopped to live or are new. -/
structure Calm (s t : ParkingWebSocket) : Prop extends SameEvents s t where
  length : s.sockets.length ≤ t.sockets.length
  gates : ∀ (ws : Nat) k, s.sockets[ws]? = some k →
    ∃ k', t.sockets[ws]? = some k' ∧ k'.gateId = k.gateId
  live : ∀ gateId ws, t.Live gateId ws → s.Live gateId ws ∨ s.sockets.length ≤ ws

/-- The map and the sockets belong together. -/
structure Sound (s : ParkingWebSocket) : Prop where
  filed : ∀ gateId ws, s.connections.lookup gateId = some ws →
    ∃ k, s.sockets[ws]? = some k ∧ k.gateId = gateId
  stored : ∀ gateId ws, s.Live gateId ws → s.connections.lookup gateId = some ws

/-- An event on its way can come to one live socket at most, and to none if it has come already. -/
structure Accounted (s : ParkingWebSocket) : Prop where
  bound : ∀ ws n, (ws, n) ∈ s.inFlight → ws < s.sockets.length ∧ n < s.published
  numbered : ∀ n ∈ s.numbers, n < s.published
  nodup : s.inFlight.Nodup
  one : ∀ n ws ws' gateId gateId', (ws, n) ∈ s.inFlight → (ws', n) ∈ s.inFlight →
    s.Live gateId ws → s.Live gateId' ws' → ws = ws'
  spent : ∀ n ws gateId, n ∈ s.numbers → (ws, n) ∈ s.inFlight → ¬ s.Live gateId ws
  once : s.numbers.Nodup

structure Preserves (s t : ParkingWebSocket) : Prop where
  calm : Calm s t
  sound : Sound s → Sound t

section Steps
variable {s t u : ParkingWebSocket} {gateId : String} {ws : Nat} {k : WebSocket}

theorem Calm.trans (h : Calm s t) (h' : Calm t u) : Calm s u where
  length := le_trans h.length h'.length
  gates ws k hk := by
    obtain ⟨k', hk', hgate⟩ := h.gates ws k hk
    obtain ⟨k'', hk'', hgate'⟩ := h'.gates ws k' hk'
    exact ⟨k'', hk'', hgate'.trans hgate⟩
  live gateId ws hlive := by
    rcases h'.live gateId ws hlive with hlive | hle
    · exact h.live gateId ws hlive
    · exact .inr (le_trans h.length hle)
  inFlight := h'.inFlight.trans h.inFlight
  published := h'.published.trans h.published
  numbers := h'.numbers.trans h.numbers

theorem Preserves.trans (h : Preserves s t) (h' : Preserves t u) : Preserves s u :=
  ⟨h.calm.trans h'.calm, fun hs => h'.sound (h.sound hs)⟩

/-- Events on their way are for old sockets, so that a new one does not count. -/
theorem Calm.accounted (h : Calm s t) (hs : Accounted s) : Accounted t := by
  have hold : ∀ ws n gateId, (ws, n) ∈ s.inFlight → t.Live gateId ws → s.Live gateId ws := by
    intro ws n gateId hmem hlive
    rcases h.live gateId ws hlive with hlive | hle
    · exact hlive
    · exact absurd (hs.bound ws n hmem).1 (not_lt.mpr hle)
  refine ⟨?_, ?_, ?_, ?_, ?_, ?_⟩
  · intro ws n hmem
    rw [h.inFlight] at hmem
    rw [h.published]
    exact ⟨lt_of_lt_of_le (hs.bound ws n hmem).1 h.length, (hs.bound ws n hmem).2⟩
  · rw [h.numbers, h.published]
    exact hs.numbered
  · rw [h.inFlight]
    exact hs.nodup
  · intro n ws ws' gateId gateId' hmem hmem' hlive hlive'
    rw [h.inFlight] at hmem hmem'
    exact hs.one n ws ws' gateId gateId' hmem hmem' (hold ws n gateId hmem hlive)
      (hold ws' n gateId' hmem' hlive')
  · intro n ws gateId hn hmem hlive
    rw [h.numbers] at hn
    rw [h.inFlight] at hmem
    exact hs.spent n ws gateId hn hmem (hold ws n gateId hmem hlive)
  · rw [h.numbers]
    exact hs.once

/-- What changes no socket and no entry, and tells nothing of the backend. -/
theorem preserves_of_eq (hsockets : t.sockets = s.sockets)
    (hconnections : t.connections = s.connections) (hevents : SameEvents s t) :
    Preserves s t := by
  have hlive : ∀ gateId ws, t.Live gateId ws ↔ s.Live gateId ws := by
    intro gateId ws
    rw [Live, Live, hsockets]
  refine ⟨⟨hevents, hsockets ▸ le_rfl, fun ws k hk => ⟨k, hsockets ▸ hk, rfl⟩, ?_⟩,
    fun hs => ⟨?_, ?_⟩⟩
  · exact fun gateId ws h => .inl ((hlive gateId ws).mp h)
  · rw [hsockets, hconnections]
    exact hs.filed
  · intro gateId ws h
    rw [hconnections]
    exact hs.stored gateId ws ((hlive gateId ws).mp h)

theorem preserves_refl : Preserves s s := preserves_of_eq rfl rfl ⟨rfl, rfl, rfl⟩

theorem numbers_emit {event : Notice} :
    (s.emit gateId event).numbers = s.numbers ++ event.number?.toList := by
  rw [numbers, numbers, emit, List.filterMap_append]
  cases event <;> rfl

theorem preserves_emit {event : Notice} (h : event.number? = none) :
    Preserves s (s.emit gateId event) := by
  refine preserves_of_eq rfl rfl ⟨rfl, rfl, ?_⟩
  rw [numbers_emit, h, Option.toList_none, List.append_nil]

/-- What happens to one socket revives none. -/
theorem calm_modify {f : WebSocket → WebSocket} (hgate : ∀ k, (f k).gateId = k.gateId)
    (hlive : ∀ k, s.sockets[ws]? = some k → (f k).live = true → k.live = true)
    (hsockets : t.sockets = s.sockets.modify ws f) (hevents : SameEvents s t) :
    Calm s t ∧ ∀ gateId ws, t.Live gateId ws → s.Live gateId ws := by
  have hold : ∀ gateId ws, t.Live gateId ws → s.Live gateId ws := by
    intro gateId ws' h
    obtain ⟨k, hk, hgate', h⟩ := (live_modify hgate hsockets).mp h
    refine ⟨k, hk, hgate', ?_⟩
    split_ifs at h with hws
    · exact hlive k (hws ▸ hk) h
    · exact h
  refine ⟨⟨hevents, ?_, fun ws' k hk => ?_, fun gateId ws' h => .inl (hold gateId ws' h)⟩, hold⟩
  · rw [hsockets, List.length_modify]
  · rw [hsockets, List.getElem?_modify, hk]
    refine ⟨_, rfl, ?_⟩
    split_ifs
    · exact hgate k
    · rfl

theorem Sound.of_live (hs : Sound s) (h : Calm s t)
    (hlive : ∀ gateId ws, t.Live gateId ws → s.Live gateId ws)
    (hconnections : t.connections = s.connections) : Sound t := by
  refine ⟨fun gateId ws hws => ?_, fun gateId ws hws => ?_⟩
  · rw [hconnections] at hws
    obtain ⟨k, hk, rfl⟩ := hs.filed gateId ws hws
    exact h.gates ws k hk
  · rw [hconnections]
    exact hs.stored gateId ws (hlive gateId ws hws)

theorem preserves_modify {f : WebSocket → WebSocket} (hgate : ∀ k, (f k).gateId = k.gateId)
    (hlive : ∀ k, s.sockets[ws]? = some k → (f k).live = true → k.live = true)
    (hsockets : t.sockets = s.sockets.modify ws f) (hconnections : t.connections = s.connections)
    (hevents : SameEvents s t) : Preserves s t := by
  obtain ⟨hcalm, hold⟩ := calm_modify hgate hlive hsockets hevents
  exact ⟨hcalm, fun hs => hs.of_live hcalm hold hconnections⟩

theorem preserves_close : Preserves s (s.close ws) := by
  refine preserves_modify close_gateId (fun k _ h => ?_) rfl rfl ⟨rfl, rfl, rfl⟩
  rw [close_shuts] at h
  cases h

theorem calm_create : Calm s (s.create gateId) := by
  refine ⟨⟨rfl, rfl, rfl⟩, ?_, fun ws k hk => ⟨k, ?_, rfl⟩, fun gateId' ws h => ?_⟩
  · rw [create, List.length_append]
    omega
  · rw [create, List.getElem?_append_left (List.getElem?_eq_some_iff.mp hk).1, hk]
  · rcases live_create.mp h with h | ⟨-, rfl⟩
    · exact .inl h
    · exact .inr le_rfl

theorem Sound.create (hs : Sound s) (h : ∀ ws, ¬ s.Live gateId ws) : Sound (s.create gateId) := by
  refine ⟨fun gateId' ws hws => ?_, fun gateId' ws hws => ?_⟩
  · rw [ParkingWebSocket.create] at hws
    by_cases hgate : gateId' = gateId
    · subst hgate
      rw [AList.lookup_insert] at hws
      obtain rfl := Option.some.inj hws
      exact ⟨{ gateId := gateId' }, by simp [ParkingWebSocket.create], rfl⟩
    · rw [AList.lookup_insert_ne hgate] at hws
      obtain ⟨k, hk, rfl⟩ := hs.filed gateId' ws hws
      exact calm_create.gates ws k hk
  · rw [ParkingWebSocket.create]
    rcases live_create.mp hws with hlive | ⟨rfl, rfl⟩
    · have hgate : gateId' ≠ gateId := by
        rintro rfl
        exact h ws hlive
      rw [AList.lookup_insert_ne hgate]
      exact hs.stored gateId' ws hlive
    · exact AList.lookup_insert _

theorem preserves_connect : Preserves s (s.connect gateId) := by
  rw [connect]
  cases hws : s.connections.lookup gateId with
  | none =>
    refine ⟨calm_create, fun hs => hs.create fun ws hlive => ?_⟩
    cases hws.symm.trans (hs.stored gateId ws hlive)
  | some existing =>
    dsimp only
    split_ifs
    · exact preserves_refl
    · refine ⟨preserves_close.calm.trans calm_create, fun hs => ?_⟩
      refine (preserves_close.sound hs).create fun ws hlive => ?_
      obtain ⟨hlive, hne⟩ := live_close.mp hlive
      exact hne (Option.some.inj ((hs.stored gateId ws hlive).symm.trans hws))

/-- An entry may go with the only live socket of its gate. -/
theorem preserves_erase {f : WebSocket → WebSocket} (hgate : ∀ k, (f k).gateId = k.gateId)
    (hshut : ∀ k, (f k).live = false) (hsockets : t.sockets = s.sockets.modify ws f)
    (hconnections : t.connections = s.connections.erase gateId) (hevents : SameEvents s t)
    (honly : Sound s → ∀ ws', s.Live gateId ws' → ws' = ws) : Preserves s t := by
  obtain ⟨hcalm, hold⟩ := calm_modify hgate
    (fun k _ h => Bool.noConfusion ((hshut k).symm.trans h)) hsockets hevents
  refine ⟨hcalm, fun hs => ⟨fun gateId' ws' hws => ?_, fun gateId' ws' hws => ?_⟩⟩
  · rw [hconnections] at hws
    by_cases hgate : gateId' = gateId
    · rw [hgate, AList.lookup_erase] at hws
      cases hws
    · rw [AList.lookup_erase_ne hgate] at hws
      obtain ⟨k, hk, rfl⟩ := hs.filed gateId' ws' hws
      exact hcalm.gates ws' k hk
  · obtain ⟨hlive, hne⟩ := (live_shut hgate hshut hsockets).mp hws
    have hgate : gateId' ≠ gateId := by
      rintro rfl
      exact hne (honly hs ws' hlive)
    rw [hconnections, AList.lookup_erase_ne hgate]
    exact hs.stored gateId' ws' hlive

theorem preserves_disconnect : Preserves s (s.disconnect gateId) := by
  rw [disconnect]
  dsimp only
  cases hws : s.connections.lookup gateId with
  | none => exact preserves_of_eq rfl rfl ⟨rfl, rfl, rfl⟩
  | some ws =>
    refine preserves_erase close_gateId close_shuts rfl rfl ⟨rfl, rfl, rfl⟩
      fun hs ws' hlive => ?_
    exact Option.some.inj ((hs.stored gateId ws' hlive).symm.trans hws)

theorem preserves_call (c : Call) : Preserves s (s.call c) := by
  cases c with
  | connect gateId => exact preserves_connect
  | disconnect gateId => exact preserves_disconnect
  | disconnectAll =>
    rw [call, disconnectAll]
    generalize s.connections.keys = gates
    induction gates generalizing s with
    | nil => exact preserves_refl
    | cons gateId gates ih => exact preserves_disconnect.trans ih
  | on gateId callback =>
    rw [call, on]
    generalize (s.listeners.lookup gateId).getD [] = set
    have hadd : Preserves s { s with
        listeners := s.listeners.insert gateId
          (if callback ∈ set then set else set ++ [callback]) } :=
      preserves_of_eq rfl rfl ⟨rfl, rfl, rfl⟩
    dsimp only
    split_ifs at hadd ⊢
    · exact hadd.trans preserves_connect
    · exact hadd.trans preserves_connect
    · exact hadd
    · exact hadd
  | unsubscribe gateId callback =>
    rw [call, unsubscribe]
    cases s.listeners.lookup gateId <;> exact preserves_of_eq rfl rfl ⟨rfl, rfl, rfl⟩
  | send gateId payload =>
    rw [call, send]
    cases s.connections.lookup gateId with
    | none => exact preserves_refl
    | some ws =>
      dsimp only
      split_ifs
      · exact preserves_modify (f := (·.send payload)) (fun _ => rfl) (fun _ _ h => h) rfl rfl
          ⟨rfl, rfl, rfl⟩
      · exact preserves_refl

theorem preserves_onopen : Preserves s (s.callback (.onopen ws)) := by
  rw [callback]
  cases hk : s.sockets[ws]? with
  | none => exact preserves_refl
  | some k =>
    dsimp only
    split_ifs with hconnecting
    · refine Preserves.trans ?_ (preserves_emit rfl)
      refine preserves_modify (f := fun k => { k with readyState := .opened }) (fun _ => rfl)
        (fun k' hk' _ => ?_) rfl rfl ⟨rfl, rfl, rfl⟩
      obtain rfl := Option.some.inj (hk.symm.trans hk')
      exact decide_eq_true (.inl hconnecting)
    · exact preserves_refl

theorem preserves_onerror : Preserves s (s.callback (.onerror ws)) := by
  rw [callback]
  cases s.sockets[ws]? with
  | none => exact preserves_refl
  | some k =>
    dsimp only
    split_ifs
    · exact preserves_refl
    · exact preserves_emit rfl

theorem preserves_closing : Preserves s (s.callback (.closing ws)) := by
  rw [callback]
  cases s.sockets[ws]? with
  | none => exact preserves_refl
  | some k =>
    dsimp only
    split_ifs
    · exact preserves_modify (f := fun k => { k with readyState := .closing }) (fun _ => rfl)
        (fun _ _ h => by cases h) rfl rfl ⟨rfl, rfl, rfl⟩
    · exact preserves_refl

theorem preserves_timer : Preserves s (s.callback (.timer gateId)) := by
  rw [callback]
  dsimp only
  have herase : Preserves s { s with reconnectTimers := s.reconnectTimers.erase gateId } :=
    preserves_of_eq rfl rfl ⟨rfl, rfl, rfl⟩
  split_ifs
  · exact preserves_refl
  · exact herase.trans preserves_connect
  · exact herase

theorem callback_onclose (hk : s.sockets[ws]? = some k) (code : Nat) :
    s.callback (.onclose ws code) = if k.readyState = .closed then s else
      { s.setState ws .closed with
        connections := s.connections.erase k.gateId
        closeHandler := some (k.gateId, code) }.emit k.gateId (.wsClose code) := by
  rw [callback, hk]

theorem calm_onclose {code : Nat} : Calm s (s.callback (.onclose ws code)) := by
  cases hk : s.sockets[ws]? with
  | none =>
    rw [callback, hk]
    exact preserves_refl.calm
  | some k =>
    rw [callback_onclose hk]
    split_ifs
    · exact preserves_refl.calm
    · refine Calm.trans ?_ (preserves_emit rfl).calm
      exact And.left (calm_modify (f := fun k => { k with readyState := .closed })
        (fun _ => rfl) (fun _ _ h => by cases h) rfl ⟨rfl, rfl, rfl⟩)

theorem sound_onclose {code : Nat} (hs : Sound s)
    (honly : ∀ k, s.sockets[ws]? = some k → k.readyState ≠ .closed →
      ∀ ws', s.Live k.gateId ws' → ws' = ws) : Sound (s.callback (.onclose ws code)) := by
  cases hk : s.sockets[ws]? with
  | none =>
    rw [callback, hk]
    exact hs
  | some k =>
    rw [callback_onclose hk]
    split_ifs with hclosed
    · exact hs
    · refine (preserves_emit rfl).sound (Preserves.sound ?_ hs)
      exact preserves_erase (f := fun k => { k with readyState := .closed }) (fun _ => rfl)
        (fun _ => rfl) rfl rfl ⟨rfl, rfl, rfl⟩ fun _ => honly k hk hclosed

theorem sound_onmessage {n : Nat} (hs : Sound s) : Sound (s.callback (.onmessage ws n)) := by
  rw [callback]
  cases s.sockets[ws]? with
  | none => exact hs
  | some k =>
    dsimp only
    split_ifs
    · exact ⟨hs.filed, hs.stored⟩
    · exact hs

/-- The event is emitted, and no other live socket waits for it. -/
theorem accounted_onmessage {n : Nat} (ha : Accounted s) :
    Accounted (s.callback (.onmessage ws n)) := by
  rw [callback]
  cases hk : s.sockets[ws]? with
  | none => exact ha
  | some k =>
    dsimp only
    split_ifs with hopened
    · obtain ⟨hopened, hmem⟩ := hopened
      have hlive : s.Live k.gateId ws := ⟨k, hk, rfl, decide_eq_true (.inr hopened)⟩
      have hfresh : n ∉ s.numbers := fun hn => ha.spent n ws k.gateId hn hmem hlive
      have hsub : ∀ {ws' n'}, (ws', n') ∈ s.inFlight.erase (ws, n) → (ws', n') ∈ s.inFlight :=
        List.mem_of_mem_erase
      refine ⟨fun ws' n' h => ha.bound ws' n' (hsub h), ?_, ha.nodup.erase _,
        fun n' ws' ws'' g g' h h' => ha.one n' ws' ws'' g g' (hsub h) (hsub h'), ?_, ?_⟩
      · intro n' hn'
        rw [numbers_emit] at hn'
        rcases List.mem_append.mp hn' with hn' | hn'
        · exact ha.numbered n' hn'
        · obtain rfl := List.mem_singleton.mp hn'
          exact (ha.bound ws n' hmem).2
      · intro n' ws' g hn' h hlive'
        rw [numbers_emit] at hn'
        rcases List.mem_append.mp hn' with hn' | hn'
        · exact ha.spent n' ws' g hn' (hsub h) hlive'
        · obtain rfl := List.mem_singleton.mp hn'
          obtain rfl := ha.one n' ws' ws g k.gateId (hsub h) hmem hlive' hlive
          exact ha.nodup.not_mem_erase h
      · rw [numbers_emit]
        exact ha.once.append (List.nodup_singleton n) (List.disjoint_singleton.mpr hfresh)
    · exact ha

/-- What is on its way after an event has been published is what was, or the new event. -/
theorem mem_publish {receivers : List Nat} {n : Nat} :
    (ws, n) ∈ (s.next (.publish gateId receivers)).inFlight ↔ (ws, n) ∈ s.inFlight ∨
      (ws ∈ receivers ∧ ∃ k, s.sockets[ws]? = some k ∧ k.gateId = gateId) ∧
        n = s.published := by
  rw [next]
  dsimp only
  rw [List.mem_append, List.mem_map]
  refine or_congr_right ⟨?_, ?_⟩
  · rintro ⟨ws', hws', heq⟩
    obtain ⟨rfl, rfl⟩ := Prod.mk.inj heq
    rw [List.mem_filter, List.mem_dedup, decide_eq_true_iff, Option.map_eq_some_iff] at hws'
    exact ⟨hws', rfl⟩
  · rintro ⟨hws, rfl⟩
    refine ⟨ws, ?_, rfl⟩
    rwa [List.mem_filter, List.mem_dedup, decide_eq_true_iff, Option.map_eq_some_iff]

theorem nodup_publish {receivers : List Nat} (ha : Accounted s) :
    (s.next (.publish gateId receivers)).inFlight.Nodup := by
  rw [next]
  dsimp only
  refine ha.nodup.append (((List.nodup_dedup receivers).filter _).map
    fun _ _ heq => (Prod.mk.inj heq).1) ?_
  rintro ⟨ws, n⟩ hold hnew
  obtain ⟨ws', -, heq⟩ := List.mem_map.mp hnew
  obtain ⟨rfl, rfl⟩ := Prod.mk.inj heq
  exact lt_irrefl _ (ha.bound _ _ hold).2

theorem accounted_publish {receivers : List Nat} (hs : Sound s) (ha : Accounted s) :
    Accounted (s.next (.publish gateId receivers)) := by
  have hold : ∀ {ws}, (ws, s.published) ∉ s.inFlight := fun h =>
    absurd (ha.bound _ _ h).2 (lt_irrefl _)
  refine ⟨fun ws n h => ?_, fun n hn => Nat.lt_succ_of_lt (ha.numbered n hn), nodup_publish ha,
    ?_, ?_, ha.once⟩
  · rcases mem_publish.mp h with hwas | ⟨⟨-, k, hk, -⟩, rfl⟩
    · exact ⟨(ha.bound ws n hwas).1, Nat.lt_succ_of_lt (ha.bound ws n hwas).2⟩
    · exact ⟨(List.getElem?_eq_some_iff.mp hk).1, Nat.lt_succ_self _⟩
  · intro n ws ws' g g' h h' hlive hlive'
    rcases mem_publish.mp h with hwas | ⟨⟨-, k, hk, hgate⟩, rfl⟩ <;>
      rcases mem_publish.mp h' with hwas' | ⟨⟨-, k', hk', hgate'⟩, hn⟩
    · exact ha.one n ws ws' g g' hwas hwas' hlive hlive'
    · exact absurd (hn ▸ hwas) hold
    · exact absurd hwas' hold
    · -- both are live sockets of the gate
      obtain rfl := (Live.at hlive hk).1.symm.trans hgate
      obtain rfl := (Live.at hlive' hk').1.symm.trans hgate'
      exact Option.some.inj ((hs.stored _ ws hlive).symm.trans (hs.stored _ ws' hlive'))
  · intro n ws g hn h hlive
    rcases mem_publish.mp h with hwas | ⟨-, rfl⟩
    · exact ha.spent n ws g hn hwas hlive
    · exact absurd (ha.numbered _ hn) (lt_irrefl _)

theorem preserves_onclosed : Preserves s (s.next .onclosed) := by
  rw [next]
  cases s.closeHandler with
  | none => exact preserves_refl
  | some handler =>
    dsimp only
    have hdone : Preserves s { s with closeHandler := none } :=
      preserves_of_eq rfl rfl ⟨rfl, rfl, rfl⟩
    split_ifs
    · refine hdone.trans ?_
      rw [scheduleReconnect]
      split_ifs
      · exact preserves_refl
      · exact preserves_of_eq rfl rfl ⟨rfl, rfl, rfl⟩
    · exact hdone

theorem accounted_next (hs : Sound s) (ha : Accounted s) (e : Event) : Accounted (s.next e) := by
  cases e with
  | call c => exact (preserves_call c).calm.accounted ha
  | onclosed => exact preserves_onclosed.calm.accounted ha
  | publish gateId receivers => exact accounted_publish hs ha
  | callback c =>
    rw [next]
    split_ifs
    · exact ha
    · cases c with
      | onmessage ws n => exact accounted_onmessage ha
      | onclose ws code => exact calm_onclose.accounted ha
      | onopen ws => exact preserves_onopen.calm.accounted ha
      | onerror ws => exact preserves_onerror.calm.accounted ha
      | closing ws => exact preserves_closing.calm.accounted ha
      | timer gateId => exact preserves_timer.calm.accounted ha

theorem sound_next (hs : Sound s) {e : Event} (h : Fits s e) : Sound (s.next e) := by
  cases e with
  | call c => exact (preserves_call c).sound hs
  | onclosed => exact preserves_onclosed.sound hs
  | publish gateId receivers => exact ⟨hs.filed, hs.stored⟩
  | callback c =>
    rw [next]
    split_ifs with hhandler
    · exact hs
    · cases c with
      | onmessage ws n => exact sound_onmessage hs
      | onclose ws code =>
        refine sound_onclose hs fun k hk hclosed ws' hlive => ?_
        exact h k (Option.not_isSome_iff_eq_none.mp hhandler) hk hclosed ws'
          (hs.stored _ ws' hlive) hlive
      | onopen ws => exact preserves_onopen.sound hs
      | onerror ws => exact preserves_onerror.sound hs
      | closing ws => exact preserves_closing.sound hs
      | timer gateId => exact preserves_timer.sound hs

/-- A close event that takes the entry of another live socket leaves that one behind. -/
theorem fits_of_stored {e : Event}
    (h : ∀ gateId ws, (s.next e).Live gateId ws →
      (s.next e).connections.lookup gateId = some ws) : Fits s e := by
  cases e with
  | callback c =>
    cases c with
    | onclose ws code =>
      intro k hhandler hk hclosed ws' _ hlive
      by_contra hne
      have hnext : s.next (.callback (.onclose ws code)) = { s.setState ws .closed with
          connections := s.connections.erase k.gateId
          closeHandler := some (k.gateId, code) }.emit k.gateId (.wsClose code) := by
        rw [next, hhandler, Option.isSome_none, if_neg Bool.false_ne_true, callback_onclose hk,
          if_neg hclosed]
      rw [hnext] at h
      have hstays := h k.gateId ws' ((live_shut (f := fun k => { k with readyState := .closed })
        (fun _ => rfl) (fun _ => rfl) rfl).mpr ⟨hlive, hne⟩)
      exact Option.some_ne_none _ (hstays.symm.trans (AList.lookup_erase _ _))
    | _ => trivial
  | _ => trivial

theorem readyState_eq (hk : s.sockets[ws]? = some k) : s.readyState ws = some k.readyState := by
  rw [readyState, hk, Option.map_some]

theorem oneSocket_of (hs : Sound s) (ha : Accounted s) : OneSocket s := by
  have hopened : ∀ gateId ws, s.Opened gateId ws →
      s.connections.lookup gateId = some ws ∧ s.readyState ws = some .opened := by
    intro gateId ws h
    refine ⟨hs.stored gateId ws h.live, ?_⟩
    obtain ⟨k, hk, -, hopened⟩ := h
    rw [readyState_eq hk, hopened]
  refine ⟨fun gateId ws ws' h h' => ?_, hs.stored, fun gateId => ⟨fun h => ?_, ?_⟩,
    fun gateId ws payload h => ?_, ha.once⟩
  · exact Option.some.inj ((hs.stored gateId ws h).symm.trans (hs.stored gateId ws' h'))
  · rw [isConnected] at h
    cases hws : s.connections.lookup gateId with
    | none =>
      rw [hws] at h
      cases h
    | some ws =>
      rw [hws] at h
      obtain ⟨k, hk, hgate⟩ := hs.filed gateId ws hws
      have hstate := of_decide_eq_true h
      rw [readyState_eq hk] at hstate
      exact ⟨ws, k, hk, hgate, Option.some.inj hstate⟩
  · rintro ⟨ws, h⟩
    obtain ⟨hws, hstate⟩ := hopened gateId ws h
    rw [isConnected, hws]
    exact decide_eq_true hstate
  · obtain ⟨hws, hstate⟩ := hopened gateId ws h
    rw [send, hws]
    exact if_pos hstate

theorem oneSocket_run {xs : List (Event × ParkingWebSocket)} (hs : Sound s) (ha : Accounted s)
    (h : Path WsStep s xs) :
    (∀ pre post, xs = pre ++ post → OneSocket (finish s pre)) ↔
      Path (fun s e _ => Fits s e) s xs := by
  induction xs generalizing s with
  | nil =>
    refine iff_of_true (fun pre post heq => ?_) trivial
    obtain ⟨rfl, -⟩ := List.append_eq_nil_iff.mp heq.symm
    exact oneSocket_of hs ha
  | cons x xs ih =>
    obtain ⟨e, t⟩ := x
    obtain ⟨rfl, hrest⟩ := h
    have haccounted := accounted_next hs ha e
    constructor
    · intro hall
      have hfits : Fits s e := fits_of_stored (hall [(e, s.next e)] xs rfl).stored
      refine ⟨hfits, (ih (sound_next hs hfits) haccounted hrest).mp fun pre post heq => ?_⟩
      exact hall ((e, s.next e) :: pre) post (by rw [heq, List.cons_append])
    · rintro ⟨hfits, hrestFits⟩ pre post heq
      cases pre with
      | nil => exact oneSocket_of hs ha
      | cons y pre =>
        obtain ⟨rfl, rfl⟩ := List.cons.inj heq
        exact (ih (sound_next hs hfits) haccounted hrest).mpr hrestFits pre post rfl

theorem sound_start : Sound {} := by
  refine ⟨fun gateId ws h => ?_, fun gateId ws h => ?_⟩
  · cases h
  · obtain ⟨k, hk, -⟩ := h
    cases hk

theorem accounted_start : Accounted {} := by
  refine ⟨fun ws n h => ?_, fun n h => ?_, List.nodup_nil, fun n ws ws' g g' h => ?_,
    fun n ws g h => ?_, List.nodup_nil⟩ <;> cases h

/-- At every moment of a run a gate has one live socket and the plugin knows it, exactly if no
close event comes while another live socket of its gate is in the map. -/
theorem alwaysOneSocket_iff {xs : List (Event × ParkingWebSocket)} (h : Path WsStep {} xs) :
    AlwaysOneSocket xs ↔ Path (fun s e _ => Fits s e) {} xs :=
  oneSocket_run sound_start accounted_start h

/-- A listener is told an event, the connection breaks and comes back. -/
def session : List Event :=
  [.call (.on "1" 0), .callback (.onopen 0), .publish "1" [0], .callback (.onmessage 0 0),
    .call (.send "1" "hello"), .callback (.onclose 0 1006), .onclosed, .callback (.timer "1"),
    .callback (.onopen 1)]

theorem alwaysOneSocket_session : AlwaysOneSocket (trace next {} session) := by
  refine (alwaysOneSocket_iff (trace_path next {} session)).mpr
    ⟨trivial, trivial, trivial, trivial, trivial, ?_, trivial, trivial, trivial, trivial⟩
  intro k _ hk _ ws hws _
  obtain rfl := Option.some.inj hk
  exact (Option.some.inj hws).symm

/-- A second connection is asked for before the first one has been opened. -/
def twice : List Event :=
  [.call (.on "1" 0), .call (.connect "1"), .callback (.onclose 0 1006), .onclosed,
    .callback (.timer "1")]

/-- The close event of the first socket takes the entry of the second one, and a third one is
created beside it. -/
theorem two_live : let xs := trace next {} twice
    Path WsStep {} xs ∧ (finish {} xs).Live "1" 1 ∧ (finish {} xs).Live "1" 2 ∧
      ¬ OneSocket (finish {} xs) := by
  intro xs
  have hsecond : (finish {} xs).Live "1" 1 := ⟨{ gateId := "1" }, by decide, rfl, rfl⟩
  have hthird : (finish {} xs).Live "1" 2 := ⟨{ gateId := "1" }, by decide, rfl, rfl⟩
  refine ⟨trace_path next {} twice, hsecond, hthird, fun h => ?_⟩
  cases h.single "1" 1 2 hsecond hthird

end Steps

end ParkIt.Frontend.ParkingWebSocket
