import ParkIt.Sockets.Manager

/-! What the connection manager keeps, and whom its calls reach. -/
namespace ParkIt.Sockets

open Effects Tasks Transition

def progress (t : ManagerTask) : Round :=
  t.past.foldl (fun g e => g.next e.op e.ans) t.cause.round

/-- No call is in the middle of taking a socket out, or its gate is as it has found it. -/
structure Steady (r : Registry) (g : Round) : Prop where
  present : ∀ gate b, g.pending = some (gate, b) → gate ∈ r
  empty : ∀ gate, g.pending = some (gate, true) → r.registered gate = []
  met : g.missed = false

theorem steady_idle {r : Registry} {g : Round} (hidle : g.pending = none)
    (hmet : g.missed = false) : Steady r g := by
  refine ⟨fun gate b hp => ?_, fun gate hp => ?_, hmet⟩
  · cases hidle.symm.trans hp
  · cases hidle.symm.trans hp

structure ManagerSound (s : ManagerSys) : Prop where
  obeys : Obeys managerProtocol Call.round (fun _ g => g.Completed) (fun c g => g.Failed c) s
  busy : OneBusy managerLoop s
  sets : ∀ gate, (s.shared.registered gate).Nodup
  steady : Each (fun r _ t => Steady r (progress t)) s
  /-- An empty set is only there until the call that has emptied it looks at it. -/
  filled : ∀ gate, s.shared.lookup gate = some [] →
    ∃ i t b, s.task i = some t ∧ (progress t).pending = some (gate, b)

section Tasks
variable {s s' : ManagerSys} {i j : Nat} {o : ManagerOp} {a : o.Ans} {t t' u : ManagerTask}

theorem progress_took (h : Took managerLoop s s' i o a t t') :
    progress t' = (progress t).next o a :=
  h.note managerProtocol Call.round

theorem ManagerSound.allow (hs : ManagerSound s) (h : Took managerLoop s s' i o a t t') :
    (progress t).allow o :=
  h.allowed hs.obeys

/-- A call that has just taken a socket out goes on at once. -/
theorem busy_of_pending (hs : ManagerSound s) (hi : s.task i = some t)
    (hpending : (progress t).pending ≠ none) : managerLoop.busy t.rest = true := by
  have hfollows := hs.obeys i t hi
  cases hrest : t.rest with
  | pure x =>
    rw [hrest] at hfollows
    have hcompleted : (progress t).Completed := hfollows
    exact absurd hcompleted.pending hpending
  | throw e =>
    rw [hrest] at hfollows
    have hfailed : (progress t).Failed t.cause := hfollows
    have hmet := (hs.steady i t hi).met
    cases hcause : t.cause with
    | connect gate ws =>
      rw [hcause] at hfailed
      exact absurd hfailed.1 hpending
    | disconnect gate ws | sendToGate gate message | broadcast message =>
      rw [hcause] at hfailed
      have hmissed : (progress t).missed = true := hfailed
      exact Bool.noConfusion (hmet.symm.trans hmissed)
  | call o k =>
    rw [hrest] at hfollows
    have hallow : (progress t).allow o := hfollows.1
    cases o with
    | accept ws => exact absurd hallow hpending
    | sendText ws message => exact absurd hallow.1 hpending
    | _ => rfl

/-- While a call goes on, no other one is in the middle of taking a socket out. -/
theorem only_pending (hs : ManagerSound s) (h : Took managerLoop s s' i o a t t')
    (hj : s.task j = some u) (hpending : (progress u).pending ≠ none) : j = i := by
  by_contra hne
  exact Bool.noConfusion ((h.idle hs.busy hj hne).symm.trans (busy_of_pending hs hj hpending))

/-- A set that is empty while a call goes on has been emptied by that call. -/
theorem pending_of_empty (hs : ManagerSound s) (h : Took managerLoop s s' i o a t t')
    {gate : Gate} (hempty : s.shared.lookup gate = some []) :
    ∃ b, (progress t).pending = some (gate, b) := by
  obtain ⟨j, u, b, hj, hb⟩ := hs.filled gate hempty
  obtain rfl := only_pending hs h hj (by rw [hb]; exact Option.some_ne_none _)
  obtain rfl := Option.some.inj (hj.symm.trans h.before)
  exact ⟨b, hb⟩

/-- Between its waits the manager keeps no gate without sockets. -/
theorem filled_of_idle (hs : ManagerSound s) (hidle : s.running = none) (gate : Gate) :
    s.shared.lookup gate ≠ some [] := by
  intro hempty
  obtain ⟨i, t, b, hi, hb⟩ := hs.filled gate hempty
  have hbusy := busy_of_pending hs hi (by rw [hb]; exact Option.some_ne_none _)
  cases hidle.symm.trans (hs.busy i t hi hbusy)

end Tasks

section Registries
variable {r r' : Registry} {gate gate' : Gate} {ws ws' : Socket} {set : List Socket}
  {x : Registry.Choice}

theorem registered_insert : Registry.registered (r.insert gate set) gate' =
    if gate' = gate then set else r.registered gate' := by
  split
  · rename_i hgate
    rw [hgate, Registry.registered, AList.lookup_insert]
    rfl
  · rename_i hgate
    rw [Registry.registered, AList.lookup_insert_ne hgate]
    rfl

theorem registered_erase : Registry.registered (r.erase gate) gate' =
    if gate' = gate then [] else r.registered gate' := by
  split
  · rename_i hgate
    rw [hgate, Registry.registered, AList.lookup_erase]
    rfl
  · rename_i hgate
    rw [Registry.registered, AList.lookup_erase_ne hgate]
    rfl

theorem mem_registered_add :
    ws ∈ Registry.registered (r.insert gate' ((r.registered gate').insert ws')) gate ↔
      gate' = gate ∧ ws' = ws ∨ ws ∈ r.registered gate := by
  rw [registered_insert]
  by_cases hgate : gate = gate'
  · subst hgate
    rw [if_pos rfl, List.mem_insert_iff]
    simp only [true_and, eq_comm]
  · simp [hgate, Ne.symm hgate]

theorem mem_registered_discard :
    ws ∈ Registry.registered (r.insert gate' ((r.registered gate').filter (· ≠ ws'))) gate ↔
      ¬ (gate' = gate ∧ ws' = ws) ∧ ws ∈ r.registered gate := by
  rw [registered_insert]
  by_cases hgate : gate = gate'
  · subst hgate
    rw [if_pos rfl, List.mem_filter, decide_eq_true_iff, and_comm]
    simp only [true_and, ne_eq, eq_comm]
  · simp [hgate, Ne.symm hgate]

/-- The look at a gate without a set gives it an empty one. -/
theorem registered_size :
    Registry.registered (r.insert gate' (r.registered gate')) gate = r.registered gate := by
  rw [registered_insert]
  split
  · rename_i hgate
    rw [hgate]
  · rfl

theorem sockets_perm {a : List Socket} (h : Registry.perform (.sockets gate) x r = (a, r')) :
    a.Perm (r.registered gate) := by
  have ha := congrArg Prod.fst h
  simp only [Registry.perform] at ha
  split at ha
  · exact ha ▸ ‹_›
  · exact ha ▸ List.Perm.refl _

theorem gates_perm {a : List Gate} (h : Registry.perform .gates x r = (a, r')) :
    a.Perm r.keys := by
  have ha := congrArg Prod.fst h
  simp only [Registry.perform] at ha
  split at ha
  · exact ha ▸ ‹_›
  · exact ha ▸ List.Perm.refl _

end Registries

section Steps
variable {s s' : ManagerSys} {i j : Nat} {o : ManagerOp} {a : o.Ans} {t t' u : ManagerTask}
  {l : ManagerLabel}

theorem took_effect (h : Took managerLoop s s' i o a t t') :
    ∃ x, Registry.perform o x s.shared = (a, s'.shared) :=
  h.effect

theorem sets_go (hs : ManagerSound s) (h : Took managerLoop s s' i o a t t') (gate : Gate) :
    (s'.shared.registered gate).Nodup := by
  obtain ⟨x, hx⟩ := took_effect h
  have hsets := hs.sets
  generalize s'.shared = r at hx
  generalize s.shared = r₀ at hx hsets
  have hinsert : ∀ gate' set, set.Nodup →
      (Registry.registered (r₀.insert gate' set) gate).Nodup := by
    intro gate' set hset
    rw [registered_insert]
    split
    · exact hset
    · exact hsets gate
  cases o with
  | add gate' ws => cases hx; exact hinsert gate' _ (hsets gate').insert
  | discard gate' ws => cases hx; exact hinsert gate' _ ((hsets gate').filter _)
  | size gate' => cases hx; exact hinsert gate' _ (hsets gate')
  | delete gate' =>
    simp only [Registry.perform] at hx
    split at hx
    · cases hx
      rw [registered_erase]
      split
      · exact List.nodup_nil
      · exact hsets gate
    · cases hx
      exact hsets gate
  | _ => cases hx; exact hsets gate

theorem steady_go (hs : ManagerSound s) (h : Took managerLoop s s' i o a t t') :
    Steady s'.shared (progress t') := by
  obtain ⟨hpresent, hempty, hmet⟩ := hs.steady i t h.before
  have hallow := hs.allow h
  obtain ⟨x, hx⟩ := took_effect h
  rw [progress_took h]
  generalize progress t = g at *
  generalize s'.shared = r' at *
  cases o with
  | accept ws => exact steady_idle hallow hmet
  | add gate ws => exact steady_idle hallow hmet
  | discard gate ws =>
    cases hx
    refine ⟨fun gate' b hp => ?_, fun gate' hp => ?_, hmet⟩
    · cases hp
      exact (AList.mem_insert _).mpr (Or.inl rfl)
    · cases hp
  | size gate =>
    cases hx
    have hnext : ∀ gate' b, (g.next (.size gate) (s.shared.registered gate).length).pending =
        some (gate', b) → gate' = gate ∧ s.shared.registered gate = [] := by
      intro gate' b hp
      change (if (s.shared.registered gate).length = 0 then some (gate, true) else none) = _ at hp
      split at hp
      · rename_i hzero
        cases hp
        exact ⟨rfl, List.length_eq_zero_iff.mp hzero⟩
      · cases hp
    refine ⟨fun gate' b hp => ?_, fun gate' hp => ?_, hmet⟩
    · exact (AList.mem_insert _).mpr (Or.inl (hnext gate' b hp).1)
    · obtain ⟨rfl, hnil⟩ := hnext gate' true hp
      rw [registered_size]
      exact hnil
  | delete gate =>
    have hmem : gate ∈ s.shared := hpresent gate true hallow
    rw [Registry.perform, if_pos hmem] at hx
    cases hx
    refine ⟨fun gate' b hp => ?_, fun gate' hp => ?_, ?_⟩
    · cases hp
    · cases hp
    · change (g.missed || !true) = false
      rw [hmet]
      rfl
  | sockets gate => exact steady_idle hallow.1 hmet
  | gates => exact steady_idle hallow.1 hmet
  | sendText ws message => exact steady_idle hallow.1 hmet

theorem filled_go (hs : ManagerSound s) (h : Took managerLoop s s' i o a t t') {gate : Gate}
    (hempty : s'.shared.lookup gate = some []) : ∃ b, (progress t').pending = some (gate, b) := by
  have hpresent := (hs.steady i t h.before).present
  have hbefore : ∀ gate, s.shared.lookup gate = some [] →
      ∃ b, (progress t).pending = some (gate, b) := fun gate => pending_of_empty hs h
  have hallow := hs.allow h
  obtain ⟨x, hx⟩ := took_effect h
  rw [progress_took h]
  generalize progress t = g at *
  generalize s'.shared = r' at *
  have hidle : g.pending = none → s.shared.lookup gate ≠ some [] := by
    intro hnone hnil
    obtain ⟨b, hb⟩ := hbefore gate hnil
    cases hnone.symm.trans hb
  cases o with
  | accept ws => cases hx; exact absurd hempty (hidle hallow)
  | add gate' ws =>
    cases hx
    by_cases hgate : gate = gate'
    · subst hgate
      rw [AList.lookup_insert] at hempty
      have hnil : (s.shared.registered gate).insert ws = [] := Option.some.inj hempty
      exact absurd (hnil ▸ List.mem_insert_self) (List.not_mem_nil (a := ws))
    · rw [AList.lookup_insert_ne hgate] at hempty
      exact absurd hempty (hidle hallow)
  | discard gate' ws =>
    cases hx
    by_cases hgate : gate = gate'
    · subst hgate
      exact ⟨false, rfl⟩
    · rw [AList.lookup_insert_ne hgate] at hempty
      exact absurd hempty (hidle hallow.1)
  | size gate' =>
    cases hx
    by_cases hgate : gate = gate'
    · subst hgate
      rw [AList.lookup_insert] at hempty
      have hnil : s.shared.registered gate = [] := Option.some.inj hempty
      refine ⟨true, if_pos ?_⟩
      exact congrArg List.length hnil
    · rw [AList.lookup_insert_ne hgate] at hempty
      obtain ⟨b, hb⟩ := hbefore gate hempty
      cases hb.symm.trans hallow
      exact absurd rfl hgate
  | delete gate' =>
    have hmem : gate' ∈ s.shared := hpresent gate' true hallow
    rw [Registry.perform, if_pos hmem] at hx
    cases hx
    by_cases hgate : gate = gate'
    · subst hgate
      rw [AList.lookup_erase] at hempty
      cases hempty
    · rw [AList.lookup_erase_ne hgate] at hempty
      obtain ⟨b, hb⟩ := hbefore gate hempty
      cases hb.symm.trans hallow
      exact absurd rfl hgate
  | sockets gate' => cases hx; exact absurd hempty (hidle hallow.1)
  | gates => cases hx; exact absurd hempty (hidle hallow.1)
  | sendText ws message => cases hx; exact absurd hempty (hidle hallow.1)

theorem steady_start (c : Call) (r : Registry) : Steady r (progress ⟨c, c.code, []⟩) := by
  cases c <;> exact steady_idle rfl rfl

/-- A call that does not make the step is not in the middle of taking a socket out. -/
theorem idle_other (hs : ManagerSound s) (h : ManagerStep s l s') (hactor : l.actor ≠ some j)
    (hj : s.task j = some u) : (progress u).pending = none := by
  by_contra hpending
  have hrunning := hs.busy j u hj (busy_of_pending hs hj hpending)
  cases l with
  | start i c =>
    cases h with
    | start _ hidle _ => cases hidle.symm.trans hrunning
  | go i e =>
    obtain ⟨t, t', ht⟩ := took h
    exact hactor (congrArg some (only_pending hs ht hj hpending).symm)
  | stop i =>
    cases h with
    | stop _ hidle _ => cases hidle.symm.trans hrunning
  | outside =>
    cases h with
    | outside hout => exact hout.elim

theorem managerSound_step (hs : ManagerSound s) (h : ManagerStep s l s') : ManagerSound s' := by
  have hstep := h
  have hkept : s.running = none → s'.shared = s.shared →
      (∀ gate, (s'.shared.registered gate).Nodup) ∧
        ∀ gate, s'.shared.lookup gate = some [] →
          ∃ i t b, s'.task i = some t ∧ (progress t).pending = some (gate, b) := by
    intro hidle hsame
    rw [hsame]
    exact ⟨hs.sets, fun gate hempty => absurd hempty (filled_of_idle hs hidle gate)⟩
  have hshared : (∀ gate, (s'.shared.registered gate).Nodup) ∧
      ∀ gate, s'.shared.lookup gate = some [] →
        ∃ i t b, s'.task i = some t ∧ (progress t).pending = some (gate, b) := by
    cases l with
    | start i c =>
      cases h with
      | start _ hidle hsh =>
        cases hsh
        exact hkept hidle rfl
    | go i e =>
      obtain ⟨o, a⟩ := e
      obtain ⟨t, t', ht⟩ := took h
      refine ⟨sets_go hs ht, fun gate hempty => ?_⟩
      obtain ⟨b, hb⟩ := filled_go hs ht hempty
      exact ⟨i, t', b, ht.after, hb⟩
    | stop i =>
      cases h with
      | stop _ hidle _ => exact hkept hidle rfl
    | outside =>
      cases h with
      | outside hout => exact hout.elim
  refine ⟨obeys_step code_follows (fun _ _ _ _ => trivial) hstep hs.obeys,
    oneBusy_step hstep hs.busy, hshared.1, ?_, hshared.2⟩
  refine each_step hstep hs.steady (fun i c _ _ => steady_start c _)
    (fun i o a t t' _ ht _ => steady_go hs ht) fun j u hactor hj hu => ?_
  exact steady_idle (idle_other hs hstep hactor hj) hu.met

theorem managerSound_initial : ManagerSound ManagerSys.initial := by
  refine ⟨fun i t ht => ?_, fun i t ht => ?_, fun gate => ?_, fun i t ht => ?_, fun gate h => ?_⟩
  · cases ht
  · cases ht
  · exact List.nodup_nil
  · cases ht
  · cases h

/-- No call raises, but for a connection that could not be accepted. -/
theorem raises_connect (hs : ManagerSound s) (hi : s.task i = some t) {e : ManagerError}
    (hrest : t.rest = .throw e) :
    (∃ gate ws, t.cause = .connect gate ws) ∧ (progress t).refused = true := by
  have hfollows := hs.obeys i t hi
  rw [hrest] at hfollows
  have hfailed : (progress t).Failed t.cause := hfollows
  cases hcause : t.cause with
  | connect gate ws =>
    rw [hcause] at hfailed
    exact ⟨⟨gate, ws, rfl⟩, hfailed.2⟩
  | disconnect gate ws | sendToGate gate message | broadcast message =>
    rw [hcause] at hfailed
    have hmissed : (progress t).missed = true := hfailed
    exact Bool.noConfusion ((hs.steady i t hi).met.symm.trans hmissed)

end Steps

/-- Whether the socket is registered for the gate after a step. -/
def stands (gate : Gate) (ws : Socket) (before : Bool) (l : ManagerLabel) : Bool :=
  match l with
  | .go _ ⟨.add gate' ws', _⟩ => if gate' = gate ∧ ws' = ws then true else before
  | .go _ ⟨.discard gate' ws', _⟩ => if gate' = gate ∧ ws' = ws then false else before
  | _ => before

/-- The socket has been connected under the gate, and has not been disconnected since. -/
def standing (gate : Gate) (ws : Socket) (ls : List ManagerLabel) : Bool :=
  ls.foldl (stands gate ws) false

def sent? : Event ManagerOp ManagerOp.Ans → Option (Socket × String)
  | ⟨.sendText ws message, _⟩ => some (ws, message)
  | _ => none

def removed? : Event ManagerOp ManagerOp.Ans → Option (Gate × Socket)
  | ⟨.discard gate ws, _⟩ => some (gate, ws)
  | _ => none

/-- What a call has sent, and whom it has taken out of which set. -/
def sends (past : List (Event ManagerOp ManagerOp.Ans)) : List (Socket × String) :=
  past.filterMap sent?

def removals (past : List (Event ManagerOp ManagerOp.Ans)) : List (Gate × Socket) :=
  past.filterMap removed?

/-- The sockets that a call could not send to, with the gate whose sockets it had asked for. -/
def failuresFrom : Gate → List (Event ManagerOp ManagerOp.Ans) → List (Gate × Socket)
  | _, [] => []
  | _, ⟨.sockets gate, _⟩ :: past => failuresFrom gate past
  | gate, ⟨.sendText ws _, sent⟩ :: past =>
    if sent then failuresFrom gate past else (gate, ws) :: failuresFrom gate past
  | gate, _ :: past => failuresFrom gate past

def failures (past : List (Event ManagerOp ManagerOp.Ans)) : List (Gate × Socket) :=
  failuresFrom "" past

section Standing
variable {s s' : ManagerSys} {l : ManagerLabel} {gate : Gate} {ws : Socket}

theorem stands_step (hs : ManagerSound s) (h : ManagerStep s l s') :
    decide (ws ∈ s'.shared.registered gate) =
      stands gate ws (decide (ws ∈ s.shared.registered gate)) l := by
  cases l with
  | start i c =>
    cases h with
    | start _ _ hsh => cases hsh; rfl
  | stop i =>
    cases h with
    | stop _ _ _ => rfl
  | outside =>
    cases h with
    | outside hout => exact hout.elim
  | go i e =>
    obtain ⟨o, a⟩ := e
    obtain ⟨t, t', ht⟩ := took h
    have hallow := hs.allow ht
    have hsteady := hs.steady i t ht.before
    obtain ⟨x, hx⟩ := took_effect ht
    generalize s'.shared = r' at *
    cases o with
    | add gate' ws' =>
      cases hx
      simp only [stands, mem_registered_add]
      by_cases hsame : gate' = gate ∧ ws' = ws
      · simp only [hsame, and_self, true_or, decide_true, if_true]
      · simp only [hsame, false_or, if_false]
    | discard gate' ws' =>
      cases hx
      simp only [stands, mem_registered_discard]
      by_cases hsame : gate' = gate ∧ ws' = ws
      · simp only [hsame, and_self, not_true, false_and, decide_false, if_true]
      · simp only [hsame, not_false_eq_true, true_and, if_false]
    | size gate' =>
      cases hx
      rw [registered_size]
      rfl
    | delete gate' =>
      have hmem : gate' ∈ s.shared := hsteady.present gate' true hallow
      rw [Registry.perform, if_pos hmem] at hx
      cases hx
      rw [registered_erase]
      split
      · rename_i hgate
        rw [hgate, hsteady.empty gate' hallow]
        rfl
      · rfl
    | _ => cases hx; rfl

theorem standing_run {xs : List (ManagerLabel × ManagerSys)}
    (h : Path ManagerStep ManagerSys.initial xs) :
    ws ∈ (finish ManagerSys.initial xs).shared.registered gate ↔
      standing gate ws (xs.map Prod.fst) = true := by
  have hstart : ManagerSound ManagerSys.initial ∧
      decide (ws ∈ ManagerSys.initial.shared.registered gate) = standing gate ws [] :=
    ⟨managerSound_initial, rfl⟩
  have hrun := h.history (Q := fun ls s => ManagerSound s ∧
    decide (ws ∈ s.shared.registered gate) = standing gate ws ls)
    (fun ls s l s' hstep hs => ⟨managerSound_step hs.1 hstep, ?_⟩) hstart
  · have heq := hrun.2
    rw [List.nil_append] at heq
    exact heq ▸ decide_eq_true_iff.symm
  · rw [stands_step hs.1 hstep, hs.2, standing, standing, List.foldl_append]
    rfl

end Standing

/-- The socket is registered for this gate and for no other one. -/
def OnlyUnder (gate : Gate) (ws : Socket) (r : Registry) : Prop :=
  ws ∈ r.registered gate ∧ ∀ gate' ∈ r.keys, ws ∈ r.registered gate' → gate' = gate

instance (gate : Gate) (ws : Socket) (r : Registry) : Decidable (OnlyUnder gate ws r) :=
  inferInstanceAs (Decidable (_ ∧ _))

def sentTo (ws : Socket) (g : Round) : List (Socket × String) := g.sent.filter (·.1 = ws)

/-- The call has still to come to the gate, or to the socket, or has sent to it once. -/
structure Serves (gate : Gate) (ws : Socket) (message : String) (g : Round) : Prop where
  fresh : g.gates = none → g.todo = [] ∧ sentTo ws g = []
  distinct : ∀ rest, g.gates = some rest → rest.Nodup
  ahead : ∀ rest, g.gates = some rest → gate ∈ rest → ws ∉ g.todo ∧ sentTo ws g = []
  past : ∀ rest, g.gates = some rest → gate ∉ rest →
    ws ∈ g.todo ∧ g.todo.Nodup ∧ sentTo ws g = [] ∨
      ws ∉ g.todo ∧ sentTo ws g = [(ws, message)]

/-- A call that sends to the sockets of the gate. -/
def SendsTo (c : Call) (gate : Gate) (message : String) : Prop :=
  c = .sendToGate gate message ∨ c = .broadcast message

section Delivery
variable {s s' : ManagerSys} {l : ManagerLabel} {i : Nat} {o : ManagerOp} {a : o.Ans}
  {t t' : ManagerTask} {gate : Gate} {ws : Socket} {message : String} {c : Call}

theorem serves_start (h : SendsTo c gate message) : Serves gate ws message c.round := by
  rcases h with rfl | rfl
  · refine ⟨fun h => ?_, fun rest h => ?_, fun rest h _ => ?_, fun rest h hgate => ?_⟩
    · cases h
    · cases h
      exact List.nodup_singleton gate
    · exact ⟨List.not_mem_nil, rfl⟩
    · cases h
      exact absurd List.mem_cons_self hgate
  · refine ⟨fun _ => ⟨rfl, rfl⟩, fun rest h => ?_, fun rest h => ?_, fun rest h => ?_⟩ <;> cases h

theorem mem_keys_of_registered {r : Registry} (h : ws ∈ r.registered gate) : gate ∈ r.keys := by
  refine AList.mem_keys.mp (AList.lookup_isSome.mp ?_)
  by_contra hnone
  rw [Registry.registered, Option.not_isSome_iff_eq_none.mp hnone] at h
  exact List.not_mem_nil h

theorem OnlyUnder.iff {r : Registry} (h : OnlyUnder gate ws r) (gate' : Gate) :
    ws ∈ r.registered gate' ↔ gate' = gate :=
  ⟨fun hws => h.2 gate' (mem_keys_of_registered hws) hws, fun heq => heq ▸ h.1⟩

theorem progress_message (t : ManagerTask) : (progress t).message = t.cause.round.message :=
  past_const Round.message (fun _ o _ => by cases o <;> rfl) t.past _

section Rounds
variable {g : Round}

/-- The broadcast asks for the gates, and finds that of the socket among them. -/
theorem Serves.enter {found : List Gate} (hgates : g.gates = none) (hfound : found.Nodup)
    (hgate : gate ∈ found) (h : Serves gate ws message g) :
    Serves gate ws message (g.next .gates found) := by
  obtain ⟨htodo, hsent⟩ := h.fresh hgates
  refine ⟨fun h => ?_, fun l hl => ?_, fun l hl _ => ?_, fun l hl hnot => ?_⟩
  · cases h
  all_goals obtain rfl := Option.some.inj hl
  · exact hfound
  · exact ⟨htodo ▸ List.not_mem_nil, hsent⟩
  · exact absurd hgate hnot

/-- The call comes to a gate, whose sockets it finds, and finds the socket at its own gate only. -/
theorem Serves.visit {gate' : Gate} {rest : List Gate} {found : List Socket} (htodo : g.todo = [])
    (hgates : g.gates = some (gate' :: rest)) (hfound : found.Nodup)
    (hws : ws ∈ found ↔ gate' = gate) (h : Serves gate ws message g) :
    Serves gate ws message (g.next (.sockets gate') found) := by
  have hnext : (g.next (.sockets gate') found).gates = some rest :=
    congrArg (Option.map List.tail) hgates
  obtain ⟨hnew, hrest⟩ := List.nodup_cons.mp (h.distinct _ hgates)
  refine ⟨fun hnone => ?_, fun l hl => ?_, fun l hl hgate => ?_, fun l hl hgate => ?_⟩
  · cases hnext.symm.trans hnone
  all_goals obtain rfl := Option.some.inj (hnext.symm.trans hl)
  · exact hrest
  · refine ⟨fun hmem => ?_, (h.ahead _ hgates (List.mem_cons_of_mem _ hgate)).2⟩
    exact hnew (hws.mp hmem ▸ hgate)
  · by_cases heq : gate' = gate
    · exact Or.inl ⟨hws.mpr heq, hfound, (h.ahead _ hgates (heq ▸ List.mem_cons_self)).2⟩
    · have hpast : gate ∉ gate' :: rest := fun hmem =>
        (List.mem_cons.mp hmem).elim (fun h => heq h.symm) hgate
      rcases h.past _ hgates hpast with ⟨hmem, -⟩ | ⟨-, hsent⟩
      · rw [htodo] at hmem
        exact absurd hmem List.not_mem_nil
      · exact Or.inr ⟨fun hmem => heq (hws.mp hmem), hsent⟩

theorem sentTo_sendText {ws' : Socket} {ok : Bool} :
    sentTo ws (g.next (.sendText ws' message) ok) =
      sentTo ws g ++ if ws' = ws then [(ws', message)] else [] := by
  change (g.sent ++ [(ws', message)]).filter _ = _
  rw [List.filter_append]
  by_cases hws : ws' = ws <;> simp [sentTo, hws]

theorem Serves.send {ws' : Socket} {ok : Bool} {rest : List Socket} (htodo : g.todo = ws' :: rest)
    (h : Serves gate ws message g) :
    Serves gate ws message (g.next (.sendText ws' message) ok) := by
  have hnext : (g.next (.sendText ws' message) ok).todo = rest := congrArg List.tail htodo
  have hother : ws' ≠ ws → sentTo ws (g.next (.sendText ws' message) ok) = sentTo ws g := by
    intro hne
    rw [sentTo_sendText, if_neg hne, List.append_nil]
  refine ⟨fun hnone => ?_, h.distinct, fun l hl hgate => ?_, fun l hl hgate => ?_⟩
  · cases htodo.symm.trans (h.fresh hnone).1
  · obtain ⟨hnot, hempty⟩ := h.ahead l hl hgate
    rw [htodo, List.mem_cons, not_or] at hnot
    rw [hnext, hother (Ne.symm hnot.1)]
    exact ⟨hnot.2, hempty⟩
  · rw [hnext]
    rcases h.past l hl hgate with ⟨hmem, hnodup, hempty⟩ | ⟨hnot, hone⟩
    · rw [htodo] at hmem hnodup
      obtain ⟨hnew, hrest⟩ := List.nodup_cons.mp hnodup
      by_cases hws : ws' = ws
      · subst hws
        refine Or.inr ⟨hnew, ?_⟩
        rw [sentTo_sendText, hempty, if_pos rfl]
        rfl
      · refine Or.inl ⟨(List.mem_cons.mp hmem).resolve_left (Ne.symm hws), hrest, ?_⟩
        rw [hother hws]
        exact hempty
    · rw [htodo, List.mem_cons, not_or] at hnot
      rw [hother (Ne.symm hnot.1)]
      exact Or.inr ⟨hnot.2, hone⟩

end Rounds

theorem serves_next (hs : ManagerSound s) (h : Took managerLoop s s' i o a t t')
    (hc : SendsTo t.cause gate message) (honly : OnlyUnder gate ws s.shared)
    (hg : Serves gate ws message (progress t)) : Serves gate ws message (progress t') := by
  have hallow := hs.allow h
  have hmessage : (progress t).message = message := by
    rw [progress_message]
    rcases hc with hc | hc <;> rw [hc] <;> rfl
  obtain ⟨x, hx⟩ := took_effect h
  rw [progress_took h]
  generalize progress t = g at *
  cases o with
  | sockets gate' =>
    obtain ⟨-, htodo, rest, hgates⟩ := hallow
    have hperm := sockets_perm hx
    exact hg.visit htodo hgates (hperm.nodup_iff.mpr (hs.sets gate'))
      (hperm.mem_iff.trans (honly.iff gate'))
  | gates =>
    have hperm := gates_perm hx
    exact hg.enter hallow.2 (hperm.nodup_iff.mpr s.shared.keys_nodup)
      (hperm.mem_iff.mpr (mem_keys_of_registered honly.1))
  | sendText ws' message' =>
    obtain ⟨-, rfl, rest, htodo⟩ := hallow
    rw [hmessage]
    exact hg.send htodo
  | _ => exact ⟨hg.fresh, hg.distinct, hg.ahead, hg.past⟩

theorem progress_sent (t : ManagerTask) : (progress t).sent = sends t.past := by
  have hnil : t.cause.round.sent = [] := by cases t.cause <;> rfl
  refine (past_log Round.sent sent? (fun g e => ?_) t.past _).trans (by rw [hnil]; rfl)
  obtain ⟨o, a⟩ := e
  cases o <;> simp [Round.next, sent?]

theorem progress_removed (t : ManagerTask) : (progress t).removed = removals t.past := by
  have hnil : t.cause.round.removed = [] := by cases t.cause <;> rfl
  refine (past_log Round.removed removed? (fun g e => ?_) t.past _).trans (by rw [hnil]; rfl)
  obtain ⟨o, a⟩ := e
  cases o <;> simp [Round.next, removed?]

theorem progress_due (t : ManagerTask) :
    (progress t).due = t.cause.round.due ++ failures t.past := by
  have hpast : ∀ (past : List (Event ManagerOp ManagerOp.Ans)) (g : Round),
      (past.foldl (fun g e => g.next e.op e.ans) g).due = g.due ++ failuresFrom g.here past := by
    intro past
    induction past with
    | nil => exact fun g => (List.append_nil _).symm
    | cons e past ih =>
      intro g
      obtain ⟨o, a⟩ := e
      rw [List.foldl_cons, ih]
      cases o with
      | sendText ws message =>
        rcases Bool.eq_false_or_eq_true a with ha | ha <;>
          simp [Round.next, failuresFrom, ha]
      | _ => rfl
  have hhere : t.cause.round.here = "" := by cases t.cause <;> rfl
  rw [progress, hpast, hhere]
  rfl

theorem refused_accept (t : ManagerTask) (h : (progress t).refused = true) :
    ∃ ws, (⟨.accept ws, false⟩ : Event ManagerOp ManagerOp.Ans) ∈ t.past := by
  have hpast : ∀ (past : List (Event ManagerOp ManagerOp.Ans)) (g : Round),
      (past.foldl (fun g e => g.next e.op e.ans) g).refused = true →
      g.refused = true ∨ ∃ ws, (⟨.accept ws, false⟩ : Event ManagerOp ManagerOp.Ans) ∈ past := by
    intro past
    induction past with
    | nil => exact fun g h => Or.inl h
    | cons e past ih =>
      intro g h
      obtain ⟨o, a⟩ := e
      rcases ih _ h with h | ⟨ws, hws⟩
      · cases o with
        | accept ws =>
          rcases Bool.eq_false_or_eq_true a with ha | ha
          · have h : (g.refused || !a) = true := h
            rw [ha, Bool.not_true, Bool.or_false] at h
            exact Or.inl h
          · exact Or.inr ⟨ws, ha ▸ List.mem_cons_self⟩
        | _ => exact Or.inl h
      · exact Or.inr ⟨ws, List.mem_cons_of_mem _ hws⟩
  refine (hpast t.past _ h).resolve_left fun hstart => ?_
  have hnone : t.cause.round.refused = false := by cases t.cause <;> rfl
  exact Bool.noConfusion (hnone.symm.trans hstart)

/-- The task is that of the call, and serves the socket of the gate. -/
def Serving (i : Nat) (c : Call) (gate : Gate) (ws : Socket) (message : String)
    (s : ManagerSys) : Prop :=
  ∃ t, s.task i = some t ∧ t.cause = c ∧ Serves gate ws message (progress t)

theorem serving_step (hs : ManagerSound s) (h : ManagerStep s l s')
    (hc : SendsTo c gate message) (hstays : (s'.task i).isSome = true)
    (honly : OnlyUnder gate ws s.shared) (hserving : Serving i c gate ws message s) :
    Serving i c gate ws message s' := by
  obtain ⟨t, hi, hcause, hg⟩ := hserving
  rcases task_stays h hi hstays with hi' | ⟨o, a, t', -, ht⟩
  · exact ⟨t, hi', hcause, hg⟩
  · exact ⟨t', ht.after, ht.cause.trans hcause, serves_next hs ht (hcause ▸ hc) honly hg⟩

theorem cause_step (h : ManagerStep s l s') (hstays : (s'.task i).isSome = true)
    (hcause : ∃ t, s.task i = some t ∧ t.cause = c) :
    ∃ t, s'.task i = some t ∧ t.cause = c := by
  obtain ⟨t, hi, hcause⟩ := hcause
  rcases task_stays h hi hstays with hi' | ⟨o, a, t', -, ht⟩
  · exact ⟨t, hi', hcause⟩
  · exact ⟨t', ht.after, ht.cause.trans hcause⟩

/-- A call that sends and has ended has come back. -/
theorem completed_of_ended (hs : ManagerSound s) (hi : s.task i = some t)
    (hc : SendsTo t.cause gate message) (hended : ended t.rest = true) :
    (progress t).Completed := by
  have hfollows := hs.obeys i t hi
  cases hrest : t.rest with
  | pure u =>
    rw [hrest] at hfollows
    exact hfollows
  | throw e =>
    obtain ⟨⟨gate', ws, hcause⟩, -⟩ := raises_connect hs hi hrest
    rcases hc with hc | hc <;> cases hcause.symm.trans hc
  | call o k =>
    rw [hrest] at hended
    cases hended

end Delivery

/-- What a call has done at its end: it has sent once to each socket that has been registered for
one of its gates, and for no other one, all the time, and it has disconnected the sockets that it
could not send to. -/
structure Carried (c : Call) (s : ManagerSys) (xs : List (ManagerLabel × ManagerSys))
    (t : ManagerTask) : Prop where
  delivered : ∀ gate ws message, SendsTo c gate message → OnlyUnder gate ws s.shared →
    Path (fun _ _ s' => OnlyUnder gate ws s'.shared) s xs →
    (sends t.past).filter (·.1 = ws) = [(ws, message)]
  removed : ∀ gate message, SendsTo c gate message → removals t.past = failures t.past

section Runs
variable {s : ManagerSys} {xs : List (ManagerLabel × ManagerSys)} {i : Nat} {c : Call}
  {gate : Gate} {ws : Socket} {message : String}

theorem managerSound_run (h : Path ManagerStep s xs) (hs : ManagerSound s) :
    ManagerSound (finish s xs) :=
  h.invariant (fun _ _ _ hstep hs => managerSound_step hs hstep) hs

theorem serving_run (h : Path ManagerStep s xs) (hc : SendsTo c gate message)
    (hstays : Path (fun _ _ s' => (s'.task i).isSome = true) s xs)
    (honly : OnlyUnder gate ws s.shared)
    (hkeeps : Path (fun _ _ s' => OnlyUnder gate ws s'.shared) s xs) (hs : ManagerSound s)
    (hserving : Serving i c gate ws message s) :
    Serving i c gate ws message (finish s xs) := by
  refine (((h.and hstays).and hkeeps).invariant (P := fun s => ManagerSound s ∧
    OnlyUnder gate ws s.shared ∧ Serving i c gate ws message s)
    (fun s _ s' hstep hs => ?_) ⟨hs, honly, hserving⟩).2.2
  obtain ⟨⟨hstep, hstay⟩, hkeep⟩ := hstep
  exact ⟨managerSound_step hs.1 hstep, hkeep, serving_step hs.1 hstep hc hstay hs.2.1 hs.2.2⟩

/-- The registry and the calls of the manager, in every run. -/
theorem registry_kept (h : Path ManagerStep ManagerSys.initial xs) :
    (∀ i t e, (finish ManagerSys.initial xs).task i = some t → t.rest = .throw e →
      (∃ gate ws, t.cause = .connect gate ws) ∧
        ∃ ws, (⟨.accept ws, false⟩ : Event ManagerOp ManagerOp.Ans) ∈ t.past) ∧
    (∀ gate ws, ws ∈ (finish ManagerSys.initial xs).shared.registered gate ↔
      standing gate ws (xs.map Prod.fst) = true) ∧
    ((finish ManagerSys.initial xs).running = none →
      ∀ gate, (finish ManagerSys.initial xs).shared.lookup gate ≠ some []) ∧
    ∀ i c pre s mid t, xs = pre ++ (.start i c, s) :: mid →
      Path (fun _ _ s' => (s'.task i).isSome = true) s mid →
      (finish s mid).task i = some t → ended t.rest = true → Carried c s mid t := by
  have hend := managerSound_run h managerSound_initial
  refine ⟨fun i t e hi hrest => ?_, fun gate ws => standing_run h, filled_of_idle hend,
    fun i c pre s mid t heq hstays hi hended => ?_⟩
  · obtain ⟨hconnect, hrefused⟩ := raises_connect hend hi hrest
    exact ⟨hconnect, refused_accept t hrefused⟩
  · subst heq
    obtain ⟨hpre, hstart, hmid⟩ := path_append.mp h
    have hfirst := managerSound_step (managerSound_run hpre managerSound_initial) hstart
    have hbegun : s.task i = some ⟨c, c.code, []⟩ := by
      cases hstart with
      | start _ _ _ => exact task_set_self
    have hs := managerSound_run hmid hfirst
    have hcause := ((hmid.and hstays).invariant (P := fun s => ∃ t, s.task i = some t ∧ t.cause = c)
      (fun _ _ _ hstep hc => cause_step hstep.1 hstep.2 hc) ⟨_, hbegun, rfl⟩)
    obtain ⟨u, hu, hcause⟩ := hcause
    obtain rfl := Option.some.inj (hu.symm.trans hi)
    refine ⟨fun gate ws message hc honly hkeeps => ?_, fun gate message hc => ?_⟩
    · have hcompleted := completed_of_ended hs hi (hcause ▸ hc) hended
      obtain ⟨v, hv, -, hserves⟩ :=
        serving_run hmid hc hstays honly hkeeps hfirst ⟨_, hbegun, rfl, serves_start hc⟩
      obtain rfl := Option.some.inj (hv.symm.trans hi)
      rcases hserves.past [] hcompleted.gates List.not_mem_nil with ⟨hmem, -⟩ | ⟨-, hsent⟩
      · rw [hcompleted.todo] at hmem
        exact absurd hmem List.not_mem_nil
      · rw [← progress_sent]
        exact hsent
    · have hcompleted := completed_of_ended hs hi (hcause ▸ hc) hended
      have hdue : u.cause.round.due = [] := by
        rw [hcause]
        rcases hc with hc | hc <;> rw [hc] <;> rfl
      rw [← progress_removed, hcompleted.removed, progress_due, hdue, List.nil_append]

/-- Two sockets connect under a gate, and a message is sent to it; the send to the first one
fails. -/
def sending : List (Tasks.Turn Nat Call Registry Registry.Choice) :=
  [.start 0 (.connect "OUT1" 1), .go 0 {}, .go 0 {}, .start 1 (.connect "OUT1" 2), .go 1 {},
    .go 1 {}, .start 2 (.sendToGate "OUT1" "open"), .go 2 { sockets := [1, 2] },
    .go 2 { ok := false }]

def halfSent : List (ManagerLabel × ManagerSys) :=
  takeTurns managerLoop ManagerSys.initial sending

def allSent : List (ManagerLabel × ManagerSys) :=
  takeTurns managerLoop ManagerSys.initial (sending ++ List.replicate 3 (.go 2 {}))

def sentCall : ManagerTask :=
  ((finish ManagerSys.initial allSent).task 2).getD ⟨.broadcast "", .pure (), []⟩

/-- The state in which the message begins to be sent. -/
def sendState : ManagerSys := finish ManagerSys.initial (allSent.take 7)

theorem registry_kept_sent :
    (finish ManagerSys.initial allSent).shared.registered "OUT1" = [2] ∧
      standing "OUT1" 2 (allSent.map Prod.fst) = true ∧
      Carried (.sendToGate "OUT1" "open") sendState (allSent.drop 7) sentCall := by
  have hpath : Path ManagerStep ManagerSys.initial allSent :=
    takeTurns_path _ fun f hf => by simp [sending] at hf
  obtain ⟨-, hstanding, -, hcarried⟩ := registry_kept hpath
  have hregistered : (finish ManagerSys.initial allSent).shared.registered "OUT1" = [2] := by
    decide
  refine ⟨hregistered, (hstanding "OUT1" 2).mp (hregistered ▸ List.mem_cons_self), ?_⟩
  refine hcarried 2 _ (allSent.take 6) sendState _ sentCall rfl ?_ rfl rfl
  decide

/-- The same, where a socket that has been found failing counts as gone at once. -/
def standsFound (gate : Gate) (ws : Socket) (before : Bool) (l : ManagerLabel) : Bool :=
  match l with
  | .go _ ⟨.sendText ws' _, sent⟩ => if ws' = ws ∧ sent = false then false else before
  | _ => stands gate ws before l

theorem failing_registered :
    Path ManagerStep ManagerSys.initial halfSent ∧
      ¬ ∀ gate ws, ws ∈ (finish ManagerSys.initial halfSent).shared.registered gate ↔
        (halfSent.map Prod.fst).foldl (standsFound gate ws) false = true := by
  refine ⟨takeTurns_path _ fun f hf => by simp [sending] at hf, fun h => ?_⟩
  have hone := h "OUT1" 1
  revert hone
  decide

end Runs
end ParkIt.Sockets
