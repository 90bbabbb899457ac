import ParkIt.Bridge.Hub

/-! Whom a broadcast reaches while clients come and go. -/
namespace ParkIt.Bridge

open Effects Tasks Transition

def trail (t : HubTask) : Trail := t.past.foldl (fun g e => g.next e.op e.ans) t.cause.trail

/-- What a step does to the set of the clients. -/
inductive HubChange (l : HubLabel) (h h' : Hub) : Prop
  | kept : h'.table = h.table → h'.added = h.added → h.seen ⊆ h'.seen → HubChange l h h'
  | added {i : HubIx} {ws : Ws} {table : List (Option Ws)} : l = .go i ⟨.add ws, ()⟩ →
      h' = { h with table := h.place ws table, added := ws :: h.added } → HubChange l h h'
  | discarded {i : HubIx} {ws : Ws} : l = .go i ⟨.discard ws, ()⟩ →
      h' = { h with table := Slots.clear h.table ws } → HubChange l h h'

/-- The task of a broadcast, or that of a connection. -/
def HubIx.Runs : HubIx → HubCause → Prop
  | .broadcast _, .broadcast _ => True
  | .client ws, .client ws' => ws = ws'
  | _, _ => False

/-- The set is a table of distinct clients, all of whom have been added to it. -/
structure HubOk (lim : Limits) (h : Hub) : Prop where
  slots : h.table.length = lim.slots
  nodup : h.clients.Nodup
  room : h.clients.length ≤ lim.maxClients
  added : h.clients ⊆ h.added
  seen : h.added ⊆ h.seen

/-- What a task has found out about the clients. -/
structure Informed (lim : Limits) (h : Hub) (t : HubTask) : Prop where
  pending : ∀ ws, (trail t).self = some ws →
    ws ∈ h.seen ∧ ((trail t).decided = false → ws ∉ h.added)
  due : ∀ ws, (trail t).due = some ws → ws ∈ h.added
  failed : ∀ ws ∈ (trail t).failed, ws ∈ h.added
  gone : (trail t).self = none → ∀ ws ∈ (trail t).gone, ws ∈ h.added ∧ ws ∉ h.clients
  /-- Nothing happens between the look at the set and the decision on the connection. -/
  counted : (hubLoop lim).busy t.rest = true → (trail t).self ≠ none →
    (trail t).decided = false → ∀ n, (trail t).used = some n → h.clients.length = n

structure HubSound (lim : Limits) (s : HubSys) : Prop where
  obeys : Obeys (hubProtocol lim) HubCause.trail (fun c g => g.Finished lim c)
    (fun c g => g.Raised c) s
  busy : OneBusy (hubLoop lim) s
  hub : HubOk lim s.shared
  tasks : Each (fun h i t => i.Runs t.cause ∧ Informed lim h t) s

section Trails
variable {lim : Limits} {s s' : HubSys} {i : HubIx} {o : BridgeOp} {a : o.Ans} {t t' : HubTask}
  {g : Trail} {ws : Ws}

theorem trail_took (h : Took (hubLoop lim) s s' i o a t t') : trail t' = (trail t).next o a :=
  h.note (hubProtocol lim) HubCause.trail

theorem next_self : (g.next o a).self = g.self := by
  cases o <;> rfl

theorem undecided_of_next (h : (g.next o a).decided = false) : g.decided = false := by
  cases o with
  | add ws | close ws => cases h
  | _ => exact h

theorem trail_self (t : HubTask) : (trail t).self = t.cause.trail.self :=
  past_const Trail.self (fun _ o a => next_self (o := o) (a := a)) t.past _

theorem trail_payload (t : HubTask) : (trail t).payload = t.cause.trail.payload :=
  past_const Trail.payload (fun _ o _ => by cases o <;> rfl) t.past _

/-- The task of a connection. -/
theorem runs_client (hruns : i.Runs t.cause) (h : (trail t).self = some ws) :
    i = .client ws ∧ t.cause = .client ws := by
  rw [trail_self] at h
  cases hc : t.cause with
  | broadcast payload =>
    rw [hc] at h
    cases h
  | client ws' =>
    rw [hc] at h hruns
    cases h
    cases i with
    | broadcast n => exact hruns.elim
    | client ws' =>
      cases hruns
      exact ⟨rfl, rfl⟩

theorem HubSound.allow (hs : HubSound lim s) (h : Took (hubLoop lim) s s' i o a t t') :
    (trail t).allow lim o :=
  h.allowed hs.obeys

/-- A client that is added is a new one, and there is room for it. -/
theorem add_new {a : Unit} (hs : HubSound lim s)
    (h : Took (hubLoop lim) s s' i (.add ws) a t t') :
    i = .client ws ∧ ws ∉ s.shared.added ∧ ws ∈ s.shared.seen ∧
      s.shared.clients.length < lim.maxClients := by
  obtain ⟨hself, hdecided, n, hused, hlt⟩ := hs.allow h
  obtain ⟨hruns, hinformed⟩ := hs.tasks i t h.before
  obtain ⟨hseen, hadded⟩ := hinformed.pending ws hself
  refine ⟨(runs_client hruns hself).1, hadded hdecided, hseen, ?_⟩
  obtain ⟨k, hrest, -⟩ := h.asks
  have hbusy : (hubLoop lim).busy t.rest = true := by
    rw [hrest]
    rfl
  have hself' : (trail t).self ≠ none := by
    rw [hself]
    exact Option.some_ne_none ws
  rw [hinformed.counted hbusy hself' hdecided n hused]
  exact hlt

end Trails

section Tables
variable {lim : Limits} {h h' : Hub} {ws : Ws} {table : List (Option Ws)}

theorem clients_clear :
    Hub.clients { h with table := Slots.clear h.table ws } = h.clients.filter (· ≠ ws) :=
  Slots.clear_elements

theorem mem_clients_clear {u : Ws} :
    u ∈ Hub.clients { h with table := Slots.clear h.table ws } ↔ u ∈ h.clients ∧ u ≠ ws := by
  rw [clients_clear, List.mem_filter, decide_eq_true_iff]

/-- Where the set takes another client, its table has an empty slot. -/
theorem HubOk.free (hok : HubOk lim h) (hlt : h.clients.length < lim.maxClients) :
    h.clients.length < h.table.length := by
  have := lim.room
  have := hok.slots
  omega

variable (table) in
theorem place_new (hnew : ws ∉ h.clients) (hroom : h.clients.length < h.table.length) :
    (h.place ws table).length = h.table.length ∧
      (h.place ws table).reduceOption.Perm (ws :: h.clients) := by
  rw [Hub.place, if_neg hnew]
  split
  · assumption
  · exact ⟨Slots.fill_length hroom, Slots.fill_perm⟩

theorem hubOk_change {l : HubLabel} (hok : HubOk lim h) (hchange : HubChange l h h')
    (hnew : ∀ i ws, l = .go i ⟨.add ws, ()⟩ →
      ws ∉ h.added ∧ ws ∈ h.seen ∧ h.clients.length < lim.maxClients) : HubOk lim h' := by
  cases hchange with
  | kept htable hadded hseen =>
    have hclients : h'.clients = h.clients := congrArg List.reduceOption htable
    refine ⟨htable ▸ hok.slots, hclients ▸ hok.nodup, hclients ▸ hok.room, ?_, ?_⟩
    · rw [hclients, hadded]
      exact hok.added
    · rw [hadded]
      exact List.Subset.trans hok.seen hseen
  | @added i ws table hl hh =>
    subst hh
    obtain ⟨hws, hseen, hlt⟩ := hnew i ws hl
    have hold : ws ∉ h.clients := fun hmem => hws (hok.added hmem)
    obtain ⟨hlength, hperm⟩ := place_new table hold (hok.free hlt)
    refine ⟨hlength.trans hok.slots, ?_, ?_, ?_, ?_⟩
    · exact hperm.nodup_iff.mpr (List.nodup_cons.mpr ⟨hold, hok.nodup⟩)
    · exact (hperm.length_eq.trans_le hlt : _)
    · intro u hu
      rcases List.mem_cons.mp (hperm.mem_iff.mp hu) with rfl | hu
      · exact List.mem_cons_self
      · exact List.mem_cons_of_mem _ (hok.added hu)
    · intro u hu
      rcases List.mem_cons.mp hu with rfl | hu
      · exact hseen
      · exact hok.seen hu
  | @discarded i ws _ hh =>
    subst hh
    refine ⟨Slots.clear_length.trans hok.slots, ?_, ?_, ?_, hok.seen⟩
    · rw [clients_clear]
      exact hok.nodup.filter _
    · rw [clients_clear]
      exact (List.length_filter_le ..).trans hok.room
    · exact fun u hu => hok.added (mem_clients_clear.mp hu).1

end Tables

section Steps
variable {lim : Limits} {s s' : HubSys} {l : HubLabel}

theorem step_change (h : HubStep lim s l s') : HubChange l s.shared s'.shared := by
  cases h with
  | @start i c sh _ _ hsh =>
    change hubStarts i c s.shared = some sh at hsh
    change HubChange _ s.shared sh
    cases i with
    | broadcast n =>
      cases c with
      | broadcast payload =>
        cases hsh
        exact .kept rfl rfl (List.Subset.refl _)
      | client ws => cases hsh
    | client ws =>
      cases c with
      | broadcast payload => cases hsh
      | client ws' =>
        simp only [hubStarts] at hsh
        split at hsh
        · cases hsh
          exact .kept rfl rfl (List.subset_cons_self ..)
        · cases hsh
  | @go i c o k past x a sh _ _ _ hperform =>
    change perform o x s.shared = (a, sh) at hperform
    change HubChange _ s.shared sh
    cases o with
    | add ws => cases hperform; exact .added rfl rfl
    | discard ws => cases hperform; exact .discarded rfl rfl
    | _ => cases hperform; exact .kept rfl rfl (List.Subset.refl _)
  | stop _ _ _ => exact .kept rfl rfl (List.Subset.refl _)
  | outside hout => exact hout.elim

theorem seen_step (h : HubStep lim s l s') : s.shared.seen ⊆ s'.shared.seen := by
  cases step_change h with
  | kept _ _ hseen => exact hseen
  | added _ hh => rw [hh]; exact List.Subset.refl _
  | discarded _ hh => rw [hh]; exact List.Subset.refl _

theorem added_step (h : HubStep lim s l s') : s.shared.added ⊆ s'.shared.added := by
  cases step_change h with
  | kept _ hadded _ => rw [hadded]; exact List.Subset.refl _
  | added _ hh => rw [hh]; exact List.subset_cons_self ..
  | discarded _ hh => rw [hh]; exact List.Subset.refl _

/-- A connection that has never been in the set gets into it by its own task only. -/
theorem added_back {ws : Ws} (hs : HubSound lim s) (h : HubStep lim s l s')
    (hws : ws ∈ s'.shared.added) : ws ∈ s.shared.added ∨ l = .go (.client ws) ⟨.add ws, ()⟩ := by
  have hchange := step_change h
  generalize s'.shared = sh at hchange hws
  cases hchange with
  | kept _ hadded _ => exact Or.inl (hadded ▸ hws)
  | added hl hh =>
    rw [hh] at hws
    rcases List.mem_cons.mp hws with rfl | hws
    · subst hl
      obtain ⟨t, t', ht⟩ := took h
      exact Or.inr (by rw [(add_new hs ht).1])
    · exact Or.inl hws
  | discarded _ hh => rw [hh] at hws; exact Or.inl hws

/-- A client that has left the set does not come back. -/
theorem clients_back {ws : Ws} (hs : HubSound lim s) (h : HubStep lim s l s')
    (hadded : ws ∈ s.shared.added) (hws : ws ∈ s'.shared.clients) : ws ∈ s.shared.clients := by
  have hchange := step_change h
  generalize s'.shared = sh at hchange hws
  cases hchange with
  | kept htable _ _ =>
    have hclients : sh.clients = s.shared.clients := congrArg List.reduceOption htable
    exact hclients ▸ hws
  | @added i u table hl hh =>
    subst hl hh
    obtain ⟨t, t', ht⟩ := took h
    obtain ⟨-, hnew, -, hlt⟩ := add_new hs ht
    have hperm := (place_new table (fun hmem => hnew (hs.hub.added hmem)) (hs.hub.free hlt)).2
    rcases List.mem_cons.mp (hperm.mem_iff.mp hws) with rfl | hws
    · exact absurd hadded hnew
    · exact hws
  | @discarded i u _ hh =>
    subst hh
    exact (mem_clients_clear.mp hws).1

theorem hubOk_step (hs : HubSound lim s) (h : HubStep lim s l s') : HubOk lim s'.shared := by
  refine hubOk_change hs.hub (step_change h) fun i ws hl => ?_
  subst hl
  obtain ⟨t, t', ht⟩ := took h
  exact (add_new hs ht).2

end Steps

section Invariant
variable {lim : Limits} {s s' : HubSys} {l : HubLabel} {i : HubIx} {t t' : HubTask}

/-- What another task does leaves the findings of a task true. -/
theorem informed_other (hs : HubSound lim s) (h : HubStep lim s l s') (hl : l.actor ≠ some i)
    (hi : s.task i = some t) : Informed lim s'.shared t := by
  obtain ⟨hruns, hinformed⟩ := hs.tasks i t hi
  refine ⟨fun ws hself => ?_, fun ws hdue => added_step h (hinformed.due ws hdue),
    fun ws hws => added_step h (hinformed.failed ws hws), fun hself ws hws => ?_,
    fun hbusy hself hdecided n hn => ?_⟩
  · obtain ⟨hseen, hnew⟩ := hinformed.pending ws hself
    refine ⟨seen_step h hseen, fun hdecided hadded => ?_⟩
    rcases added_back hs h hadded with hadded | hl'
    · exact hnew hdecided hadded
    · subst hl'
      exact hl (congrArg some (runs_client hruns hself).1.symm)
  · obtain ⟨hadded, hgone⟩ := hinformed.gone hself ws hws
    exact ⟨added_step h hadded, fun hmem => hgone (clients_back hs h hadded hmem)⟩
  · have hrunning := hs.busy i t hi hbusy
    cases h with
    | start _ hnone _ => cases hnone.symm.trans hrunning
    | @go j c o k past x a sh _ hfree _ _ =>
      exact absurd (congrArg some (hfree i hrunning).symm) hl
    | stop _ hnone _ => cases hnone.symm.trans hrunning
    | outside hout => exact hout.elim

theorem informed_start {c : HubCause} (hs : HubSound lim s)
    (hsh : hubStarts i c s.shared = some s'.shared) :
    i.Runs c ∧ Informed lim s'.shared ⟨c, c.code lim, []⟩ := by
  generalize s'.shared = sh at hsh
  cases i with
  | broadcast n =>
    cases c with
    | broadcast payload =>
      refine ⟨trivial, fun ws hself => ?_, fun ws hdue => ?_, fun ws hws => ?_,
        fun _ ws hws => ?_, fun _ hself => absurd rfl hself⟩
      · cases hself
      · cases hdue
      · cases hws
      · cases hws
    | client ws => cases hsh
  | client ws =>
    cases c with
    | broadcast payload => cases hsh
    | client ws' =>
      simp only [hubStarts] at hsh
      split at hsh
      · rename_i hnew
        obtain ⟨rfl, hws⟩ := hnew
        cases hsh
        refine ⟨rfl, fun u hself => ?_, fun u hdue => ?_, fun u hu => ?_, fun hself => ?_,
          fun _ _ _ n hn => ?_⟩
        · cases hself
          exact ⟨List.mem_cons_self, fun _ hadded => hws (hs.hub.seen hadded)⟩
        · cases hdue
        · cases hu
        · cases hself
        · cases hn
      · cases hsh

section Findings
variable {o : BridgeOp} {a : o.Ans} (hs : HubSound lim s) (h : HubStep lim s (.go i ⟨o, a⟩) s')
  (ht : Took (hubLoop lim) s s' i o a t t')
include hs h ht

theorem pending_go {ws : Ws} (hself : (trail t').self = some ws) :
    ws ∈ s'.shared.seen ∧ ((trail t').decided = false → ws ∉ s'.shared.added) := by
  rw [trail_took ht] at hself ⊢
  rw [next_self] at hself
  obtain ⟨hseen, hnew⟩ := (hs.tasks i t ht.before).2.pending ws hself
  refine ⟨seen_step h hseen, fun hdecided hadded => ?_⟩
  rcases added_back hs h hadded with hadded | hl
  · exact hnew (undecided_of_next hdecided) hadded
  · cases hl
    cases hdecided

theorem due_go {ws : Ws} (hdue : (trail t').due = some ws) : ws ∈ s'.shared.added := by
  rw [trail_took ht] at hdue
  refine added_step h ?_
  cases o with
  | slot p =>
    obtain ⟨x, hx⟩ := ht.effect
    change (s.shared.table[p]?.join, s.shared) = (a, s'.shared) at hx
    have hslot : s.shared.table[p]?.join = some ws := (congrArg Prod.fst hx).trans hdue
    exact hs.hub.added (Slots.mem_iff.mpr ⟨p, Option.join_eq_some_iff.mp hslot⟩)
  | send u payload => cases hdue
  | _ => exact (hs.tasks i t ht.before).2.due ws hdue

theorem failed_go {ws : Ws} (hws : ws ∈ (trail t').failed) : ws ∈ s'.shared.added := by
  have hinformed := (hs.tasks i t ht.before).2
  rw [trail_took ht] at hws
  refine added_step h ?_
  cases o with
  | send u payload =>
    change ws ∈ (if a = true then (trail t).failed else (trail t).failed ++ [u]) at hws
    split at hws
    · exact hinformed.failed ws hws
    · rcases List.mem_append.mp hws with hws | hws
      · exact hinformed.failed ws hws
      · obtain rfl := List.mem_singleton.mp hws
        exact hinformed.due ws (hs.allow ht).2.1
  | _ => exact hinformed.failed ws hws

/-- What a broadcast has discarded has failed, and nobody puts it back. -/
theorem gone_go (hself : (trail t').self = none) {ws : Ws} (hws : ws ∈ (trail t').gone) :
    ws ∈ s'.shared.added ∧ ws ∉ s'.shared.clients := by
  have hinformed := (hs.tasks i t ht.before).2
  rw [trail_took ht] at hself hws
  rw [next_self] at hself
  have hold : ws ∈ (trail t).gone → ws ∈ s'.shared.added ∧ ws ∉ s'.shared.clients := by
    intro hws
    obtain ⟨hadded, hgone⟩ := hinformed.gone hself ws hws
    exact ⟨added_step h hadded, fun hmem => hgone (clients_back hs h hadded hmem)⟩
  cases o with
  | discard u =>
    rcases List.mem_append.mp hws with hws | hws
    · exact hold hws
    · obtain rfl := List.mem_singleton.mp hws
      have hallow := hs.allow ht
      rw [Trail.allow, if_pos hself] at hallow
      obtain ⟨-, -, rest, hrest⟩ := hallow
      refine ⟨added_step h (hinformed.failed ws ?_), ?_⟩
      · rw [hrest]
        exact List.mem_append_right _ List.mem_cons_self
      · obtain ⟨x, hx⟩ := ht.effect
        change ((), { s.shared with table := Slots.clear s.shared.table ws }) = (a, s'.shared) at hx
        obtain ⟨-, hsh⟩ := Prod.mk.inj hx
        rw [← hsh]
        exact fun hclients => (mem_clients_clear.mp hclients).2 rfl
  | _ => exact hold hws

/-- Between its look at the set and its decision a connection only looks. -/
theorem counted_go (hself : (trail t').self ≠ none) (hdecided : (trail t').decided = false) {n : Nat}
    (hn : (trail t').used = some n) : s'.shared.clients.length = n := by
  have hallow := hs.allow ht
  rw [trail_took ht] at hself hdecided hn
  rw [next_self] at hself
  cases o with
  | used =>
    obtain ⟨x, hx⟩ := ht.effect
    change (s.shared.clients.length, s.shared) = (a, s'.shared) at hx
    change (trail t).used.or (some a) = some n at hn
    rw [hallow.2.resolve_left hself] at hn
    obtain ⟨hlength, hsh⟩ := Prod.mk.inj hx
    rw [← hsh]
    exact hlength.trans (Option.some.inj hn)
  | slot p | send u payload => exact absurd hallow.1 hself
  | add u | close u => cases hdecided
  | serve u => cases hallow.2.symm.trans hdecided
  | discard u =>
    rw [Trail.allow, if_neg hself] at hallow
    cases hallow.2.symm.trans hdecided
  | _ => exact hallow.elim

/-- What a task finds out is so. -/
theorem informed_go : Informed lim s'.shared t' where
  pending _ hself := pending_go hs h ht hself
  due _ hdue := due_go hs h ht hdue
  failed _ hws := failed_go hs h ht hws
  gone hself _ hws := gone_go hs h ht hself hws
  counted _ hself hdecided _ hn := counted_go hs h ht hself hdecided hn

end Findings

theorem hubSound_step (hs : HubSound lim s) (h : HubStep lim s l s') : HubSound lim s' := by
  refine ⟨obeys_step code_follows (fun _ _ _ _ => trivial) h hs.obeys,
    oneBusy_step h hs.busy, hubOk_step hs h, each_step h hs.tasks ?_ ?_ ?_⟩
  · intro i c hl hsh
    subst hl
    exact informed_start hs hsh
  · intro i o a t t' hl ht hi
    subst hl
    exact ⟨ht.cause ▸ hi.1, informed_go hs h ht⟩
  · exact fun j u hl hu hi => ⟨hi.1, informed_other hs h hl hu⟩

theorem hubSound_initial : HubSound lim (HubSys.initial lim) := by
  have hclients : Hub.clients { table := List.replicate lim.slots none } = [] :=
    List.reduceOption_replicate_none
  refine ⟨fun i t ht => ?_, fun i t ht => ?_, ⟨List.length_replicate, ?_, ?_, ?_, ?_⟩,
    fun i t ht => ?_⟩
  · cases ht
  · cases ht
  · exact hclients ▸ List.nodup_nil
  · exact hclients ▸ Nat.zero_le _
  · exact hclients ▸ List.nil_subset _
  · exact List.Subset.refl _
  · cases ht

end Invariant

/-- A broadcast is under way. -/
def UnderWay (s : HubSys) : Prop :=
  ∃ n t, s.task (.broadcast n) = some t ∧ ended t.rest = false

/-- Whenever a broadcast looks at the set again, as many clients are registered as when it began,
and a client that is added while a broadcast is under way leaves the others in their slots. -/
structure Orderly (s : HubSys) (l : HubLabel) (s' : HubSys) : Prop where
  size : ∀ i n t m, l = .go i ⟨.used, n⟩ → s.task i = some t → (trail t).used = some m →
    s.shared.clients.length = m
  placed : ∀ i ws, l = .go i ⟨.add ws, ()⟩ → UnderWay s → ∀ (p : Nat) u,
    s.shared.table[p]? = some (some u) → s'.shared.table[p]? = some (some u)

/-- No broadcast has found another number of clients. -/
def Undisrupted (s : HubSys) : Prop := ∀ i t, s.task i = some t → (trail t).changed = false

def sentTo (ws : Ws) (g : Trail) : List (Ws × Payload) := g.sent.filter (·.1 = ws)

/-- The client in the slot has still to be sent to, or has been sent to once. -/
structure Awaits (ws : Ws) (payload : Payload) (slot : Nat) (g : Trail) : Prop where
  used : g.used ≠ some 0
  before : g.pos ≤ slot → g.due ≠ some ws ∧ sentTo ws g = []
  after : slot < g.pos → g.due = some ws ∧ sentTo ws g = [] ∨
    g.due ≠ some ws ∧ sentTo ws g = [(ws, payload)]

section Reach
variable {lim : Limits} {s s' : HubSys} {l : HubLabel} {i : HubIx} {t t' : HubTask} {n : Nat}
  {payload : Payload} {ws : Ws} {slot : Nat}

theorem undisrupted_step (h : HubStep lim s l s') (horderly : Orderly s l s')
    (hs : Undisrupted s) : Undisrupted s' := by
  refine each_step (I := fun _ _ t => (trail t).changed = false) h hs (fun i c _ _ => ?_)
    (fun i o a t t' hl ht hi => ?_) fun _ _ _ _ hi => hi
  · cases c <;> rfl
  · rw [trail_took ht]
    cases o with
    | used =>
      obtain ⟨x, hx⟩ := ht.effect
      change perform .used x s.shared = (a, s'.shared) at hx
      have ha : s.shared.clients.length = a := congrArg Prod.fst hx
      change ((trail t).changed || (trail t).used.any (· ≠ a)) = false
      rw [hi, Bool.false_or]
      cases hused : (trail t).used with
      | none => rfl
      | some m =>
        have hm := horderly.size i a t m hl ht.before hused
        simp [← ha, hm]
    | _ => exact hi

/-- A client that stays in the set stays in its slot. -/
theorem slot_step (h : HubStep lim s l s') (horderly : Orderly s l s') (hway : UnderWay s)
    (hws : ws ∈ s'.shared.clients) (hslot : s.shared.table[slot]? = some (some ws)) :
    s'.shared.table[slot]? = some (some ws) := by
  have hchange := step_change h
  cases hchange with
  | kept htable _ _ => rw [htable]; exact hslot
  | added hl _ => exact horderly.placed _ _ hl hway slot ws hslot
  | @discarded i u _ hh =>
    rw [hh] at hws ⊢
    exact Slots.clear_slot hslot (mem_clients_clear.mp hws).2

section Waiting
variable {g : Trail}

theorem Awaits.look {n : Nat} (hn : n ≠ 0) (h : Awaits ws payload slot g) :
    Awaits ws payload slot (g.next .used n) := by
  refine ⟨fun hzero => ?_, h.before, h.after⟩
  have hzero : g.used.or (some n) = some 0 := hzero
  cases hused : g.used with
  | none =>
    rw [hused] at hzero
    exact hn (Option.some.inj hzero)
  | some m =>
    rw [hused] at hzero
    exact h.used (hused.trans hzero)

/-- The broadcast finds the client in its slot, and in no other. -/
theorem Awaits.visit {found : Option Ws} {p : Nat} (hdue : g.due = none) (hpos : g.pos = p)
    (hfound : found = some ws ↔ p = slot) (h : Awaits ws payload slot g) :
    Awaits ws payload slot (g.next (.slot p) found) := by
  refine ⟨h.used, fun hle => ?_, fun hlt => ?_⟩
  · have hle : p + 1 ≤ slot := hle
    exact ⟨fun hws => absurd (hfound.mp hws) (by omega), (h.before (by omega)).2⟩
  · have hlt : slot < p + 1 := hlt
    by_cases hp : p = slot
    · exact Or.inl ⟨hfound.mpr hp, (h.before (by omega)).2⟩
    · rcases h.after (by omega) with ⟨hws, -⟩ | ⟨-, hsent⟩
      · cases hdue.symm.trans hws
      · exact Or.inr ⟨fun hws => hp (hfound.mp hws), hsent⟩

theorem sentTo_send {u : Ws} {ok : Bool} :
    sentTo ws (g.next (.send u payload) ok) =
      sentTo ws g ++ if u = ws then [(u, payload)] else [] := by
  change (g.sent ++ [(u, payload)]).filter _ = _
  rw [List.filter_append]
  by_cases hu : u = ws <;> simp [sentTo, hu]

theorem Awaits.send {u : Ws} {ok : Bool} (hdue : g.due = some u) (h : Awaits ws payload slot g) :
    Awaits ws payload slot (g.next (.send u payload) ok) := by
  have hother : g.due ≠ some ws → sentTo ws (g.next (.send u payload) ok) = sentTo ws g := by
    intro hne
    have hu : u ≠ ws := by
      rintro rfl
      exact hne hdue
    rw [sentTo_send, if_neg hu, List.append_nil]
  refine ⟨h.used, fun hle => ⟨fun hnone => ?_, ?_⟩, fun hlt => Or.inr ⟨fun hnone => ?_, ?_⟩⟩
  · cases hnone
  · obtain ⟨hne, hempty⟩ := h.before hle
    rw [hother hne, hempty]
  · cases hnone
  · rcases h.after hlt with ⟨hws, hempty⟩ | ⟨hne, hone⟩
    · obtain rfl := Option.some.inj (hdue.symm.trans hws)
      rw [sentTo_send, hempty, if_pos rfl, List.nil_append]
    · rw [hother hne, hone]

end Waiting

theorem awaits_next {o : BridgeOp} {a : o.Ans} (hs : HubSound lim s)
    (ht : Took (hubLoop lim) s s' i o a t t') (hcause : t.cause = .broadcast payload)
    (hslot : s.shared.table[slot]? = some (some ws)) (h : Awaits ws payload slot (trail t)) :
    Awaits ws payload slot (trail t') := by
  have hallow := hs.allow ht
  have hself : (trail t).self = none := by
    rw [trail_self, hcause]
    rfl
  have hpayload : (trail t).payload = some payload := by
    rw [trail_payload, hcause]
    rfl
  obtain ⟨x, hx⟩ := ht.effect
  change perform o x s.shared = (a, s'.shared) at hx
  rw [trail_took ht]
  generalize trail t = g at *
  cases o with
  | used =>
    have ha : s.shared.clients.length = a := congrArg Prod.fst hx
    have hpos : 0 < s.shared.clients.length :=
      List.length_pos_of_mem (Slots.mem_iff.mpr ⟨slot, hslot⟩)
    exact h.look (by omega)
  | slot p =>
    obtain ⟨-, hdue, hpos, -⟩ := hallow
    have ha : s.shared.table[p]?.join = a := congrArg Prod.fst hx
    refine h.visit hdue hpos ⟨fun hws => ?_, ?_⟩
    · rw [hws, Option.join_eq_some_iff] at ha
      exact Slots.slot_unique hs.hub.nodup ha hslot
    · rintro rfl
      rw [← ha, hslot]
      rfl
  | send u payload' =>
    obtain ⟨-, hdue, hgiven⟩ := hallow
    obtain rfl := Option.some.inj (hpayload.symm.trans hgiven)
    exact h.send hdue
  | add u | close u | serve u =>
    exact absurd (hself.symm.trans hallow.1).symm (Option.some_ne_none u)
  | discard u => exact ⟨h.used, h.before, h.after⟩
  | _ => exact hallow.elim

/-- The broadcast has sent to the client once when it has ended, and gets to it until then. -/
def Reaching (n : Nat) (payload : Payload) (ws : Ws) (s : HubSys) : Prop :=
  ∃ t, s.task (.broadcast n) = some t ∧ t.cause = .broadcast payload ∧
    (ended t.rest = true ∧ sentTo ws (trail t) = [(ws, payload)] ∨
      ended t.rest = false ∧ ∃ slot, s.shared.table[slot]? = some (some ws) ∧
        Awaits ws payload slot (trail t))

/-- A broadcast that has ended has been to every slot. -/
theorem finished_of_ended (hs : HubSound lim s) (hun : Undisrupted s)
    (hi : s.task (.broadcast n) = some t) (hcause : t.cause = .broadcast payload)
    (hended : ended t.rest = true) : (trail t).Finished lim (.broadcast payload) := by
  have hfollows := hs.obeys (.broadcast n) t hi
  rw [hcause] at hfollows
  cases hrest : t.rest with
  | pure u =>
    rw [hrest] at hfollows
    exact hfollows
  | throw e =>
    rw [hrest] at hfollows
    have hchanged : (trail t).changed = true := hfollows
    exact Bool.noConfusion ((hun _ t hi).symm.trans hchanged)
  | call o k =>
    rw [hrest] at hended
    cases hended

theorem reaching_step (hs : HubSound lim s) (h : HubStep lim s l s')
    (horderly : Orderly s l s') (hun : Undisrupted s')
    (hstays : (s'.task (.broadcast n)).isSome = true) (hws : ws ∈ s'.shared.clients)
    (hr : Reaching n payload ws s) : Reaching n payload ws s' := by
  obtain ⟨t, hi, hcause, hr⟩ := hr
  have hs' := hubSound_step hs h
  rcases task_stays h hi hstays with hi' | ⟨o, a, t', -, ht⟩
  · refine ⟨t, hi', hcause, ?_⟩
    rcases hr with hdone | ⟨hgoing, slot, hslot, hawaits⟩
    · exact Or.inl hdone
    · exact Or.inr ⟨hgoing, slot, slot_step h horderly ⟨n, t, hi, hgoing⟩ hws hslot, hawaits⟩
  · obtain ⟨k, hrest, -⟩ := ht.asks
    rcases hr with ⟨hended, -⟩ | ⟨hgoing, slot, hslot, hawaits⟩
    · rw [hrest] at hended
      cases hended
    · have hnext := awaits_next hs ht hcause hslot hawaits
      refine ⟨t', ht.after, ht.cause.trans hcause, ?_⟩
      cases hended : ended t'.rest with
      | false =>
        exact Or.inr ⟨rfl, slot, slot_step h horderly ⟨n, t, hi, hgoing⟩ hws hslot, hnext⟩
      | true =>
        obtain ⟨hdue, -, hall⟩ :=
          finished_of_ended hs' hun ht.after (ht.cause.trans hcause) hended
        have hlt : slot < (trail t').pos := by
          rw [hall.resolve_left hnext.used, ← hs.hub.slots]
          exact (List.getElem?_eq_some_iff.mp hslot).1
        rcases hnext.after hlt with ⟨hdue', -⟩ | ⟨-, hsent⟩
        · cases hdue.symm.trans hdue'
        · exact Or.inl ⟨rfl, hsent⟩

end Reach

section Past

def sent? : HubEvent → Option (Ws × Payload)
  | ⟨.send ws payload, _⟩ => some (ws, payload)
  | _ => none

def failed? : HubEvent → Option Ws
  | ⟨.send ws _, sent⟩ => if sent then none else some ws
  | _ => none

def discarded? : HubEvent → Option Ws
  | ⟨.discard ws, _⟩ => some ws
  | _ => none

/-- What a task has sent, to whom it could not send, and whom it has discarded. -/
def sends (past : List HubEvent) : List (Ws × Payload) := past.filterMap sent?

def failures (past : List HubEvent) : List Ws := past.filterMap failed?

def discards (past : List HubEvent) : List Ws := past.filterMap discarded?

theorem trail_sent (t : HubTask) : (trail t).sent = sends t.past := by
  have hnil : t.cause.trail.sent = [] := by cases t.cause <;> rfl
  refine (past_log Trail.sent sent? (fun g e => ?_) t.past _).trans (by rw [hnil]; rfl)
  obtain ⟨o, a⟩ := e
  cases o <;> simp [Trail.next, sent?]

theorem trail_failed (t : HubTask) : (trail t).failed = failures t.past := by
  have hnil : t.cause.trail.failed = [] := by cases t.cause <;> rfl
  refine (past_log Trail.failed failed? (fun g e => ?_) t.past _).trans (by rw [hnil]; rfl)
  obtain ⟨o, a⟩ := e
  cases o with
  | send ws payload =>
    rcases Bool.eq_false_or_eq_true a with ha | ha <;> simp [Trail.next, failed?, ha]
  | _ => simp [Trail.next, failed?]

theorem trail_gone (t : HubTask) : (trail t).gone = discards t.past := by
  have hnil : t.cause.trail.gone = [] := by cases t.cause <;> rfl
  refine (past_log Trail.gone discarded? (fun g e => ?_) t.past _).trans (by rw [hnil]; rfl)
  obtain ⟨o, a⟩ := e
  cases o <;> simp [Trail.next, discarded?]

end Past

/-- There is room for the clients in the set, and no broadcast has raised. -/
structure Safe (lim : Limits) (s : HubSys) : Prop where
  room : s.shared.clients.length ≤ lim.maxClients
  quiet : ∀ n t e, s.task (.broadcast n) = some t → t.rest ≠ .throw e

/-- A call has sent to the clients that have stayed in the set, and has removed those that it could
not send to. -/
structure Reached (payload : Payload) (s : HubSys) (xs : List (HubLabel × HubSys)) (t : HubTask) :
    Prop where
  sent : ∀ ws ∈ s.shared.clients, Path (fun _ _ s' => ws ∈ s'.shared.clients) s xs →
    (sends t.past).filter (·.1 = ws) = [(ws, payload)]
  discarded : discards t.past = failures t.past
  removed : ∀ ws ∈ failures t.past, ws ∉ (finish s xs).shared.clients

section Runs
variable {lim : Limits} {s s' : HubSys} {n : Nat} {payload : Payload} {ws : Ws} {t : HubTask}
  {xs : List (HubLabel × HubSys)}

theorem safe_of_sound (hs : HubSound lim s) (hun : Undisrupted s) : Safe lim s := by
  refine ⟨hs.hub.room, fun n t e hi hrest => ?_⟩
  have hruns := (hs.tasks _ t hi).1
  cases hcause : t.cause with
  | broadcast payload =>
    have hfollows := hs.obeys _ t hi
    rw [hrest, hcause] at hfollows
    have hchanged : (trail t).changed = true := hfollows
    exact Bool.noConfusion ((hun _ t hi).symm.trans hchanged)
  | client ws =>
    rw [hcause] at hruns
    exact hruns.elim

/-- What holds of every run whose steps are in order. -/
theorem sound_run (h : Path (HubStep lim) s xs) (horderly : Path Orderly s xs)
    (hs : HubSound lim s ∧ Undisrupted s) :
    HubSound lim (finish s xs) ∧ Undisrupted (finish s xs) :=
  (h.and horderly).invariant (P := fun s => HubSound lim s ∧ Undisrupted s)
    (fun _ _ _ hstep hs => ⟨hubSound_step hs.1 hstep.1, undisrupted_step hstep.1 hstep.2 hs.2⟩) hs

theorem reaching_run (h : Path (HubStep lim) s xs) (horderly : Path Orderly s xs)
    (hstays : Path (fun _ _ s' => (s'.task (.broadcast n)).isSome = true) s xs)
    (hws : Path (fun _ _ s' => ws ∈ s'.shared.clients) s xs)
    (hs : HubSound lim s ∧ Undisrupted s) (hr : Reaching n payload ws s) :
    Reaching n payload ws (finish s xs) := by
  have hall := ((h.and horderly).and hstays).and hws
  refine (hall.invariant (P := fun s => (HubSound lim s ∧ Undisrupted s) ∧ Reaching n payload ws s)
    (fun s _ s' hstep hs => ?_) ⟨hs, hr⟩).2
  obtain ⟨⟨⟨hstep, horder⟩, hstay⟩, hmem⟩ := hstep
  have hun := undisrupted_step hstep horder hs.1.2
  exact ⟨⟨hubSound_step hs.1.1 hstep, hun⟩,
    reaching_step hs.1.1 hstep horder hun hstay hmem hs.2⟩

theorem reaching_start (h : HubStep lim s (.start (.broadcast n) (.broadcast payload)) s')
    (hws : ws ∈ s'.shared.clients) : Reaching n payload ws s' := by
  obtain ⟨slot, hslot⟩ := Slots.mem_iff.mp hws
  cases h with
  | start _ _ _ =>
    refine ⟨_, task_set_self, rfl, Or.inr ⟨rfl, slot, hslot, ?_⟩⟩
    refine ⟨fun hzero => ?_, fun _ => ⟨fun hdue => ?_, rfl⟩, fun hlt => ?_⟩
    · cases hzero
    · cases hdue
    · exact absurd hlt (Nat.not_lt_zero _)

/-- In every run whose steps are in order, the broadcasts reach the clients that stay. -/
theorem broadcasts_reach (h : Path (HubStep lim) (HubSys.initial lim) xs)
    (horderly : Path Orderly (HubSys.initial lim) xs) :
    Safe lim (finish (HubSys.initial lim) xs) ∧
      ∀ n payload pre s mid t,
        xs = pre ++ (.start (.broadcast n) (.broadcast payload), s) :: mid →
        Path (fun _ _ s' => (s'.task (.broadcast n)).isSome = true) s mid →
        (finish s mid).task (.broadcast n) = some t → ended t.rest = true →
        Reached payload s mid t := by
  have hinitial : HubSound lim (HubSys.initial lim) ∧ Undisrupted (HubSys.initial lim) := by
    refine ⟨hubSound_initial, fun i t hi => ?_⟩
    cases hi
  have hend := sound_run h horderly hinitial
  refine ⟨safe_of_sound hend.1 hend.2, fun n payload pre s mid t heq hstays hi hended => ?_⟩
  subst heq
  obtain ⟨hpre, hstart, hmid⟩ := path_append.mp h
  obtain ⟨hpre', hstart', hmid'⟩ := path_append.mp horderly
  obtain ⟨hbefore, hunbefore⟩ := sound_run hpre hpre' hinitial
  have hfirst : HubSound lim s ∧ Undisrupted s :=
    ⟨hubSound_step hbefore hstart, undisrupted_step hstart hstart' hunbefore⟩
  obtain ⟨hs, hun⟩ := sound_run hmid hmid' hfirst
  obtain ⟨hruns, hinformed⟩ := hs.tasks _ t hi
  cases hcause : t.cause with
  | client ws =>
    rw [hcause] at hruns
    exact hruns.elim
  | broadcast payload' =>
    obtain ⟨-, hgone, -⟩ := finished_of_ended hs hun hi hcause hended
    have hself : (trail t).self = none := by
      rw [trail_self, hcause]
      rfl
    refine ⟨fun ws hws hstay => ?_, ?_, fun ws hws => ?_⟩
    · obtain ⟨u, hu, -, hr⟩ :=
        reaching_run hmid hmid' hstays hstay hfirst (reaching_start hstart hws)
      obtain rfl := Option.some.inj (hu.symm.trans hi)
      rcases hr with ⟨-, hsent⟩ | ⟨hgoing, -⟩
      · rw [← trail_sent]
        exact hsent
      · exact Bool.noConfusion (hgoing.symm.trans hended)
    · rw [← trail_gone, ← trail_failed, hgone]
    · rw [← trail_failed, ← hgone] at hws
      exact (hinformed.gone hself ws hws).2

/-- A check that a step is in order, whether a broadcast is under way or not. -/
def inOrder (s : HubSys) (l : HubLabel) (s' : HubSys) : Bool :=
  match l with
  | .go i ⟨.used, _⟩ =>
    (s.task i).all fun t => (trail t).used.all (· = s.shared.clients.length)
  | .go _ ⟨.add _, _⟩ =>
    (List.range s.shared.table.length).all fun p =>
      (s.shared.table[p]?.join).all fun u => s'.shared.table[p]? = some (some u)
  | _ => true

theorem orderly_of_inOrder {l : HubLabel} (h : inOrder s l s' = true) : Orderly s l s' := by
  refine ⟨fun i k u m hl hi hused => ?_, fun i ws hl _ p u hslot => ?_⟩
  · subst hl
    simp only [inOrder, hi, Option.all_some, hused] at h
    exact (of_decide_eq_true h).symm
  · subst hl
    have hall := List.all_eq_true.mp h p
    have hp : p < s.shared.table.length := (List.getElem?_eq_some_iff.mp hslot).1
    have hone := hall (List.mem_range.mpr hp)
    rw [hslot, Option.join_some, Option.all_some] at hone
    exact of_decide_eq_true hone

def twoClients : Limits := ⟨2, 4, by decide⟩

/-- A client connects: the look at the set, and the registration. -/
def connecting (ws : Ws) : List (Tasks.Turn HubIx HubCause Hub Choice) :=
  [.start (.client ws) (.client ws), .go (.client ws) {}, .go (.client ws) {}]

def beginning (payload : Payload) : List (Tasks.Turn HubIx HubCause Hub Choice) :=
  .start (.broadcast 0) (.broadcast payload) :: List.replicate 3 (.go (.broadcast 0) {})

/-- A broadcast to two clients, one of which cannot be reached. -/
def reachingOne : List (HubLabel × HubSys) :=
  takeTurns (hubLoop twoClients) (HubSys.initial twoClients)
    (connecting 1 ++ connecting 2 ++ beginning (.data "closed") ++
      [.go (.broadcast 0) { ok := false }] ++ List.replicate 9 (.go (.broadcast 0) {}))

/-- The state in which that broadcast begins, and the broadcast at its end. -/
def begunCall : HubSys := finish (HubSys.initial twoClients) (reachingOne.take 7)

def endedCall : HubTask :=
  ((finish (HubSys.initial twoClients) reachingOne).task (.broadcast 0)).getD
    ⟨.broadcast (.data ""), .pure (), []⟩

theorem reachingOne_reached :
    Safe twoClients (finish (HubSys.initial twoClients) reachingOne) ∧
      Reached (.data "closed") begunCall (reachingOne.drop 7) endedCall ∧
        failures endedCall.past = [1] := by
  have hpath : Path (HubStep twoClients) (HubSys.initial twoClients) reachingOne :=
    takeTurns_path _ fun f hf => by simp [connecting, beginning] at hf
  have horder : Path (fun s l s' => inOrder s l s' = true) (HubSys.initial twoClients)
      reachingOne := by decide
  obtain ⟨hsafe, hreached⟩ :=
    broadcasts_reach hpath (horder.mono fun _ _ _ h => orderly_of_inOrder h)
  refine ⟨hsafe, hreached 0 _ (reachingOne.take 6) begunCall _ endedCall rfl ?_ rfl rfl, rfl⟩
  decide

/-- A client connects while a broadcast sends to another one. -/
def interrupted : List (HubLabel × HubSys) :=
  takeTurns (hubLoop twoClients) (HubSys.initial twoClients)
    (connecting 1 ++ beginning (.data "closed") ++ connecting 2 ++
      List.replicate 2 (.go (.broadcast 0) {}))

theorem interrupted_raises :
    Path (HubStep twoClients) (HubSys.initial twoClients) interrupted ∧
      ¬ Safe twoClients (finish (HubSys.initial twoClients) interrupted) := by
  refine ⟨takeTurns_path _ fun f hf => by simp [connecting, beginning] at hf, fun h => ?_⟩
  exact h.quiet 0 _ .sizeChanged rfl rfl

end Runs
end ParkIt.Bridge
