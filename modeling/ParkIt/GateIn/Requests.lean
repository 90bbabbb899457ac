import ParkIt.GateIn.Runs
import Mathlib.Algebra.BigOperators.Group.Finset.Basic

/-! One wait for an input brings one request at most. -/
namespace ParkIt.GateIn

open Effects ByteString Tasks Transition

/-- A ticket or an entry by card is requested. -/
def GateEvent.requests : GateEvent → Bool
  | .ticketButtonPressed | .rfidCardRead _ _ => true
  | _ => false

/-- How many requests a step sends out, whether they arrive or not. -/
def requestsOf : LaneLabel → Nat
  | .go _ ⟨.publish e _ _, _⟩ => if e.requests then 1 else 0
  | _ => 0

/-- How often a step sets the state to WAITING_INPUT. -/
def waitsOf : LaneLabel → Nat
  | .go _ ⟨.setState .waitingInput, _⟩ => 1
  | _ => 0

/-- The input has been taken, and the request is still to be sent. -/
def Phase.asks : Phase → Bool
  | .requested _ | .read _ => true
  | _ => false

/-- The requests that a task still owes. -/
def owedBy (s : LaneSys) (i : TaskIx) : Nat :=
  match s.task i with
  | some t => if (note t).phase.asks then 1 else 0
  | none => 0

/-- The tasks that take an input. -/
def inputs : Finset TaskIx := {.rss, .commands, .serial}

def waiting (s : Lane) : Nat := if s.state = .waitingInput then 1 else 0

/-- The requests that are still to come from what has been waited for. -/
def credit (s : LaneSys) : Nat := waiting s.shared + ∑ i ∈ inputs, owedBy s i

/-- A sum in which one summand changes. -/
theorem sum_change (I : Finset TaskIx) {f f' : TaskIx → Nat} {i : TaskIx}
    (hne : ∀ j, j ≠ i → f' j = f j) (hi : i ∉ I → f i = 0 ∧ f' i = 0) :
    ∑ j ∈ I, f' j + f i = ∑ j ∈ I, f j + f' i := by
  by_cases hmem : i ∈ I
  · have hrest : ∑ j ∈ I.erase i, f' j = ∑ j ∈ I.erase i, f j :=
      Finset.sum_congr rfl fun j hj => hne j (Finset.ne_of_mem_erase hj)
    rw [← Finset.sum_erase_add I _ hmem, ← Finset.sum_erase_add I f hmem, hrest]
    omega
  · rw [(hi hmem).1, (hi hmem).2]
    exact congrArg (· + 0) (Finset.sum_congr rfl fun j hj => hne j fun heq => hmem (heq ▸ hj))

section Notes
variable {g : Note} {o : LaneOp} {a : o.Ans}

/-- A request is owed from the write on. -/
theorem asks_next (h : (Note.next g o a).phase.asks = true) :
    g.phase.asks = true ∨ ∃ st, o = .setState st ∧ (st = .processing ∨ st = .validating) := by
  generalize hp : (Note.next g o a).phase = p at h
  rcases next_phase hp with hphase | hshift
  · exact Or.inl (hphase ▸ h)
  · generalize he : (⟨o, a⟩ : Event LaneOp LaneOp.Ans) = e at hshift
    cases hshift with
    | requested => cases he; exact Or.inr ⟨_, rfl, Or.inl rfl⟩
    | read => cases he; exact Or.inr ⟨_, rfl, Or.inr rfl⟩
    | _ => cases h

theorem asks_published {e : GateEvent} {n : Nat} (hmay : g.MayPublish e n)
    (he : e.requests = true) : g.phase.asks = true := by
  cases e with
  | ticketButtonPressed | rfidCardRead _ _ => exact congrArg Phase.asks hmay
  | _ => cases he

/-- A request is sent once. -/
theorem asks_sent {e : GateEvent} {eventId : Option Nat} {n : Nat} {ok : Bool}
    (hmay : g.MayPublish e n) (he : e.requests = true) :
    (Note.next g (.publish e eventId n) ok).phase.asks = false := by
  cases ok with
  | false => rfl
  | true =>
    cases e with
    | ticketButtonPressed =>
      change g.published.asks = false
      rw [Note.published, show g.phase = _ from hmay]
      rfl
    | rfidCardRead _ _ =>
      change g.published.asks = false
      rw [Note.published, show g.phase = _ from hmay]
      rfl
    | _ => cases he

/-- An input is taken where the gate has been seen to wait for it. -/
theorem Note.MayWrite.input {st : GateState} (h : g.MayWrite st)
    (hst : st = .processing ∨ st = .validating) :
    g.seen = some .waitingInput ∧ g.cause.Handles := by
  have hacts := h.acts
  have hreason := h.reason
  refine ⟨?_, ?_⟩
  · rcases hst with rfl | rfl
    · cases hreason with
      | pressed hseen => exact hseen
    · cases hreason with
      | read hseen => exact hseen
  · cases hcause : g.cause with
    | timer t =>
      obtain ⟨rfl, -⟩ := (mayAct_timer hcause).mp hacts
      rcases hst with hst | hst <;> cases hst
    | _ => simpa [Note.MayAct, hcause] using hacts

theorem asks_wrote {st : GateState} {n : Nat} :
    (Note.next g (.setState st) n).phase.asks = true ↔ st = .processing ∨ st = .validating := by
  cases st with
  | idle => change (if _ then Phase.passing else .calm).asks = true ↔ _; split <;> simp [Phase.asks]
  | waitingInput =>
    change (if _ then Phase.calm else .detected).asks = true ↔ _
    split <;> simp [Phase.asks]
  | _ => simp [Note.next, Note.wrote, Note.written, Phase.asks]

end Notes

section Steps
variable {cfg : Config} {gateId : String} {s s' : LaneSys} {l : LaneLabel} {i : TaskIx}
  {o : LaneOp} {a : o.Ans} {t t' : LaneTask}

/-- Only a task that takes inputs owes requests. -/
structure Asking (i : TaskIx) (t : LaneTask) : Prop where
  handles : t.cause.Handles → i ∈ inputs
  asks : (note t).phase.asks = true → t.cause.Handles

theorem start_handles {c : Cause} {sh sh' : Lane} (h : starts i c sh = some sh')
    (hc : c.Handles) : i ∈ inputs := by
  cases c with
  | rss | commands | serial => cases i <;> first | decide | cases h
  | _ => exact hc.elim

theorem asking_step (hs : Sound cfg gateId s) (h : LaneStep cfg gateId s l s')
    (hasking : Each (fun _ => Asking) s) : Each (fun _ => Asking) s' := by
  refine each_step h hasking (fun i c _ hsh => ?_) (fun i o a t t' _ ht hi => ?_) fun _ _ _ _ h => h
  · refine ⟨fun hc => start_handles hsh hc, fun hasks => ?_⟩
    cases c <;> cases hasks
  · refine ⟨fun hc => hi.handles (ht.cause ▸ hc), fun hasks => ?_⟩
    rw [ht.cause]
    rw [took_note ht] at hasks
    rcases asks_next hasks with hasks | ⟨st, rfl, hst⟩
    · exact hi.asks hasks
    · exact note_cause t ▸ ((hs.write ht).1.input hst).2

theorem Asking.owedBy_eq_zero (h : Each (fun _ => Asking) s) (hi : i ∉ inputs) :
    owedBy s i = 0 := by
  unfold owedBy
  split
  · rename_i t ht
    have hasking := h i t ht
    exact if_neg fun hasks => hi (hasking.handles (hasking.asks hasks))
  · rfl

theorem owedBy_some (h : s.task i = some t) :
    owedBy s i = if (note t).phase.asks then 1 else 0 := by
  rw [owedBy, h]

theorem owedBy_none (h : s.task i = none) : owedBy s i = 0 := by
  rw [owedBy, h]

/-- When one task goes on, the others owe what they owed. -/
theorem sum_owed (hs : Each (fun _ => Asking) s) (hs' : Each (fun _ => Asking) s')
    (h : ∀ j, j ≠ i → s'.task j = s.task j) :
    ∑ j ∈ inputs, owedBy s' j + owedBy s i = ∑ j ∈ inputs, owedBy s j + owedBy s' i :=
  sum_change inputs (fun j hj => by rw [owedBy, owedBy, h j hj])
    fun hi => ⟨Asking.owedBy_eq_zero hs hi, Asking.owedBy_eq_zero hs' hi⟩

theorem waiting_step (h : LaneStep cfg gateId s l s') (hl : ∀ i st n, l ≠ .go i ⟨.setState st, n⟩) :
    waiting s'.shared = waiting s.shared := by
  have hstate : s'.shared.state = s.shared.state := congrArg Prod.fst (mark_step h hl)
  rw [waiting, waiting, hstate]

/-- Only a write of the state makes a task owe a request. -/
theorem owedBy_took (h : Took (lane cfg gateId) s s' i o a t t') (ho : ∀ st, o ≠ .setState st) :
    owedBy s' i ≤ owedBy s i := by
  rw [owedBy_some h.before, owedBy_some h.after, took_note h]
  split
  · rename_i hasks
    rcases asks_next hasks with hasks | ⟨st, heq, -⟩
    · rw [if_pos hasks]
    · exact absurd heq (ho st)
  · exact Nat.zero_le _

/-- What a wait brings in is spent on the input, and what is owed on the request. -/
theorem owedBy_go (hs : Sound cfg gateId s) (h : LaneStep cfg gateId s (.go i ⟨o, a⟩) s')
    (ht : Took (lane cfg gateId) s s' i o a t t') :
    requestsOf (.go i ⟨o, a⟩) + (waiting s'.shared + owedBy s' i) ≤
      waiting s.shared + owedBy s i + waitsOf (.go i ⟨o, a⟩) := by
  cases o with
  | setState st =>
    obtain ⟨hmay, hseen⟩ := hs.write ht
    obtain ⟨-, hstate, -, -⟩ := took_write ht
    have howed : owedBy s' i = if st = .processing ∨ st = .validating then 1 else 0 := by
      rw [owedBy_some ht.after, took_note ht, if_congr (asks_wrote ..) rfl rfl]
    have hwaiting : waiting s'.shared = if st = .waitingInput then 1 else 0 := by
      rw [waiting, hstate]
    rw [howed, hwaiting]
    by_cases hst : st = .processing ∨ st = .validating
    · have hbefore : waiting s.shared = 1 := if_pos (hseen _ (hmay.input hst).1)
      have hother : st ≠ .waitingInput := by rcases hst with rfl | rfl <;> nofun
      rw [hbefore, if_neg hother, if_pos hst]
      change 0 + (0 + 1) ≤ _
      omega
    · rw [if_neg hst]
      cases st with
      | waitingInput => change 0 + (1 + 0) ≤ _ + 1; omega
      | _ => exact Nat.zero_le _
  | publish e eventId n =>
    have hmay : (note t).MayPublish e n := ht.allow hs.protocol
    have howed := owedBy_took ht nofun
    rw [waiting_step h nofun]
    change (if e.requests then 1 else 0) + _ ≤ _ + 0
    split
    · rename_i he
      rw [owedBy_some ht.before, owedBy_some ht.after, took_note ht, asks_sent hmay he,
        asks_published hmay he]
      simp
      omega
    · omega
  | _ =>
    have howed := owedBy_took ht (by rintro _ ⟨⟩)
    rw [waiting_step h (by rintro _ _ _ ⟨⟩)]
    change 0 + _ ≤ _ + 0
    omega

theorem credit_step (hs : Sound cfg gateId s) (hasking : Each (fun _ => Asking) s)
    (h : LaneStep cfg gateId s l s') : requestsOf l + credit s' ≤ credit s + waitsOf l := by
  have hasking' := asking_step hs h hasking
  have hstep := h
  unfold credit
  cases l with
  | start i c =>
    cases h with
    | start hnone _ _ =>
      have hsum := sum_owed hasking hasking' (i := i) fun j hj => Function.update_of_ne hj ..
      have howed (sh : Lane) :
          owedBy (s.set i (lane cfg gateId) sh ⟨c, (lane cfg gateId).code c, []⟩) i = 0 := by
        rw [owedBy_some task_set_self]
        cases c <;> rfl
      rw [owedBy_none hnone, howed] at hsum
      rw [waiting_step hstep nofun]
      change 0 + _ ≤ _ + 0
      omega
  | go i e =>
    obtain ⟨o, a⟩ := e
    obtain ⟨t, t', ht⟩ := took h
    have hsum := sum_owed hasking hasking' ht.others
    have hgo := owedBy_go hs h ht
    omega
  | stop i =>
    cases h with
    | stop _ _ _ =>
      have hsum := sum_owed hasking hasking' (i := i) fun j hj => Function.update_of_ne hj ..
      have howed : owedBy (s.drop i) i = 0 := owedBy_none (Function.update_self ..)
      rw [waiting_step hstep nofun]
      change 0 + _ ≤ _ + 0
      omega
  | outside =>
    cases h with
    | outside _ =>
      rw [waiting_step hstep nofun]
      exact Nat.le_of_eq (Nat.zero_add _)

/-- However often a button is pressed or a card read, a wait for an input brings one request at
most; a recovered wait counts as one. -/
theorem one_request_per_wait (cfg : Config) (gateId : String) (st : GateState)
    {xs : List (LaneLabel × LaneSys)}
    (h : Path (LaneStep cfg gateId) { shared := { state := st } } xs) :
    tally requestsOf xs ≤ tally waitsOf xs + if st = .waitingInput then 1 else 0 := by
  have hmarked : Marked { state := st } := ⟨Or.inr rfl, fun _ => Nat.le_refl 0⟩
  have hbudget := h.budget requestsOf waitsOf credit
    (P := fun s => Sound cfg gateId s ∧ Each (fun _ => Asking) s)
    (fun s l s' hstep hs => ⟨sound_step hstep hs.1, asking_step hs.1 hstep hs.2⟩)
    (fun s l s' hstep hs => credit_step hs.1 hs.2 hstep)
    ⟨sound_start hmarked, fun _ _ h => nomatch h⟩
  have hstart : credit { shared := { state := st } } = if st = .waitingInput then 1 else 0 := rfl
  rw [hstart] at hbudget
  omega

end Steps

/-- The listener takes up a frame. -/
def frameTurns (signal : String) : List LaneTurn :=
  .start .rss .rss :: goes .rss 30 { bytes := some (frameOf signal) } ++ [.stop .rss]

/-- A vehicle comes, and its driver presses the button; the contact bounces. -/
def bouncing : List LaneTurn := frameTurns "IN1ON" ++ frameTurns "IN2ON" ++ frameTurns "IN2ON"

theorem one_request_per_wait_bouncing :
    ∃ xs, Path (LaneStep {} "1") boot xs ∧ tally requestsOf xs = 1 ∧
      tally requestsOf xs ≤ tally waitsOf xs + if GateState.idle = .waitingInput then 1 else 0 := by
  have hpath : Path (LaneStep {} "1") boot (takeTurns (lane {} "1") boot bouncing) :=
    commanded_path (by simp [bouncing, frameTurns])
  exact ⟨_, hpath, by decide +kernel, one_request_per_wait {} "1" .idle hpath⟩

end ParkIt.GateIn
