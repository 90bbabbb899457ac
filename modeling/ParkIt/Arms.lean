import ParkIt.Idempotency
import ParkIt.Correlation
import ParkIt.Lib.RowLock.Watch

/-! A result, the arm it was matched to, and the requests that arm the same gate meanwhile. -/
namespace ParkIt

open Effects Api RowLock Transition

/-- The arm that a result was matched to, while its clear is still to come. -/
abbrev Matching := Option (String × Pending)

namespace Matching

def move (m : Matching) : (e : Effect) → e.Ans → Matching
  | .getPending g, p => Option.map (fun p : Pending => (g, p)) p
  | .clearPending _, _ => none
  -- a lost contact keeps the arm for the next tap
  | .insertEmoney e, _ => if e.status = .lostContact then none else m
  | _, _ => m

/-- Only a result that was matched at the gate clears it. -/
def may (m : Matching) : Effect → Prop
  | .clearPending g => ∃ p, m = some (g, p)
  | _ => True

end Matching

/-- Operations that leave the matching as it is. -/
def Still : ApiOp → Prop
  | .ext (.getPending _) => False
  | .ext (.clearPending _) => False
  | .ext (.insertEmoney _) => False
  | _ => True

section Handlers
variable {m : Matching} {α : Type} {p : Api α}

abbrev matchGuard : Protocol ApiOp ApiOp.Ans Matching :=
  watcher Id ParkingTransaction TxUpdate Matching.may Matching.move

theorem covers_still : Covers Still :=
  covers_of trivial trivial (fun _ => trivial) (fun _ => trivial) (fun _ => trivial)
    (fun _ => trivial) (fun _ => trivial) (fun _ => trivial) fun _ _ => trivial

theorem still_stays {raises : Exc → Prop} (h : Only Still raises p) :
    Follows matchGuard m p (fun g _ => g = m) fun g _ => g = m := by
  refine (h.follows fun o ho => ?_).mono (fun _ _ h => h) fun _ _ h => h.1
  cases o with
  | ext e => cases e <;> first | exact ho.elim | exact ⟨trivial, fun _ => rfl⟩
  | lock _ | update _ _ => exact ⟨trivial, fun _ => rfl⟩

/-- The rule for a step that leaves the matching alone. -/
theorem still_bind {β : Type} {f : α → Api β} (h : Only Still (fun _ => True) p)
    (hf : ∀ a, Minds Matching.may Matching.move m (f a)) :
    Minds Matching.may Matching.move m (p >>= f) :=
  (still_stays h).bind (fun _ _ _ => trivial) fun _ a hg => hg ▸ hf a

theorem still_minds (h : Only Still (fun _ => True) p) :
    Minds Matching.may Matching.move m p :=
  (still_stays h).mono (fun _ _ _ => trivial) fun _ _ _ => trivial

/-- Every status but a lost contact ends with the clear of the arm. -/
theorem minds_outcome (a : EmoneyResult) (q : Pending) (t : ParkingTransaction) (i : Id)
    (hm : a.status ≠ .lostContact → m = some (a.gateId, q)) :
    Minds Matching.may Matching.move m (determineOutcome a q t i) := by
  unfold determineOutcome
  by_cases hs : a.status.isSuccess = true
  · have hl : a.status ≠ .lostContact := ne_lostContact hs
    rw [if_pos hs]
    refine still_bind (covers_still.only ambient_currentShift) fun shift => ?_
    refine still_bind (only_exit covers_still _ _) fun t => ?_
    refine ⟨⟨q, hm hl⟩, fun _ _ => ?_⟩
    refine still_bind (p := enqueueSnapshotsForGate _ _ _)
      (covers_still.only (ambient_snapshots _ _ _)) fun _ => ?_
    exact still_bind (covers_still.only (ambient_printReceipt _ _)) fun _ => trivial
  · rw [if_neg hs]
    by_cases hl : a.status = .lostContact
    · rw [if_pos hl]
      trivial
    · rw [if_neg hl]
      split
      · exact ⟨⟨q, hm hl⟩, fun _ _ => trivial⟩
      · trivial

theorem minds_result (a : EmoneyResult) :
    Minds Matching.may Matching.move none (processEmoneyResult a) := by
  refine ⟨trivial, fun p _ => ?_⟩
  cases p with
  | none => trivial
  | some q =>
    refine ⟨trivial, fun _ _ => ⟨trivial, fun rows _ => ?_⟩⟩
    change Minds Matching.may Matching.move (some (a.gateId, q)) (Prog.bind (.pure rows) _)
    dsimp only [Prog.bind]
    split
    · exact ⟨⟨q, rfl⟩, fun _ _ => trivial⟩
    · refine still_bind (only_persistCard covers_still _ _) fun t => ?_
      exact ⟨trivial, fun e _ => minds_outcome a q t _ fun hl => if_neg hl⟩

theorem minds_respond {p : Api PaymentResponse} (h : Minds Matching.may Matching.move m p) :
    Minds Matching.may Matching.move m (respond p) := by
  refine follows_handle.mpr (h.mono (fun _ _ h => h) fun g e _ => ?_)
  cases e <;> trivial

theorem minds_emoneyResult (operatorId : Option Id) (r : EmoneyResultRequest) :
    Minds Matching.may Matching.move none (emoneyResult operatorId r) := by
  unfold emoneyResult
  cases DeductStatus.parse r.status with
  | none => trivial
  | some status =>
    exact minds_respond ((minds_result _).bind (fun _ _ _ => trivial) fun _ _ _ => trivial)

theorem minds_request (q : Request) : Minds Matching.may Matching.move none q.handler := by
  cases q with
  | cash k operatorId r =>
    exact still_minds (only_idempotent k ((only_cash covers_still _).bind fun _ => only_pure)
      (fun _ => trivial) fun _ _ => trivial)
  | rfid k operatorId r =>
    exact still_minds (only_idempotent k ((only_rfid covers_still _).bind fun _ => only_pure)
      (fun _ => trivial) fun _ _ => trivial)
  | deduct operatorId r =>
    exact still_minds (only_respond ((only_deduct covers_still _ fun _ => trivial).bind
      fun _ => only_pure))
  | result operatorId r => exact minds_emoneyResult operatorId r
  | boothRfid r =>
    refine still_bind (only_boothLimit _ trivial) fun _ => ?_
    exact still_minds (only_respond ((only_rfid covers_still _).bind fun _ => only_pure))
  | boothResult r =>
    exact still_bind (only_boothLimit _ trivial) fun _ => minds_emoneyResult none r

end Handlers

section Runs
variable {ι σ : Type} [DecidableEq ι]

abbrev ReqWatched (ι σ : Type) :=
  Watched ι Id ParkingTransaction TxUpdate Effect.Ans Exc PaymentResponse σ Matching

abbrev MatchStep (req : ι → Request) (ext : σ → (e : Effect) → e.Ans → σ → Prop) :
    ReqWatched ι σ → ReqLabel ι → ReqWatched ι σ → Prop :=
  WatchStep txSchema (Serves req) ext Matching.move none

/-- Redis answers with what is pending; an entry comes from its arm and may expire at any time. -/
structure Arms (pending : σ → String → Option Pending)
    (ext : σ → (e : Effect) → e.Ans → σ → Prop) : Prop where
  get : ∀ {sh g p sh'}, ext sh (.getPending g) (some p) sh' → pending sh g = some p
  set : ∀ {sh g p a sh'}, ext sh (.setPending g p) a sh' →
    ∀ g' q, pending sh' g' = some q → (g' = g ∧ q = p) ∨ pending sh g' = some q
  keep : ∀ {sh e a sh'}, ext sh e a sh' → (∀ g p, e ≠ .setPending g p) →
    ∀ g q, pending sh' g = some q → pending sh g = some q

/-- The arm that the session sets with its next statement. -/
def arming : ReqSession → Option (String × Pending)
  | .running (.call (.ext (.setPending g q)) _) _ => some (g, q)
  | _ => none

/-- The gate that the session clears with its next statement. -/
def clearing : ReqSession → Option String
  | .running (.call (.ext (.clearPending g)) _) _ => some g
  | _ => none

/-- A gate is not armed for another vehicle while a result that was matched there has its clear
ahead of it. -/
def Undisputed (s : ReqWatched ι σ) : ReqLabel ι → Prop
  | .stmt j => ∀ x ∈ arming (s.sys.session j), ∀ i, ∀ m ∈ s.note i, m.1 = x.1 →
      m.2.transactionId = x.2.transactionId
  | _ => True

instance [Fintype ι] (s : ReqWatched ι σ) (l : ReqLabel ι) : Decidable (Undisputed s l) :=
  match l with
  | .stmt j => inferInstanceAs (Decidable (∀ x ∈ arming (s.sys.session j), ∀ i, ∀ m ∈ s.note i,
      m.1 = x.1 → m.2.transactionId = x.2.transactionId))
  | .begin _ => .isTrue trivial
  | .commit _ _ _ => .isTrue trivial
  | .abort _ => .isTrue trivial

/-- Who is about to clear a gate was matched there, and removes no arm of another vehicle. -/
def Spares (pending : σ → String → Option Pending) (s : ReqWatched ι σ) : Prop :=
  ∀ i, ∀ g ∈ clearing (s.sys.session i), ∃ p, s.note i = some (g, p) ∧
    ∀ q, pending s.sys.shared g = some q → q.transactionId = p.transactionId

/-- Whatever is pending at a gate is for the vehicle of every result that was matched there. -/
structure Matched (pending : σ → String → Option Pending) (s : ReqWatched ι σ) : Prop where
  mindful : ∀ i, Mindful Matching.may Matching.move none (s.note i) (s.sys.session i)
  own : ∀ i m, s.note i = some m → ∀ q, pending s.sys.shared m.1 = some q →
    q.transactionId = m.2.transactionId

variable {req : ι → Request} {ext : σ → (e : Effect) → e.Ans → σ → Prop}
  {pending : σ → String → Option Pending} {s t : ReqWatched ι σ} {l : ReqLabel ι}
  {xs : List (ReqLabel ι × ReqWatched ι σ)}

omit [DecidableEq ι] in
/-- After an effect, what is pending at a matched gate is still for the matched vehicle. -/
theorem own_effect (ha : Arms pending ext) (h : Matched pending s) {j i : ι} {e : Effect}
    {k : e.Ans → Api PaymentResponse} {w : List (Id × TxUpdate)} {a : e.Ans} {sh : σ}
    (hj : s.sys.session j = .running (.call (.ext e) k) w) (he : ext s.sys.shared e a sh)
    (hu : Undisputed s (.stmt j)) {m : String × Pending} (hm : s.note i = some m) {q : Pending}
    (hq : pending sh m.1 = some q) : q.transactionId = m.2.transactionId := by
  by_cases hset : ∃ g p, e = .setPending g p
  · obtain ⟨g, p, rfl⟩ := hset
    rcases ha.set he m.1 q hq with ⟨hg, rfl⟩ | hold
    · have harm : arming (s.sys.session j) = some (g, q) := by rw [hj]; rfl
      exact (hu (g, q) harm i m hm hg).symm
    · exact h.own i m hm q hold
  · have hne : ∀ g p, e ≠ .setPending g p := fun g p hgp => hset ⟨g, p, hgp⟩
    exact h.own i m hm q (ha.keep he hne m.1 q hq)

/-- A result is matched to what is pending, and keeps its match until it lets go of it. -/
theorem move_cases (ha : Arms pending ext) {sh sh' : σ} {m : Matching} {e : Effect} {a : e.Ans}
    {x : String × Pending} (he : ext sh e a sh') (hx : m.move e a = some x) :
    m = some x ∨ ((∀ g p, e ≠ .setPending g p) ∧ pending sh x.1 = some x.2) := by
  cases e with
  | getPending g =>
    obtain ⟨p, rfl, rfl⟩ := Option.map_eq_some_iff.mp hx
    exact Or.inr ⟨by nofun, ha.get he⟩
  | clearPending g => cases hx
  | insertEmoney e =>
    simp only [Matching.move] at hx
    split at hx
    · cases hx
    · exact Or.inl hx
  | _ => exact Or.inl hx

theorem matched_step (ha : Arms pending ext) (hs : MatchStep req ext s l t)
    (hu : Undisputed s l) (h : Matched pending s) : Matched pending t := by
  have hstart : ∀ j p, Serves req j p → Minds Matching.may Matching.move none p := by
    rintro j p rfl
    exact minds_request (req j)
  refine ⟨mindful_step hstart hs h.mindful, ?_⟩
  cases hs with
  | @effect j e k w a sh hj he =>
    intro i m hm q hq
    by_cases hij : i = j
    · subst i
      have hnote : Matching.move (s.note j) e a = some m := by simpa using hm
      rcases move_cases ha he hnote with hold | ⟨hne, hread⟩
      · exact own_effect ha h hj he hu hold hq
      · have hpend := ha.keep he hne m.1 q hq
        rw [hread] at hpend
        cases hpend
        rfl
    · have hold : s.note i = some m := by simpa [hij] using hm
      exact own_effect ha h hj he hu hold hq
  | rows hs =>
    intro i m hm q hq
    dsimp only at hm hq
    rw [hs.shared_rows] at hq
    split at hm
    · cases hm
    · exact h.own i m hm q hq

omit [DecidableEq ι] in
theorem Matched.spares (h : Matched pending s) : Spares pending s := by
  intro i g hg
  have hmind := h.mindful i
  unfold clearing at hg
  split at hg
  · rename_i g' k w hi
    cases hg
    rw [hi] at hmind
    obtain ⟨p, hp⟩ := hmind.issue
    exact ⟨p, hp, h.own i (g, p) hp⟩
  · cases hg

/-- Before the requests arrive. -/
def Unmatched (s : ReqWatched ι σ) : Prop :=
  ∀ i, s.sys.session i = .idle ∧ s.note i = none

/-- The interleavings of the requests, with the matches written beside them. -/
theorem requests_watched {u : ReqSys ι σ} {ys : List (ReqLabel ι × ReqSys ι σ)} :
    Path (ReqStep req ext) u ys ↔
      ∃ xs, Path (MatchStep req ext) { sys := u, note := fun _ => none } xs ∧
        xs.map (fun x => (x.1, x.2.sys)) = ys := by
  constructor
  · intro h
    exact watched_path (s := { sys := u, note := fun _ => none }) h
  · rintro ⟨xs, h, rfl⟩
    exact unwatched_path h

/-- While no gate is armed for another vehicle between the match and the clear of a result, no
result removes the arm of another vehicle. -/
theorem clear_spares_arms (ha : Arms pending ext) (hs : Unmatched s)
    (h : Path (fun s l t => MatchStep req ext s l t ∧ Undisputed s l) s xs) :
    Spares pending (finish s xs) := by
  have hstart : Matched pending s := by
    constructor
    · intro i
      obtain ⟨hidle, hnote⟩ := hs i
      rw [hidle]
      exact hnote
    · intro i m hm
      rw [(hs i).2] at hm
      cases hm
  have hend : Matched pending (finish s xs) :=
    h.invariant (fun _ _ _ hstep hi => matched_step ha hstep.1 hstep.2 hi) hstart
  exact hend.spares

end Runs

section Race

def World.armed (w : World) (g : String) : Option Pending := w.live (w.pending g)

theorem armed_of_later {w w' : World} {g : String} {q : Pending}
    (h : w'.armed g = some q) (hp : w'.pending g = w.pending g ∨ w'.pending g = none)
    (hnow : w.now ≤ w'.now) : w.armed g = some q := by
  unfold World.armed World.live at h ⊢
  rcases hp with hp | hp <;> rw [hp] at h
  · obtain ⟨e, he, hlive⟩ := Option.bind_eq_some_iff.mp h
    rw [he]
    split at hlive
    · have hlt : w.now < e.2 := by omega
      simpa [hlt] using hlive
    · cases hlive
  · cases h

theorem worldExt_run {w w' : World} {e : Effect} {a : e.Ans} (h : WorldExt w e a w') :
    ∃ c, execEffect e { world := w } = (.ok a, c) ∧ c.world = w' := by
  unfold WorldExt worldAnswer at h
  rcases hr : execEffect e { world := w } with ⟨x | b, c⟩ <;> rw [hr] at h <;> cases h
  exact ⟨c, rfl, rfl⟩

/-- Only an arm adds a pending state, and the clock does not go back. -/
theorem execEffect_keeps {e : Effect} (c : Conn) (he : ∀ g p, e ≠ .setPending g p) :
    (∀ g, (execEffect e c).2.world.pending g = c.world.pending g ∨
      (execEffect e c).2.world.pending g = none) ∧
    c.world.now ≤ (execEffect e c).2.world.now := by
  cases e with
  | setPending g p => exact (he g p rfl).elim
  | now => exact ⟨fun _ => Or.inl rfl, by simp [execEffect, World.readClock]⟩
  | clearPending g' =>
    simp only [execEffect]
    split
    · exact ⟨fun _ => Or.inl rfl, le_rfl⟩
    · refine ⟨fun g => ?_, le_rfl⟩
      by_cases hg : g = g'
      · exact Or.inr (if_pos hg)
      · exact Or.inl (if_neg hg)
  | insertTx _ | insertEmoney _ =>
    simp only [execEffect]
    split <;> exact ⟨fun _ => Or.inl rfl, le_rfl⟩
  | setIdempotency _ _ | enqueue _ =>
    simp only [execEffect]
    split <;> exact ⟨fun _ => Or.inl rfl, le_rfl⟩
  | _ => exact ⟨fun _ => Or.inl rfl, le_rfl⟩

theorem arms_world : Arms World.armed WorldExt := by
  constructor
  · intro w g p w' h
    obtain ⟨c, hc, -⟩ := worldExt_run h
    simp only [execEffect] at hc
    by_cases hr : w.redisDown
    · simp [hr] at hc
    · simpa [hr, World.armed] using congrArg Prod.fst hc
  · intro w g p a w' h g' q hq
    obtain ⟨c, hc, rfl⟩ := worldExt_run h
    simp only [execEffect] at hc
    split at hc <;> cases hc
    by_cases hg : g' = g
    · subst g'
      have hentry : (w.setPending g (some p)).pending g =
          some (p, w.expiry emoneyPendingTtlSeconds) := if_pos rfl
      unfold World.armed World.live at hq
      rw [hentry, Option.bind_some] at hq
      split at hq
      · exact Or.inl ⟨rfl, (Option.some.inj hq).symm⟩
      · cases hq
    · exact Or.inr (armed_of_later hq (Or.inl (if_neg hg)) le_rfl)
  · intro w e a w' h hne g q hq
    obtain ⟨c, hc, rfl⟩ := worldExt_run h
    have hkeep := execEffect_keeps { world := w } hne
    rw [hc] at hkeep
    exact armed_of_later hq (hkeep.1 g) hkeep.2

/-- The first of two cars has the exit gate armed. -/
def armedForFirst : World :=
  (Call.deduct { gateId := "OUT1", gateOutId := 2, barcode := "T1001" }).after twoCars.world

def exitDesk : ReqWatched (Fin 3) World where
  sys :=
    { table := armedForFirst.db.parking
      holder := fun _ => none
      session := fun _ => .idle
      shared := armedForFirst }
  note _ := none

theorem length_T1002 : 4 ≤ "T1002".length ∧ "T1002".length ≤ 64 := by decide

/-- The bridge and the POS deliver the result of the first car; the second car wants to pay. -/
def exitRequest : Fin 3 → Request
  | 0 => .boothResult { tap with deductAmount := 9000 }
  | 1 => .result none { tap with deductAmount := 9000 }
  | 2 => .deduct none
      { gateId := "OUT1", gateOutId := 2, barcode := "T1002", barcode_length := length_T1002 }

abbrev ExitTurn := Turn (Fin 3) Id ParkingTransaction TxUpdate Effect.Ans Exc PaymentResponse

def arrive (i : Fin 3) : ExitTurn := .begin i (exitRequest i).handler

def go (n : Nat) (i : Fin 3) : List ExitTurn := List.replicate n (.go i)

def exitRun (ts : List ExitTurn) : List (ReqLabel (Fin 3) × ReqWatched (Fin 3) World) :=
  watchTurns txSchema worldAnswer Matching.move none exitDesk ts

/-- Both deliveries read the pending arm; the bridge's pays, the gate is armed for the second
car, and then the POS's finds its row completed. -/
def staleClear : List ExitTurn :=
  [arrive 0] ++ go 2 0 ++ [arrive 1] ++ go 1 1 ++ go 30 0 ++ [arrive 2] ++ go 12 2 ++ go 4 1

theorem exitTurns_serve {ts : List ExitTurn}
    (h : ∀ x ∈ ts, (∃ i, x = arrive i) ∨ ∃ i, x = .go i) (j : Fin 3) (p : Api PaymentResponse)
    (hp : .begin j p ∈ ts) : Serves exitRequest j p := by
  rcases h _ hp with ⟨i, hi⟩ | ⟨i, hi⟩
  · cases hi
    rfl
  · cases hi

/-- The order in which the arm of the second car is lost: the result of the first one is about to
clear it, and does. -/
theorem clear_removes_other_arm :
    let p : Pending := { transactionId := 1, gateOutId := 2, fee := 9000 }
    let q : Pending := { transactionId := 2, gateOutId := 2, fee := 10000 }
    let before := finish exitDesk (exitRun staleClear)
    let after := finish exitDesk (exitRun (staleClear ++ go 1 1))
    Unmatched exitDesk ∧
    Path (MatchStep exitRequest WorldExt) exitDesk (exitRun (staleClear ++ go 1 1)) ∧
    (clearing (before.sys.session 1) = some "OUT1" ∧ before.note 1 = some ("OUT1", p) ∧
      before.sys.shared.armed "OUT1" = some q ∧ after.sys.shared.armed "OUT1" = none) ∧
    ¬ Spares World.armed before := by
  refine ⟨fun i => ⟨rfl, rfl⟩, watchTurns_path (fun _ _ _ _ h => h) (exitTurns_serve ?_),
    ⟨rfl, rfl, rfl, rfl⟩, fun h => ?_⟩
  · simp [staleClear, go]
  · obtain ⟨p, hp, hown⟩ := h 1 "OUT1" rfl
    cases hp
    exact absurd (hown _ rfl) (by decide)

/-- The second car is armed after the result of the first one is done. -/
def inOrder : List ExitTurn := [arrive 0] ++ go 30 0 ++ [arrive 2] ++ go 12 2 ++ [arrive 1] ++ go 2 1

theorem clear_spares_arms_inOrder : Spares World.armed (finish exitDesk (exitRun inOrder)) := by
  have hpath : Path (MatchStep exitRequest WorldExt) exitDesk (exitRun inOrder) := by
    refine watchTurns_path (fun _ _ _ _ h => h) (exitTurns_serve ?_)
    simp [inOrder, go]
  exact clear_spares_arms arms_world (fun i => ⟨rfl, rfl⟩) (hpath.and (by decide))

end Race
end ParkIt
