import ParkIt.Entries.Record
import ParkIt.Services.Spec

/-! The commands that open a gate, and the stays that they are for. -/
namespace ParkIt.Entries

open Effects Sessions GateIn Transition UniqueIndex

section Tables
variable {d : Stores} {q p r : Row}

/-- No two active stays share a card. -/
theorem Kept.card_unique (hd : Kept d) (hq : q ∈ d.table.rows) (hp : p ∈ d.table.rows)
    (hqa : q.tx.status = .active) (hpa : p.tx.status = .active)
    (hcard : Shares (·.cardNumber) q.tx p.tx) : q = p := by
  by_contra hne
  refine hd.table.rows q hq p hp ⟨fun hid => hne ?_, hqa, hpa, Or.inl hcard⟩
  exact hd.table.eq_of_key hq hp hid

theorem Kept.barcode_unique (hd : Kept d) (hq : q ∈ d.table.rows) (hp : p ∈ d.table.rows)
    (hqa : q.tx.status = .active) (hpa : p.tx.status = .active)
    (hbarcode : Shares (·.barcode) q.tx p.tx) : q = p := by
  by_contra hne
  refine hd.table.rows q hq p hp ⟨fun hid => hne ?_, hqa, hpa, Or.inr hbarcode⟩
  exact hd.table.eq_of_key hq hp hid

theorem findActive_eq (hd : Kept d) (hr : r ∈ d.table.rows) (hactive : r.tx.status = .active)
    {barcode : String} (hbarcode : r.tx.barcode = some barcode) (hne : barcode ≠ "") {db : Db}
    (hdb : db.parking = d.table.rows.map (·.tx)) :
    db.findActive (some barcode) none none = some r.tx := by
  have hmem : r.tx ∈ db.parking.filter fun t =>
      decide (t.status = .active ∧ t.barcode = some barcode) := by
    rw [hdb]
    exact List.mem_filter.mpr ⟨List.mem_map_of_mem hr, decide_eq_true ⟨hactive, hbarcode⟩⟩
  rw [Db.findActive_of_barcode hne]
  cases hfound : mostRecent (db.parking.filter fun t =>
      decide (t.status = .active ∧ t.barcode = some barcode)) with
  | none =>
    rw [mostRecent_eq_none hfound] at hmem
    cases hmem
  | some t =>
    obtain ⟨ht, hmatch⟩ := List.mem_filter.mp (mostRecent_mem hfound)
    obtain ⟨hta, htb⟩ := of_decide_eq_true hmatch
    rw [hdb] at ht
    obtain ⟨q, hq, rfl⟩ := List.mem_map.mp ht
    have hshares : Shares (·.barcode) q.tx r.tx :=
      ⟨fun hnone => Option.some_ne_none _ (htb.symm.trans hnone), htb.trans hbarcode.symm⟩
    rw [hd.barcode_unique hq hr hta hactive hshares]

/-- The lookup at the exit finds the one stay with the barcode. -/
theorem findActiveTransaction_exec (hd : Kept d) (hr : r ∈ d.table.rows)
    (hactive : r.tx.status = .active) {barcode : String} (hbarcode : r.tx.barcode = some barcode)
    (hne : barcode ≠ "") {world : World} (hdb : world.db.parking = d.table.rows.map (·.tx))
    (forUpdate : Bool) :
    (findActiveTransaction (some barcode) none none forUpdate).exec world =
      (.ok (some r.tx), world) := by
  have hfind := findActive_eq hd hr hactive hbarcode hne hdb
  have htruthy : truthy (some barcode) = some barcode := by simp [truthy, Option.filter, hne]
  simp only [Db.findActive, activeFilter, htruthy, Option.bind_some] at hfind
  unfold findActiveTransaction
  simp only [activeFilter, htruthy]
  rw [← hfind]
  cases forUpdate <;> rfl

end Tables

section Runs
variable {ι : Type} [DecidableEq ι] {s t : EntrySys ι} {l : Label ι EntryOp} {n : Nat}
  {xs : List (Label ι EntryOp × EntrySys ι)}

/-- Before the first message: nothing is on its way, and no stay is due to a message. -/
structure AtRest (s : EntrySys ι) : Prop where
  quiet : s.Quiet
  kept : Kept s.shared
  stream : s.shared.stream = []
  origins : ∀ r ∈ s.shared.table.rows, r.origin = none

omit [DecidableEq ι] in
theorem backed_start (h : AtRest s) : Backed s := fun j x hx => by simp [h.quiet.1 j] at hx

omit [DecidableEq ι] in
/-- A command that opens a gate comes from a handler that has committed the stay for it. -/
theorem opening_back (hs : Sound s) (hb : Backed s) {j : ι} {c : RedisCommand}
    {x : Session EntryOp EntryOp.Ans EntryExc Unit Own Note} (hx : s.session j = some x)
    (hallow : x.note.Allows (.lane (.publishCommand c n))) (hc : opens c = true) :
    ∃ gateId w, x.note.origin = some (n, gateId) ∧ x.note.phase = .committed w ∧ c = w.opening ∧
      w.Looked s.log n x.note.event ∧ w.Vetted ∧ .committed (n, gateId) w ∈ s.log ∧
      ∃ r ∈ s.shared.table.rows, r.origin = some (n, gateId) ∧
        r.tx.barcode = w.entry.barcode := by
  obtain ⟨gateId, horigin, ⟨hplain, -⟩ | ⟨w, hphase, hw⟩⟩ := hallow
  · exact nomatch hplain.symm.trans hc
  · have hbacked := hb j x hx n gateId horigin
    rw [hphase] at hbacked
    obtain ⟨hlooked, hvetted, hcommitted⟩ := hbacked
    obtain ⟨r, hr, hro, hrb⟩ := (hs.fits j x hx).committed w hphase
    exact ⟨gateId, w, horigin, hphase, hw, hlooked, hvetted, hcommitted, r, hr,
      hro.trans horigin, hrb⟩

/-- What is on record has been so: of a committed stay, a member, and a date. -/
def Truthful (s t : EntrySys ι) : Prop :=
  (∀ origin w, .committed origin w ∈ t.log → .committed origin w ∈ s.log ∨
    ∃ r ∈ t.shared.table.rows, r.origin = some origin ∧ Fresh w r ∧
      ∀ q ∈ s.shared.table.rows, q.tx.id ≠ r.tx.id) ∧
  (∀ n cardNumber m, .found n cardNumber m ∈ t.log → .found n cardNumber m ∈ s.log ∨
    s.shared.members.lookup cardNumber = some m) ∧
  ∀ n day, .dated n day ∈ t.log → .dated n day ∈ s.log ∨ s.shared.today = day

theorem truthful_step (hs : Sound s) (h : Step entryCalls s l t) : Truthful s t :=
  ⟨fun _ _ he => committed_step hs h he, fun _ _ _ he => found_step h he,
    fun _ _ he => dated_step h he⟩

/-- The gate is opened for the card of a member who has been let in. -/
def OpensForMember (s : EntrySys ι) (l : Label ι EntryOp) : Prop :=
  ∀ j durationSeconds reason n,
    l = .go j (.lane (.publishCommand (.openGate durationSeconds reason) n)) →
    ∃ x gateId cardNumber channel gate m day, s.session j = some x ∧
      x.note.origin = some (n, gateId) ∧
      x.note.event = some (.rfidCardRead cardNumber channel) ∧ gate.directionOut = false ∧
      .found n cardNumber m ∈ s.log ∧ m.isActive = true ∧
      (∀ validUntil ∈ m.validUntil, ∃ today ∈ day, today ≤ validUntil ∧ .dated n today ∈ s.log) ∧
      .committed (n, gateId) (.card gate cardNumber m day) ∈ s.log

theorem session_of_go {j : ι} {o : EntryOp} (hs : Sound s)
    (h : Step entryCalls s (.go j o) t) : ∃ x, s.session j = some x ∧ x.note.Allows o := by
  cases h with
  | go hj _ | fail hj _ | during hj _ => exact ⟨_, hj, (hs.inProtocol _ _ hj).1⟩

theorem opens_for_member (hs : Sound s) (hb : Backed s) (h : Step entryCalls s l t) :
    OpensForMember s l := by
  rintro j durationSeconds reason n rfl
  obtain ⟨x, hx, hallow⟩ := session_of_go hs h
  obtain ⟨gateId, w, horigin, -, hw, hlooked, hvetted, hcommitted, -⟩ :=
    opening_back hs hb hx hallow rfl
  cases w with
  | ticket gate barcode => exact nomatch hw
  | card gate cardNumber m day =>
    obtain ⟨⟨channel, hevent⟩, hfound, hdated⟩ := hlooked
    obtain ⟨hin, hactive, hvalid⟩ := hvetted
    refine ⟨x, gateId, cardNumber, channel, gate, m, day, hx, horigin, hevent, hin, hfound, hactive,
      fun validUntil hv => ?_, hcommitted⟩
    obtain ⟨today, htoday, hle⟩ := hvalid validUntil hv
    exact ⟨today, htoday, hle, hdated today htoday⟩

omit [DecidableEq ι] in
theorem sound_backed_start (hrest : AtRest s) : Sound s ∧ Backed s :=
  ⟨sound_start hrest.quiet hrest.kept, backed_start hrest⟩

theorem sound_backed_step (s : EntrySys ι) (l : Label ι EntryOp) (t : EntrySys ι)
    (h : Step entryCalls s l t) (hs : Sound s ∧ Backed s) : Sound t ∧ Backed t :=
  ⟨sound_step h hs.1, backed_step hs.1 h hs.2⟩

/-- Every run keeps what its handlers rely on. -/
theorem sound_path (hrest : AtRest s) (h : Path (Step entryCalls) s xs) :
    Sound (finish s xs) ∧ Backed (finish s xs) :=
  h.invariant sound_backed_step (sound_backed_start hrest)

/-- In every run: who opens a gate with a card has been let in, and a card has one stay. -/
theorem member_entry_safe (hrest : AtRest s) (h : Path (Step entryCalls) s xs) :
    Path (fun s l _ => OpensForMember s l) s xs ∧ Path (fun s _ t => Truthful s t) s xs ∧
    ∀ q ∈ (finish s xs).shared.table.rows, ∀ p ∈ (finish s xs).shared.table.rows,
      q.tx.status = .active → p.tx.status = .active → Shares (·.cardNumber) q.tx p.tx → q = p := by
  have hstart := sound_backed_start hrest
  refine ⟨h.each sound_backed_step (fun _ _ _ hstep hs => opens_for_member hs.1 hs.2 hstep) hstart,
    h.each sound_backed_step (fun _ _ _ hstep hs => truthful_step hs.1 hstep) hstart, ?_⟩
  intro q hq p hp hqa hpa hcard
  exact (sound_path hrest h).1.kept.card_unique hq hp hqa hpa hcard

end Runs

section Schedules

instance (column : ParkingTransaction → Option String) (t u : ParkingTransaction) :
    Decidable (Shares column t u) := inferInstanceAs (Decidable (_ ∧ _))

instance (r q : Row) : Decidable (uniqueIndexes.Clash r q) :=
  inferInstanceAs (Decidable (_ ∧ _ ∧ _ ∧ (_ ∨ _)))

instance (d : Stores) (own : Own) (r : Row) : Decidable (d.Accepts own r) :=
  decidable_of_iff
    (((∀ v ∈ d.table.inflight, uniqueIndexes.key v.2 = uniqueIndexes.key r →
          v.1 = own.writer d) ∧
        (∀ q ∈ d.table.rows, uniqueIndexes.Clash r q →
          ∃ v ∈ d.table.own (own.writer d), uniqueIndexes.key v = uniqueIndexes.key q) ∧
        ∀ v ∈ d.table.inflight, ¬ uniqueIndexes.Clash r v.2) ∧
      ∀ x ∈ own.xid, d.table.own x ≠ [])
    ⟨fun h => ⟨⟨h.1.1, h.1.2.1, h.1.2.2⟩, h.2⟩,
      fun h => ⟨⟨h.admits.lock, h.admits.rows, h.admits.inflight⟩, h.alive⟩⟩

/-- A text of twelve characters. -/
def drawn (c : Char) : String := String.ofList (List.replicate 12 c)

/-- One outcome of every operation of a consumer; Redis takes the commands or it does not. -/
def Stores.perform (redis : Bool) : (o : EntryOp) → Stores → Own → Option o.Ans × Stores × Own
  | .lane .gateByCode, d, own => (some (some (own.origin.bind fun m => d.gates.lookup m.2)), d, own)
  | .lane (.memberByCard cardNumber), d, own => (some (some (d.members.lookup cardNumber)), d, own)
  | .lane (.unclosed cardNumber), d, own =>
    (some (some ((d.visible own).any fun r =>
      r.tx.status = .active ∧ r.tx.cardNumber = some cardNumber)), d, own)
  | .lane .today, d, own => (some d.today, d, own)
  | .lane .uuid, d, own => (some (drawn (if d.nextTx = 1 then 'A' else 'B')), d, own)
  | .lane (.createEntry e), d, own =>
    if d.Accepts own (d.stored own (entryRow e (.utc 0))) then
      (some (some e.barcode), d.inserted own (entryRow e (.utc 0)), own.writing d)
    else (some none, d, own)
  | .lane .commit, d, own =>
    match own.xid with
    | none => (some true, d, own)
    | some x =>
      if d.table.own x ≠ [] then
        (some true, { d with table := d.table.commit uniqueIndexes x }, { own with xid := none })
      else (some false, d, own)
  | .lane (.publishCommand c n), d, own =>
    if redis then (some true, d.add own n c, own) else (some false, d, own)
  | _, d, own => (none, d, own)

theorem perform_acts {redis : Bool} {o : EntryOp} {d d' : Stores} {own own' : Own} {a : o.Ans}
    (h : Stores.perform redis o d own = (some a, d', own')) : Acts o d own a d' own' := by
  unfold Stores.perform at h
  split at h
  · cases h
    exact .gateByCode
  · cases h
    exact .memberByCard
  · cases h
    exact .unclosed
  · cases h
    exact .today
  · cases h
    exact .uuid (by simp [drawn])
  · split at h <;> cases h
    · exact .createEntry ‹_›
    · exact .createRaises le_rfl
  · split at h
    · cases h
      exact .commitNothing ‹_›
    · split at h <;> cases h
      · exact .commit ‹_› ‹_›
      · exact .commitRaises
  · split at h <;> cases h
    · exact .publish
    · exact .publishRaises
  · cases h

theorem perform_fails {redis : Bool} {o : EntryOp} {d d' : Stores} {own own' : Own}
    (h : Stores.perform redis o d own = (none, d', own')) : Fails o d own d' := by
  have hsame : d' = d := by
    unfold Stores.perform at h
    split at h
    all_goals (repeat' split at h) <;> cases h
    rfl
  rw [hsame]
  exact .unreached

abbrev EntryTurn := Turn Bool EntryOp EntryOp.Ans EntryExc Unit Stores Own Note

/-- A message of the gate IN1 is taken up by a consumer. -/
def takesUp (j : Bool) (e : GateIn.GateEvent) (n : Nat) : EntryTurn :=
  .start j (consume e n) { origin := some (n, "IN1") } (handling n "IN1" (some e) .begun)

def entryRun (redis : Bool) (s : EntrySys Bool)
    (xs : List ((Bool × GateIn.GateEvent × Nat) × List Bool)) :
    List (Label Bool EntryOp × EntrySys Bool) :=
  takeTurns entryCalls (Stores.perform redis) s
    (xs.flatMap fun x => takesUp x.1.1 x.1.2.1 x.1.2.2 :: x.2.map .go)

theorem entryRun_path (redis : Bool) (s : EntrySys Bool)
    (xs : List ((Bool × GateIn.GateEvent × Nat) × List Bool)) :
    Path (Step entryCalls) s (entryRun redis s xs) := by
  refine takeTurns_path (M := entryCalls) (fun _ _ _ _ _ _ h => perform_acts h)
    (fun _ _ _ _ _ h => perform_fails h) ?_ ?_
  · intro j p own g hmem
    obtain ⟨⟨⟨k, e, n⟩, order⟩, -, hx⟩ := List.mem_flatMap.mp hmem
    rcases List.mem_cons.mp hx with hstart | hgo
    · cases hstart
      exact Or.inl ⟨e, n, "IN1", rfl, rfl, rfl⟩
    · obtain ⟨_, -, hgo⟩ := List.mem_map.mp hgo
      cases hgo
  · intro f hmem
    obtain ⟨⟨⟨k, e, n⟩, order⟩, -, hx⟩ := List.mem_flatMap.mp hmem
    rcases List.mem_cons.mp hx with hstart | hgo
    · cases hstart
    · obtain ⟨_, -, hgo⟩ := List.mem_map.mp hgo
      cases hgo

/-- One entry gate and one member. -/
def lane : EntrySys Bool where
  shared :=
    { table := { rows := [] }
      gates := [("IN1", { id := 1, name := "Masuk", directionOut := false })]
      members := [("M-77", ⟨7, true, some 30, none, none⟩)] }

theorem lane_atRest : AtRest lane where
  quiet := ⟨fun _ => rfl, rfl⟩
  kept := by
    constructor
    · constructor <;> simp [lane]
    · simp [lane]
    · simp [lane]
  stream := rfl
  origins := by simp [lane]

/-- The member's card is read. -/
def tap : List (Label Bool EntryOp × EntrySys Bool) :=
  entryRun true lane [((false, .rfidCardRead "M-77" "reader", 1), List.replicate 9 false)]

theorem tap_path : Path (Step entryCalls) lane tap := entryRun_path _ _ _

/-- The card opens the gate, and has one stay. -/
theorem member_entry_safe_tap :
    (finish lane tap).shared.stream = [⟨"IN1", 1, .openGate none "operator"⟩] ∧
      (finish lane tap).shared.table.rows.map (fun r => (r.tx.status, r.tx.cardNumber)) =
        [(.active, some "M-77")] ∧
      Path (fun s l _ => OpensForMember s l) lane tap ∧
      Path (fun s _ t => Truthful s t) lane tap := by
  have hsafe := member_entry_safe lane_atRest tap_path
  exact ⟨by decide, by decide, hsafe.1, hsafe.2.1⟩

end Schedules
end ParkIt.Entries
