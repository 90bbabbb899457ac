import ParkIt.Entries.Openings
import Mathlib.Data.Finset.Card

/-! The tickets that are printed, and the stays that their barcodes find. -/
namespace ParkIt.Entries

open Effects Sessions GateIn Transition UniqueIndex

section Births
variable {ι : Type} [DecidableEq ι] {s t : EntrySys ι} {l : Label ι EntryOp} {r : Row}
  {xs : List (Label ι EntryOp × EntrySys ι)}

/-- The stay was in none of the states before some step of the run, and ACTIVE after it. -/
def CommittedActive (s : EntrySys ι) (xs : List (Label ι EntryOp × EntrySys ι)) (r : Row) : Prop :=
  ∃ pre l t post, xs = pre ++ (l, t) :: post ∧
    (∀ q ∈ (finish s pre).shared.table.rows, q.tx.id ≠ r.tx.id) ∧
    ∃ q ∈ t.shared.table.rows, SameStay q r ∧ q.tx.status = .active

/-- A stay was there before the step, or its handler has committed it. -/
theorem rows_born (hs : Sound s) (h : Step entryCalls s l t) (hr : r ∈ t.shared.table.rows) :
    (∃ q ∈ s.shared.table.rows, SameStay q r) ∨
      ∃ j a own' x w, l = .go j (.lane .commit) ∧ Did s t j (.lane .commit) a own' x ∧
        x.note.phase = .stored w ∧ r.origin = x.note.origin ∧ Fresh w r ∧
        ∀ q ∈ s.shared.table.rows, q.tx.id ≠ r.tx.id := by
  rcases step_cases hs.inProtocol h with (hsh | ⟨haround, -⟩) | ⟨j, o, a, own', x, rfl, hdid⟩
  · exact Or.inl ⟨r, hsh ▸ hr, .refl r⟩
  · exact Or.inl ⟨r, (around_same haround).1 ▸ hr, .refl r⟩
  · have hfits := hs.fits j x hdid.before
    cases change_step hs hdid with
    | same htable _ _ _ => exact Or.inl ⟨r, htable ▸ hr, .refl r⟩
    | wrote q _ htable _ _ _ _ =>
      rw [htable] at hr
      exact Or.inl ⟨r, hr, .refl r⟩
    | committed i ho hi _ htable _ _ _ =>
      subst ho
      rw [htable] at hr
      rcases mem_view.mp hr with ⟨hr, -⟩ | hr
      · exact Or.inl ⟨r, hr, .refl r⟩
      · rcases commit_own hfits hdid.allow hi (mem_own.mpr hr) with hq | ⟨w, hnew⟩
        · exact Or.inl hq
        · exact Or.inr ⟨j, a, own', x, w, rfl, hdid, hnew⟩

/-- A new stay is ACTIVE. -/
theorem rows_back (hs : Sound s) (h : Step entryCalls s l t) (hr : r ∈ t.shared.table.rows) :
    (∃ q ∈ s.shared.table.rows, SameStay q r) ∨
      r.tx.status = .active ∧ ∀ q ∈ s.shared.table.rows, q.tx.id ≠ r.tx.id := by
  rcases rows_born hs h hr with hq | ⟨j, a, own', x, w, -, -, -, -, hfresh, hid⟩
  · exact Or.inl hq
  · exact Or.inr ⟨hfresh.active, hid⟩

omit [DecidableEq ι] in
theorem committedActive_snoc {q : Row} {x : Label ι EntryOp × EntrySys ι}
    (h : CommittedActive s xs q) (hsame : SameStay q r) : CommittedActive s (xs ++ [x]) r := by
  obtain ⟨pre, l, t, post, rfl, hid, p, hp, hsame', hactive⟩ := h
  exact ⟨pre, l, t, post ++ [x], by simp, fun q' hq' => hsame.id ▸ hid q' hq', p, hp,
    hsame'.trans hsame, hactive⟩

/-- Every stay that is due to a message has been ACTIVE when it was committed. -/
theorem committedActive_path (hrest : AtRest s) (h : Path (Step entryCalls) s xs)
    (hr : r ∈ (finish s xs).shared.table.rows) (horigin : r.origin ≠ none) :
    CommittedActive s xs r := by
  induction xs using List.reverseRecOn generalizing r with
  | nil => exact absurd (hrest.origins r hr) horigin
  | append_singleton xs x ih =>
    obtain ⟨l, t⟩ := x
    obtain ⟨hpath, hstep, -⟩ := path_append.mp h
    rw [finish_append] at hr
    rcases rows_back (sound_path hrest hpath).1 hstep hr with ⟨q, hq, hsame⟩ | ⟨hactive, hid⟩
    · exact committedActive_snoc (ih hpath hq (hsame.origin ▸ horigin)) hsame
    · exact ⟨xs, l, t, [], rfl, hid, r, hr, .refl r, hactive⟩

theorem persist_path (hs : Sound s) (h : Path (Step entryCalls) s xs)
    (hr : r ∈ s.shared.table.rows) :
    Sound (finish s xs) ∧ ∃ p ∈ (finish s xs).shared.table.rows, SameStay r p := by
  refine h.invariant (P := fun t => Sound t ∧ ∃ p ∈ t.shared.table.rows, SameStay r p) ?_
    ⟨hs, r, hr, .refl r⟩
  rintro s l t hstep ⟨hs, p, hp, hsame⟩
  obtain ⟨q, hq, hsame'⟩ := persist_step hs hstep p hp
  exact ⟨sound_step hstep hs, q, hq, hsame.trans hsame'⟩

end Births

section Lookups
variable {ι : Type} [DecidableEq ι] {s t : EntrySys ι} {l : Label ι EntryOp}
  {xs : List (Label ι EntryOp × EntrySys ι)}

/-- The lookup of a barcode at the exit finds this stay and no other. -/
def Finds (d : Stores) (barcode : String) (r : Row) : Prop :=
  ∀ (w : World) (forUpdate : Bool), w.db.parking = d.table.rows.map (·.tx) →
    (findActiveTransaction (some barcode) none none forUpdate).exec w = (.ok (some r.tx), w)

/-- The stay keeps the barcode's lookup to itself as long as it is ACTIVE. -/
def FoundAfter (t : EntrySys ι) (xs : List (Label ι EntryOp × EntrySys ι)) (barcode : String)
    (r : Row) : Prop :=
  ∀ pre post, xs = pre ++ post → ∃ p ∈ (finish t pre).shared.table.rows, SameStay r p ∧
    (p.tx.status = .active → Finds (finish t pre).shared barcode p)

/-- A ticket that is added to a stream by the step from `s` to `t` is for a committed stay of the
same message and gate, and finds it in whatever follows. -/
theorem ticket_step (hs : Sound s) (hb : Backed s) (h : Step entryCalls s l t)
    (hxs : Path (Step entryCalls) t xs) {e : StreamEntry} {barcode gateName : String}
    (hadd : t.shared.stream = s.shared.stream ++ [e])
    (hprint : e.command = .printTicketThenOpen barcode gateName) :
    ∃ r ∈ s.shared.table.rows, r.origin = some (e.message, e.gateId) ∧
      r.tx.barcode = some barcode ∧ FoundAfter t xs barcode r := by
  rcases stream_step hs h with hsame | ⟨j, x, n, gateId, c, rfl, hx, horigin, hgrown, -, -⟩
  · rw [hsame] at hadd
    exact absurd hadd (by simp)
  · rw [hgrown] at hadd
    cases List.append_cancel_left hadd
    obtain ⟨y, hy, hallow⟩ := session_of_go hs h
    cases hx.symm.trans hy
    have hprint : c = .printTicketThenOpen barcode gateName := hprint
    have hopens : opens c = true := by
      rw [hprint]
      rfl
    obtain ⟨gateId', w, horigin', -, hw, -, hvetted, -, r, hr, hro, hrb⟩ :=
      opening_back hs hb hx hallow hopens
    cases horigin.symm.trans horigin'
    rw [hw] at hprint
    cases w with
    | card gate cardNumber m day => exact nomatch hprint
    | ticket gate barcode' =>
      cases hprint
      have hne : barcode ≠ "" := by
        rintro rfl
        have hlength : "".length = 12 := hvetted
        exact absurd hlength (by decide)
      refine ⟨r, hr, hro, hrb, ?_⟩
      rintro pre post rfl
      obtain ⟨q, hq, hsame⟩ := persist_step hs h r hr
      obtain ⟨hsound, p, hp, hsame'⟩ := persist_path (sound_step h hs) (path_append.mp hxs).1 hq
      have hbarcode : p.tx.barcode = some barcode :=
        ((hsame.trans hsame').barcode.symm).trans hrb
      exact ⟨p, hp, hsame.trans hsame', fun hactive w forUpdate hdb =>
        findActiveTransaction_exec hsound.kept hp hactive hbarcode hne hdb forUpdate⟩

end Lookups

section Counting
variable {ι : Type} [DecidableEq ι] {s t : EntrySys ι} {l : Label ι EntryOp} {n : Nat}
  {js : Finset ι} {xs : List (Label ι EntryOp × EntrySys ι)}

def isPrint : RedisCommand → Bool
  | .printTicketThenOpen _ _ => true
  | _ => false

/-- The tickets that are printed for a message. -/
def tickets (n : Nat) (d : Stores) : ℕ :=
  (d.stream.filter fun e => e.message = n ∧ isPrint e.command).length

/-- The session is about the message. -/
def About (n : Nat) (x : Session EntryOp EntryOp.Ans EntryExc Unit Own Note) : Bool :=
  x.note.origin.any (·.1 = n)

/-- A consumer takes up the message. -/
def takesMessage (n : Nat) : Label ι EntryOp × EntrySys ι → Bool
  | (.start j, t) => (t.session j).any (About n)
  | _ => false

def handlings (n : Nat) (xs : List (Label ι EntryOp × EntrySys ι)) : ℕ :=
  xs.countP (takesMessage n)

/-- The sessions that may still print a ticket for the message. -/
def Covers (n : Nat) (js : Finset ι) (s : EntrySys ι) : Prop :=
  ∀ j x, s.session j = some x → About n x = true → x.note.phase ≠ .closed → j ∈ js

theorem closed_next {o : EntryOp} {a : o.Ans} : Phase.closed.next o a = .closed := by
  unfold Phase.next
  split <;> rfl

theorem covers_start {j : ι} (h : Step entryCalls s (.start j) t) (hjs : Covers n js s) :
    ∃ js', Covers n js' t ∧
      js'.card ≤ js.card + if takesMessage n (.start j, t) then 1 else 0 := by
  by_cases htakes : takesMessage n (.start j, t)
  · refine ⟨insert j js, fun k y hy habout hopen => ?_, ?_⟩
    · rcases session_back h hy with hback | ⟨hl, -, -⟩ | ⟨o, a, x, hl, -⟩
      · exact Finset.mem_insert_of_mem (hjs k y hback habout hopen)
      · cases hl
        exact Finset.mem_insert_self j js
      · cases hl
    · rw [if_pos htakes]
      exact Finset.card_insert_le j js
  · refine ⟨js, fun k y hy habout hopen => ?_, by simp⟩
    rcases session_back h hy with hback | ⟨hl, -, -⟩ | ⟨o, a, x, hl, -⟩
    · exact hjs k y hback habout hopen
    · cases hl
      exact absurd (by rw [takesMessage, hy]; exact habout) htakes
    · cases hl

/-- A step that starts no session leaves the sessions that may print among the same ones. -/
theorem covers_other (h : Step entryCalls s l t) (hl : ∀ j, l ≠ .start j) (hjs : Covers n js s) :
    Covers n js t := by
  intro k y hy habout hopen
  rcases session_back h hy with hback | ⟨he, -, -⟩ | ⟨o, a, x, -, htook⟩
  · exact hjs k y hback habout hopen
  · exact absurd he (hl k)
  · have hnote := htook.note
    refine hjs k x htook.before ?_ fun hclosed => hopen ?_
    · rw [About, hnote] at habout
      exact habout
    · rw [hnote]
      exact (congrArg (Phase.next · o a) hclosed).trans closed_next

theorem tickets_step (hs : Sound s) (h : Step entryCalls s l t) (hjs : Covers n js s) :
    ∃ js', Covers n js' t ∧ tickets n t.shared + js'.card ≤
      tickets n s.shared + js.card + if takesMessage n (l, t) then 1 else 0 := by
  rcases stream_step hs h with hsame | ⟨j, x, m, gateId, c, rfl, hx, horigin, hgrown, hc, hafter⟩
  · have htickets : tickets n t.shared = tickets n s.shared := by rw [tickets, tickets, hsame]
    by_cases hstart : ∃ j, l = .start j
    · obtain ⟨j, rfl⟩ := hstart
      obtain ⟨js', hcovers, hcard⟩ := covers_start h hjs
      exact ⟨js', hcovers, by omega⟩
    · exact ⟨js, covers_other h (fun j hj => hstart ⟨j, hj⟩) hjs, by omega⟩
  · have hcovers := covers_other h (fun _ heq => by cases heq) hjs
    have hadded : tickets n t.shared = tickets n s.shared +
        if m = n ∧ isPrint c = true then 1 else 0 := by
      rw [tickets, tickets, hgrown, List.filter_append, List.length_append]
      by_cases hprint : m = n ∧ isPrint c = true
      · simp [hprint]
      · rw [if_neg hprint, List.filter_cons_of_neg (by simpa using hprint)]
        rfl
    by_cases hprint : m = n ∧ isPrint c = true
    · obtain ⟨rfl, hprint⟩ := hprint
      have hphase : ∃ w, x.note.phase = .committed w := by
        rcases hc with ⟨hplain, -⟩ | ⟨w, hw, -⟩
        · cases c <;> simp_all [opens, isPrint]
        · exact ⟨w, hw⟩
      obtain ⟨w, hw⟩ := hphase
      have habout : About m x = true := by simp [About, horigin]
      have hopen : x.note.phase ≠ .closed := by
        rw [hw]
        intro hclosed
        cases hclosed
      have hmem : j ∈ js := hjs j x hx habout hopen
      refine ⟨js.erase j, fun k y hy hk hopen => ?_, ?_⟩
      · refine Finset.mem_erase.mpr ⟨?_, hcovers k y hy hk hopen⟩
        rintro rfl
        rw [hafter y hy, hw] at hopen
        exact hopen rfl
      · have := Finset.card_erase_add_one hmem
        simp only [hprint, and_self, if_true] at hadded
        omega
    · rw [if_neg hprint] at hadded
      exact ⟨js, hcovers, by omega⟩

/-- Every consumer that takes up a message prints one ticket for it at most. -/
theorem tickets_le_handlings (hs : Sound s) (h : Path (Step entryCalls) s xs)
    (hjs : Covers n js s) :
    tickets n (finish s xs).shared ≤ tickets n s.shared + js.card + handlings n xs := by
  induction xs generalizing s js with
  | nil => exact (Nat.le_add_right _ _).trans (Nat.le_add_right _ _)
  | cons x xs ih =>
    obtain ⟨l, t⟩ := x
    obtain ⟨js', hcovers, hle⟩ := tickets_step hs h.1 hjs
    have hrest := ih (sound_step h.1 hs) h.2 hcovers
    rw [finish_cons, handlings, List.countP_cons]
    rw [handlings] at hrest
    omega

end Counting

section Runs
variable {ι : Type} [DecidableEq ι] {s : EntrySys ι} {xs : List (Label ι EntryOp × EntrySys ι)}

/-- In every run: a ticket is printed for a stay that was committed before, for the same gate and
ACTIVE at first, and finds it at the exit; no handling of an event prints two of them. -/
theorem ticket_finds_its_vehicle (hrest : AtRest s) (h : Path (Step entryCalls) s xs) :
    (∀ pre l t post e barcode gateName, xs = pre ++ (l, t) :: post →
      t.shared.stream = (finish s pre).shared.stream ++ [e] →
      e.command = .printTicketThenOpen barcode gateName →
      ∃ r ∈ (finish s pre).shared.table.rows, r.origin = some (e.message, e.gateId) ∧
        r.tx.barcode = some barcode ∧ CommittedActive s pre r ∧ FoundAfter t post barcode r) ∧
    ∀ n, tickets n (finish s xs).shared ≤ handlings n xs := by
  refine ⟨?_, fun n => ?_⟩
  · rintro pre l t post e barcode gateName rfl hadd hprint
    obtain ⟨hpre, hl, hpost⟩ := path_append.mp h
    obtain ⟨hs, hb⟩ := sound_path hrest hpre
    obtain ⟨r, hr, horigin, hbarcode, hfound⟩ := ticket_step hs hb hl hpost hadd hprint
    have hdue : r.origin ≠ none := fun hnone => nomatch horigin.symm.trans hnone
    exact ⟨r, hr, horigin, hbarcode, committedActive_path hrest hpre hr hdue, hfound⟩
  · have hcovers : Covers n ∅ s := fun j x hx => by simp [hrest.quiet.1 j] at hx
    have hnone : tickets n s.shared = 0 := by simp [tickets, hrest.stream]
    have hle := tickets_le_handlings (sound_start hrest.quiet hrest.kept) h hcovers
    rw [hnone] at hle
    simpa using hle

end Runs

section Presses

/-- The button is pressed once, and one consumer takes it up. -/
def press : List (Label Bool EntryOp × EntrySys Bool) :=
  entryRun true lane [((false, .ticketButtonPressed, 1), List.replicate 6 false)]

theorem press_path : Path (Step entryCalls) lane press := entryRun_path _ _ _

/-- The sixth step prints the ticket. -/
theorem ticket_finds_its_vehicle_press :
    ∃ l t post, press = press.take 5 ++ (l, t) :: post ∧
      t.shared.stream = [⟨"IN1", 1, .printTicketThenOpen (drawn 'A') "Masuk"⟩] ∧
      (∃ r ∈ (finish lane (press.take 5)).shared.table.rows, r.origin = some (1, "IN1") ∧
        r.tx.barcode = some (drawn 'A') ∧ CommittedActive lane (press.take 5) r ∧
        FoundAfter t post (drawn 'A') r) ∧
      tickets 1 (finish lane press).shared ≤ 1 := by
  have hhandled : handlings 1 press = 1 := by decide
  have hempty : (finish lane (press.take 5)).shared.stream = [] := by decide
  have hprinted : (press.drop 5).head?.map (fun x => x.2.shared.stream) =
      some [⟨"IN1", 1, .printTicketThenOpen (drawn 'A') "Masuk"⟩] := by decide
  obtain ⟨hfinds, hcount⟩ := ticket_finds_its_vehicle lane_atRest press_path
  obtain ⟨⟨l, t⟩, hhead, hstream⟩ := Option.map_eq_some_iff.mp hprinted
  obtain ⟨post, hpost⟩ := List.head?_eq_some_iff.mp hhead
  have hpress : press = press.take 5 ++ (l, t) :: post := by rw [← hpost, List.take_append_drop]
  have hadd : t.shared.stream = (finish lane (press.take 5)).shared.stream ++
      [⟨"IN1", 1, .printTicketThenOpen (drawn 'A') "Masuk"⟩] := by
    rw [hempty]
    exact hstream
  exact ⟨l, t, post, hpress, hstream, hfinds _ l t post _ _ _ hpress hadd rfl,
    hhandled ▸ hcount 1⟩

/-- Two consumers take up the same press. -/
def pressTwice : List (Label Bool EntryOp × EntrySys Bool) :=
  entryRun true lane [((false, .ticketButtonPressed, 1), List.replicate 6 false),
    ((true, .ticketButtonPressed, 1), List.replicate 6 true)]

/-- Both print a ticket for it. -/
theorem two_consumers_two_tickets :
    AtRest lane ∧ Path (Step entryCalls) lane pressTwice ∧
      (finish lane pressTwice).shared.stream =
        [⟨"IN1", 1, .printTicketThenOpen (drawn 'A') "Masuk"⟩,
          ⟨"IN1", 1, .printTicketThenOpen (drawn 'B') "Masuk"⟩] :=
  ⟨lane_atRest, entryRun_path _ _ _, by decide⟩

end Presses

end ParkIt.Entries
