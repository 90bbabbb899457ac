import ParkIt.Entries.Events

/-! What every run of the consumers and the payments keeps. -/
namespace ParkIt.Entries

open Effects Sessions GateIn Transition UniqueIndex

/-- On record: a message taken up, a member and a date that were looked at, and a stay committed. -/
inductive Entry where
  | taken (n : Nat)
  | found (n : Nat) (cardNumber : String) (m : MemberRow)
  | dated (n : Nat) (day : Int)
  | committed (origin : Origin) (w : Way)
deriving DecidableEq, Repr

def Note.record (g : Note) : (o : EntryOp) → Option o.Ans → List Entry
  | .lane .gateByCode, _ => (g.origin.map fun m => .taken m.1).toList
  | .lane (.memberByCard cardNumber), some (some (some m)) =>
    (g.origin.map fun o => .found o.1 cardNumber m).toList
  | .lane .today, some day => (g.origin.map fun o => .dated o.1 day).toList
  | .lane .commit, some true =>
    match g.origin, g.phase with
    | some o, .stored w => [.committed o w]
    | _, _ => []
  | _, _ => []

def entryCalls : Machine EntryOp EntryOp.Ans EntryExc Unit Stores Own Note Entry where
  starts p own g := (∃ e n gateId, p = consume e n ∧ own = { origin := some (n, gateId) } ∧
      g = handling n gateId (some e) .begun) ∨
    ∃ k, Payment k ∧ p = pay k ∧ own = {} ∧ g = payment
  act := Acts
  fails := Fails
  during _ _ _ _ := False
  outside := Around
  protocol := entryRules
  record := Note.record

abbrev EntrySys (ι : Type) := Sys ι EntryOp EntryOp.Ans EntryExc Unit Stores Own Note Entry

theorem acts_fair {o : EntryOp} {d d' : Stores} {own own' : Own} {a : o.Ans}
    (h : Acts o d own a d' own') : Fair o a := by
  cases h with
  | uuid hlength => exact hlength
  | createEntry _ => exact rfl
  | _ => exact trivial

/-- The same stay, at an earlier and at a later time. -/
structure SameStay (q r : Row) : Prop where
  id : q.tx.id = r.tx.id
  origin : q.origin = r.origin
  barcode : q.tx.barcode = r.tx.barcode

theorem SameStay.refl (r : Row) : SameStay r r := ⟨rfl, rfl, rfl⟩

theorem SameStay.trans {q r p : Row} (h : SameStay q r) (h' : SameStay r p) : SameStay q p :=
  ⟨h.id.trans h'.id, h.origin.trans h'.origin, h.barcode.trans h'.barcode⟩

theorem sameStay_update (r : Row) (u : TxUpdate) : SameStay r (r.update u) :=
  ⟨(u.apply_id r.tx).symm, rfl, (u.apply_entry r.tx).1.symm⟩

/-- The row has just been made of the entry. -/
def Fresh (w : Way) (r : Row) : Prop :=
  ∃ entryTime id, r.tx = (entryRow w.entry entryTime).stored id

theorem Fresh.active {w : Way} {r : Row} (h : Fresh w r) : r.tx.status = .active := by
  obtain ⟨entryTime, id, hr⟩ := h
  rw [hr]
  rfl

theorem Fresh.barcode {w : Way} {r : Row} (h : Fresh w r) : r.tx.barcode = w.entry.barcode := by
  obtain ⟨entryTime, id, hr⟩ := h
  rw [hr]
  rfl

/-- What a handler's phase says of its transaction and of the table. -/
structure Fits (d : Stores) (own : Own) (g : Note) : Prop where
  origin : own.origin = g.origin
  clean : g.phase.Clean → own.xid = none
  stored : ∀ w, g.phase = .stored w → ∃ x, own.xid = some x ∧ ∀ r ∈ d.table.own x,
    r.origin = g.origin ∧ Fresh w r ∧ ∀ q ∈ d.table.rows, q.tx.id ≠ r.tx.id
  committed : ∀ w, g.phase = .committed w → ∃ r ∈ d.table.rows, r.origin = g.origin ∧
    r.tx.barcode = w.entry.barcode
  updates : g.phase = .exiting ∨ g.phase = .paying → ∀ x ∈ own.xid, ∀ r ∈ d.table.own x,
    ∃ q ∈ d.table.rows, SameStay q r

/-- What the database keeps by itself. -/
structure Kept (d : Stores) : Prop where
  table : d.table.Sound uniqueIndexes
  rows : ∀ r ∈ d.table.rows, r.tx.id < d.nextTx
  inflight : ∀ v ∈ d.table.inflight, v.2.tx.id < d.nextTx ∧ v.1 < d.nextXid

/-- What an operation does to the table and to the transaction of its session. -/
inductive Change (o : EntryOp) (d : Stores) (own : Own) (d' : Stores) (own' : Own) : Prop where
  | same : d'.table = d.table → own' = own → d.nextTx ≤ d'.nextTx → d'.nextXid = d.nextXid →
      Change o d own d' own'
  | wrote (r : Row) : d.Accepts own r → d'.table = d.table.put uniqueIndexes (own.writer d) r →
      own' = own.writing d → d.nextTx ≤ d'.nextTx → r.tx.id < d'.nextTx →
      d'.nextXid = max d.nextXid (own.writer d + 1) → Change o d own d' own'
  | committed (x : Nat) : o = .lane .commit → own.xid = some x → d.table.own x ≠ [] →
      d'.table = d.table.commit uniqueIndexes x → own' = { own with xid := none } →
      d'.nextTx = d.nextTx → d'.nextXid = d.nextXid → Change o d own d' own'

section Databases
variable {o : EntryOp} {d d' : Stores} {own own' : Own} {a : o.Ans} {g : Note} {r q : Row} {x : Nat}

theorem mem_visible (h : r ∈ d.visible own) :
    r ∈ d.table.rows ∨ ∃ x, own.xid = some x ∧ r ∈ d.table.own x := by
  unfold Stores.visible at h
  split at h
  · exact Or.inl h
  · rename_i x hx
    rcases mem_view.mp h with ⟨hr, -⟩ | hr
    · exact Or.inl hr
    · exact Or.inr ⟨x, hx, mem_own.mpr hr⟩

theorem Kept.visible (hd : Kept d) (h : r ∈ d.visible own) : r.tx.id < d.nextTx := by
  rcases mem_visible h with hr | ⟨x, -, hr⟩
  · exact hd.rows r hr
  · exact (hd.inflight _ (mem_own.mp hr)).1

theorem acts_change (hd : Kept d) (h : Acts o d own a d' own') : Change o d own d' own' := by
  cases h with
  | createEntry haccepts | insertTx haccepts =>
    have hid : d.nextTx < d.nextTx + 1 := Int.lt_succ _
    exact .wrote _ haccepts rfl rfl hid.le hid rfl
  | createRaises hn => exact .same rfl rfl hn rfl
  | exitRfid hr _ haccepts | update hr _ haccepts =>
    refine .wrote _ haccepts rfl rfl le_rfl ?_ rfl
    exact (sameStay_update _ _).id ▸ hd.visible hr
  | commit hx hne | commitLost hx hne => exact .committed _ rfl hx hne rfl rfl rfl rfl
  | _ => exact .same rfl rfl le_rfl rfl

theorem Kept.change (hd : Kept d) (h : Change o d own d' own') : Kept d' := by
  cases h with
  | same htable _ htx hxid =>
    refine ⟨htable ▸ hd.table, fun r hr => ?_, fun v hv => ?_⟩
    · exact (hd.rows r (htable ▸ hr)).trans_le htx
    · have hv := hd.inflight v (htable ▸ hv)
      exact ⟨hv.1.trans_le htx, hxid ▸ hv.2⟩
  | wrote r haccepts htable _ htx hr hxid =>
    refine ⟨htable ▸ hd.table.put haccepts.admits, fun q hq => ?_, fun v hv => ?_⟩
    · rw [htable] at hq
      exact (hd.rows q hq).trans_le htx
    · rw [htable] at hv
      rw [hxid]
      rcases mem_put.mp hv with ⟨hv, -⟩ | rfl
      · exact ⟨(hd.inflight v hv).1.trans_le htx, lt_max_of_lt_left (hd.inflight v hv).2⟩
      · exact ⟨hr, lt_max_of_lt_right (Nat.lt_succ_self _)⟩
  | committed x _ _ _ htable _ htx hxid =>
    refine ⟨htable ▸ hd.table.commit, fun q hq => ?_, fun v hv => ?_⟩
    · rw [htable] at hq
      rw [htx]
      rcases mem_view.mp hq with ⟨hq, -⟩ | hq
      · exact hd.rows q hq
      · exact (hd.inflight _ hq).1
    · rw [htable] at hv
      rw [htx, hxid]
      exact hd.inflight v (mem_commit.mp hv).1

/-- Every row is still there, as the same stay. -/
def Persist (d d' : Stores) : Prop := ∀ q ∈ d.table.rows, ∃ p ∈ d'.table.rows, SameStay q p

/-- What a handler relies on is not touched by the transactions of the others. -/
theorem Fits.frame (h : Fits d own g)
    (hown : ∀ x ∈ own.xid, ∀ r ∈ d'.table.own x, r ∈ d.table.own x) (hrows : Persist d d')
    (hnew : ∀ x ∈ own.xid, ∀ r ∈ d.table.own x, ∀ q ∈ d'.table.rows, q.tx.id = r.tx.id →
      ∃ p ∈ d.table.rows, p.tx.id = r.tx.id) : Fits d' own g where
  origin := h.origin
  clean := h.clean
  stored w hw := by
    obtain ⟨x, hx, hstored⟩ := h.stored w hw
    refine ⟨x, hx, fun r hr => ?_⟩
    have hr := hown x hx r hr
    obtain ⟨horigin, hfresh, hid⟩ := hstored r hr
    refine ⟨horigin, hfresh, fun q hq he => ?_⟩
    obtain ⟨p, hp, hpid⟩ := hnew x hx r hr q hq he
    exact hid p hp hpid
  committed w hw := by
    obtain ⟨r, hr, horigin, hbarcode⟩ := h.committed w hw
    obtain ⟨p, hp, hsame⟩ := hrows r hr
    exact ⟨p, hp, hsame.origin.symm.trans horigin, hsame.barcode.symm.trans hbarcode⟩
  updates hphase x hx r hr := by
    obtain ⟨q, hq, hsame⟩ := h.updates hphase x hx r (hown x hx r hr)
    obtain ⟨p, hp, hsame'⟩ := hrows q hq
    refine ⟨p, hp, ?_, ?_, ?_⟩
    · exact hsame'.id.symm.trans hsame.id
    · exact hsame'.origin.symm.trans hsame.origin
    · exact hsame'.barcode.symm.trans hsame.barcode

/-- Where a handler gets to without a write of its own. -/
def Moves (p p' : Phase) : Prop := p' = p ∨ p.Clean ∧ (p'.Clean ∨ p' = .exiting) ∨ p' = .closed

theorem moves_next (p : Phase) (hstore : ∀ w e, p = .ready w → o ≠ .lane (.createEntry e))
    (hcommit : ∀ w, p = .stored w → o ≠ .lane .commit) : Moves p (p.next o a) := by
  unfold Phase.next
  split
  · rename_i a
    cases p with
    | begun =>
      rcases a with _ | _ | g
      · exact Or.inr (Or.inr rfl)
      · exact Or.inr (Or.inr rfl)
      · exact Or.inr (Or.inl ⟨trivial, Or.inl trivial⟩)
    | _ => exact Or.inl rfl
  · cases p with
    | found g => exact Or.inr (Or.inl ⟨trivial, Or.inl trivial⟩)
    | _ => exact Or.inl rfl
  · rename_i a
    cases p with
    | found g =>
      rcases a with _ | _ | m
      · exact Or.inr (Or.inr rfl)
      · exact Or.inr (Or.inr rfl)
      · exact Or.inr (Or.inl ⟨trivial, Or.inl trivial⟩)
    | _ => exact Or.inl rfl
  · cases p with
    | member _ _ _ _ => exact Or.inr (Or.inl ⟨trivial, Or.inl trivial⟩)
    | _ => exact Or.inl rfl
  · cases p with
    | member _ _ _ _ =>
      unfold Phase.unclosed
      dsimp only
      split
      · exact Or.inr (Or.inl ⟨trivial, Or.inl trivial⟩)
      · exact Or.inr (Or.inr rfl)
    | _ => exact Or.inl rfl
  · cases p with
    | ready w => exact absurd rfl (hstore w _ rfl)
    | _ => exact Or.inl rfl
  · cases p with
    | stored w => exact absurd rfl (hcommit w rfl)
    | _ => exact Or.inl rfl
  · cases p with
    | found g => exact Or.inr (Or.inl ⟨trivial, Or.inr rfl⟩)
    | _ => exact Or.inl rfl
  · cases p with
    | committed w => exact Or.inr (Or.inr rfl)
    | _ => exact Or.inl rfl
  · exact Or.inl rfl

theorem fits_closed (h : own.origin = g.origin) : Fits d own { g with phase := .closed } where
  origin := h
  clean hp := hp.elim
  stored _ h := nomatch h
  committed _ h := nomatch h
  updates h := h.elim nofun nofun

theorem fits_clean {p : Phase} (h : own.origin = g.origin) (hp : p.Clean)
    (hxid : own.xid = none) : Fits d own { g with phase := p } where
  origin := h
  clean _ := hxid
  stored w hw := by
    cases hw
    exact hp.elim
  committed w hw := by
    cases hw
    exact hp.elim
  updates _ x hx := nomatch hxid.symm.trans hx

theorem fits_updating {p : Phase} (h : own.origin = g.origin) (hp : p = .exiting ∨ p = .paying)
    (hupdates : ∀ x ∈ own.xid, ∀ r ∈ d.table.own x, ∃ q ∈ d.table.rows, SameStay q r) :
    Fits d own { g with phase := p } where
  origin := h
  clean hclean := by rcases hp with rfl | rfl <;> exact hclean.elim
  stored w hw := by rcases hp with rfl | rfl <;> cases hw
  committed w hw := by rcases hp with rfl | rfl <;> cases hw
  updates _ := hupdates

theorem fits_stored {w : Way} (h : own.origin = g.origin) (hx : own.xid = some x)
    (hstored : ∀ r ∈ d.table.own x, r.origin = g.origin ∧ Fresh w r ∧
      ∀ q ∈ d.table.rows, q.tx.id ≠ r.tx.id) : Fits d own { g with phase := .stored w } where
  origin := h
  clean hp := hp.elim
  stored w' hw' := by
    cases hw'
    exact ⟨x, hx, hstored⟩
  committed _ h := nomatch h
  updates h := h.elim nofun nofun

theorem fits_committed {w : Way} (h : own.origin = g.origin) (hr : r ∈ d.table.rows)
    (horigin : r.origin = g.origin) (hbarcode : r.tx.barcode = w.entry.barcode) :
    Fits d own { g with phase := .committed w } where
  origin := h
  clean hp := hp.elim
  stored _ h := nomatch h
  committed w' hw' := by
    cases hw'
    exact ⟨r, hr, horigin, hbarcode⟩
  updates h := h.elim nofun nofun

theorem Fits.advance {p : Phase} (h : Fits d own g) (htable : d'.table = d.table)
    (hp : Moves g.phase p) : Fits d' own { g with phase := p } := by
  rcases hp with rfl | ⟨hclean, hp⟩ | rfl
  · refine h.frame (fun _ _ _ hr => htable ▸ hr) (fun q hq => ⟨q, htable ▸ hq, .refl q⟩) ?_
    exact fun x _ r hr q hq he => ⟨q, htable ▸ hq, he⟩
  · have hxid := h.clean hclean
    rcases hp with hp | rfl
    · exact fits_clean h.origin hp hxid
    · exact fits_updating h.origin (Or.inl rfl) fun x hx => nomatch hxid.symm.trans hx
  · exact fits_closed h.origin

/-- The new versions of a transaction are the old ones and what it has just written. -/
theorem own_put (h : q ∈ (d.table.put uniqueIndexes x r).own x) : q ∈ d.table.own x ∨ q = r := by
  rcases mem_put.mp (mem_own.mp h) with ⟨hq, -⟩ | he
  · exact Or.inl (mem_own.mpr hq)
  · exact Or.inr (congrArg Prod.snd he)

theorem Kept.own_next (hd : Kept d) : d.table.own d.nextXid = [] := by
  rw [List.eq_nil_iff_forall_not_mem]
  exact fun r hr => (hd.inflight _ (mem_own.mp hr)).2.false

/-- The first write of a transaction. -/
theorem own_first (hd : Kept d) (hxid : own.xid = none)
    (h : q ∈ (d.table.put uniqueIndexes (own.writer d) r).own (own.writer d)) : q = r := by
  have hwriter : own.writer d = d.nextXid := by rw [Own.writer, hxid]; rfl
  rw [hwriter] at h
  rcases own_put h with hq | hq
  · rw [hd.own_next] at hq
    exact nomatch hq
  · exact hq

/-- The end of a transaction, which may have been lost. -/
theorem fits_commit {ok : Bool} (hfits : Fits d own g) (hallow : g.Allows (.lane .commit))
    (hown : own'.origin = own.origin)
    (hupdates : g.phase = .exiting ∨ g.phase = .paying → ∀ x ∈ own'.xid, ∀ r ∈ d'.table.own x,
      ∃ q ∈ d'.table.rows, SameStay q r)
    (hstored : ∀ w, g.phase = .stored w → ok = true → ∃ r ∈ d'.table.rows, r.origin = g.origin ∧
      r.tx.barcode = w.entry.barcode) :
    Fits d' own' { g with phase := g.phase.next (.lane .commit) ok } := by
  have horigin := hown.trans hfits.origin
  rcases hallow with hp | hp | ⟨w, hp⟩
  · have hnext : g.phase.next (.lane .commit) ok = .paying := by rw [hp]; rfl
    rw [hnext]
    exact fits_updating horigin (Or.inr rfl) (hupdates (Or.inr hp))
  · have hnext : g.phase.next (.lane .commit) ok = .exiting := by rw [hp]; rfl
    rw [hnext]
    exact fits_updating horigin (Or.inl rfl) (hupdates (Or.inl hp))
  · cases ok with
    | false =>
      have hnext : g.phase.next (.lane .commit) false = .closed := by rw [hp]; rfl
      rw [hnext]
      exact fits_closed horigin
    | true =>
      have hnext : g.phase.next (.lane .commit) true = .committed w := by rw [hp]; rfl
      rw [hnext]
      obtain ⟨r, hr, hro, hrb⟩ := hstored w hp rfl
      exact fits_committed horigin hr hro hrb

/-- A session goes on as it should. -/
theorem fits_next (hd : Kept d) (hfits : Fits d own g) (hallow : g.Allows o)
    (h : Acts o d own a d' own') : Fits d' own' { g with phase := g.phase.next o a } := by
  have hmove : d'.table = d.table → own' = own →
      (∀ w e, g.phase = .ready w → o ≠ .lane (.createEntry e)) →
      (∀ w, g.phase = .stored w → o ≠ .lane .commit) →
      Fits d' own' { g with phase := g.phase.next o a } := by
    rintro htable rfl hstore hcommit
    exact hfits.advance htable (moves_next _ hstore hcommit)
  cases h with
  | gateByCode | memberByCard | unclosed | today | uuid _ | sleep | exitRefused _ | publish |
    publishLost | publishRaises | selectRaises | memberRaises | unclosedRaises | lock _ |
    selectTx | other _ _ => exact hmove rfl rfl (fun _ _ _ => nofun) fun _ _ => nofun
  | @createEntry _ _ e entryTime haccepts =>
    obtain ⟨w, hphase, -, rfl⟩ := hallow
    have hxid := hfits.clean (by rw [hphase]; trivial)
    have hnext : g.phase.next (.lane (.createEntry w.entry)) (some w.entry.barcode) =
        .stored w := by
      rw [hphase]
      rfl
    rw [hnext]
    refine fits_stored hfits.origin rfl fun r hr => ?_
    obtain rfl := own_first hd hxid hr
    exact ⟨hfits.origin, ⟨entryTime, d.nextTx, rfl⟩, fun q hq => (hd.rows q hq).ne⟩
  | @createRaises _ _ e n hn =>
    obtain ⟨w, hphase, -, -⟩ := hallow
    have hnext : g.phase.next (.lane (.createEntry e)) none = .closed := by
      rw [hphase]
      rfl
    rw [hnext]
    exact fits_closed hfits.origin
  | @exitRfid _ _ gateOutId cardNumber r u hr _ haccepts =>
    obtain ⟨gate, hphase⟩ := hallow
    have hxid := hfits.clean (by rw [hphase]; trivial)
    have hnext : g.phase.next (.lane (.processRfidPayment gateOutId cardNumber)) .success =
        .exiting := by
      rw [hphase]
      rfl
    rw [hnext]
    refine fits_updating hfits.origin (Or.inl rfl) ?_
    rintro _ ⟨⟩ q hq
    obtain rfl := own_first hd hxid hq
    rcases mem_visible hr with hr | ⟨x, hx, -⟩
    · exact ⟨r, hr, sameStay_update r u⟩
    · exact nomatch hxid.symm.trans hx
  | @update _ _ i u r hr _ haccepts =>
    have hupdates := hfits.updates (Or.inr hallow.1)
    refine fits_updating hfits.origin (Or.inr hallow.1) ?_
    rintro _ ⟨⟩ q hq
    rcases own_put hq with hq | rfl
    · cases hxid : own.xid with
      | none =>
        rw [Own.writer, hxid, Option.getD_none, hd.own_next] at hq
        exact nomatch hq
      | some x =>
        rw [Own.writer, hxid, Option.getD_some] at hq
        exact hupdates x hxid q hq
    · rcases mem_visible hr with hr | ⟨x, hx, hr⟩
      · exact ⟨r, hr, sameStay_update r u⟩
      · obtain ⟨p, hp, hsame⟩ := hupdates x hx r hr
        exact ⟨p, hp, hsame.trans (sameStay_update r u)⟩
  | insertTx _ => exact hallow.2.elim
  | commitNothing hxid =>
    refine hmove rfl rfl (fun _ _ _ => nofun) fun w hw => ?_
    obtain ⟨x, hx, -⟩ := hfits.stored w hw
    exact nomatch hxid.symm.trans hx
  | commitRaises =>
    refine fits_commit hfits hallow rfl hfits.updates fun w _ hok => ?_
    cases hok
  | commitLost hx hne =>
    refine fits_commit hfits hallow rfl (fun _ y hy => ?_) fun w _ hok => ?_
    · cases hy
    · cases hok
  | @commit _ _ x hx hne =>
    refine fits_commit hfits hallow rfl (fun _ y hy => (nomatch hy)) fun w hw _ => ?_
    obtain ⟨y, hy, hstored⟩ := hfits.stored w hw
    cases hx.symm.trans hy
    obtain ⟨r, hr⟩ := List.exists_mem_of_ne_nil _ hne
    obtain ⟨horigin, hfresh, -⟩ := hstored r hr
    exact ⟨r, mem_view.mpr (Or.inr (mem_own.mp hr)), horigin, hfresh.barcode⟩

/-- The rows that a handler commits are new stays, or new versions of stays. -/
theorem commit_own (hfits : Fits d own g) (hallow : g.Allows (.lane .commit))
    (hx : own.xid = some x) (hr : r ∈ d.table.own x) :
    (∃ q ∈ d.table.rows, SameStay q r) ∨ ∃ w, g.phase = .stored w ∧ r.origin = g.origin ∧
      Fresh w r ∧ ∀ q ∈ d.table.rows, q.tx.id ≠ r.tx.id := by
  rcases hallow with hp | hp | ⟨w, hp⟩
  · exact Or.inl (hfits.updates (Or.inr hp) x hx r hr)
  · exact Or.inl (hfits.updates (Or.inl hp) x hx r hr)
  · obtain ⟨y, hy, hstored⟩ := hfits.stored w hp
    cases hx.symm.trans hy
    obtain ⟨horigin, hfresh, hid⟩ := hstored r hr
    exact Or.inr ⟨w, hp, horigin, hfresh, hid⟩

/-- Every stay survives a commit. -/
theorem commit_persist (hd : Kept d) (hfits : Fits d own g) (hallow : g.Allows (.lane .commit))
    (hx : own.xid = some x) (hq : q ∈ d.table.rows) :
    ∃ p ∈ d.table.view uniqueIndexes x, SameStay q p := by
  by_cases hsuper : d.table.Supersedes uniqueIndexes x q
  · obtain ⟨r, hr, hkey⟩ := hsuper
    refine ⟨r, mem_view.mpr (Or.inr (mem_own.mp hr)), ?_⟩
    rcases commit_own hfits hallow hx hr with ⟨q', hq', hsame⟩ | ⟨w, -, -, -, hid⟩
    · obtain rfl : q' = q := hd.table.eq_of_key hq' hq (hsame.id.trans hkey)
      exact hsame
    · exact absurd hkey.symm (hid q hq)
  · exact ⟨q, mem_view.mpr (Or.inl ⟨hq, hsuper⟩), .refl q⟩

theorem persist_change (hd : Kept d) (hfits : Fits d own g) (hallow : g.Allows o)
    (h : Change o d own d' own') : Persist d d' := by
  intro q hq
  cases h with
  | same htable _ _ _ => exact ⟨q, htable ▸ hq, .refl q⟩
  | wrote r _ htable _ _ _ _ => exact ⟨q, by rw [htable]; exact hq, .refl q⟩
  | committed x ho hx _ htable _ _ _ =>
    subst ho
    rw [htable]
    exact commit_persist hd hfits hallow hx hq

/-- The transactions of two sessions are different ones. -/
def Apart (d : Stores) (own own₂ : Own) : Prop := ∀ x ∈ own₂.xid, x < d.nextXid ∧ x ∉ own.xid

theorem Apart.writer {own₂ : Own} (h : Apart d own own₂) (hx : x ∈ own₂.xid) :
    x ≠ own.writer d := by
  obtain ⟨hlt, hne⟩ := h x hx
  rintro rfl
  cases hxid : own.xid with
  | none =>
    rw [Own.writer, hxid] at hlt
    exact hlt.false
  | some y =>
    rw [Own.writer, hxid] at hne
    exact hne rfl

theorem Fits.other {own₂ : Own} {g₂ : Note} (hd : Kept d) (hfits : Fits d own g)
    (hallow : g.Allows o) (h : Change o d own d' own') (hapart : Apart d own own₂)
    (hfits₂ : Fits d own₂ g₂) : Fits d' own₂ g₂ := by
  refine hfits₂.frame ?_ (persist_change hd hfits hallow h) ?_
  · intro x hx r hr
    cases h with
    | same htable _ _ _ => exact htable ▸ hr
    | wrote q _ htable _ _ _ _ =>
      rw [htable] at hr
      rcases mem_put.mp (mem_own.mp hr) with ⟨hr, -⟩ | he
      · exact mem_own.mpr hr
      · exact absurd (congrArg Prod.fst he) (hapart.writer hx)
    | committed y _ _ _ htable _ _ _ =>
      rw [htable] at hr
      exact mem_own.mpr (mem_commit.mp (mem_own.mp hr)).1
  · intro x hx r hr q hq he
    cases h with
    | same htable _ _ _ => exact ⟨q, htable ▸ hq, he⟩
    | wrote p _ htable _ _ _ _ =>
      rw [htable] at hq
      exact ⟨q, hq, he⟩
    | committed y _ hy _ htable _ _ _ =>
      rw [htable] at hq
      rcases mem_view.mp hq with ⟨hq, -⟩ | hq
      · exact ⟨q, hq, he⟩
      · -- a row has one version in flight, and that one is the other session's
        cases hd.table.version_of_key hq (mem_own.mp hr) he
        exact absurd hy (hapart x hx).2

end Databases

section Runs
variable {ι : Type} [DecidableEq ι] {s t : EntrySys ι} {l : Label ι EntryOp} {j k : ι}
  {x y : Session EntryOp EntryOp.Ans EntryExc Unit Own Note}

/-- What every run keeps. -/
structure Sound (s : EntrySys ι) : Prop where
  kept : Kept s.shared
  inProtocol : InProtocol entryCalls s
  fits : ∀ j x, s.session j = some x → Fits s.shared x.own x.note
  apart : ∀ j k x y, j ≠ k → s.session j = some x → s.session k = some y →
    ∀ i ∈ y.own.xid, i ∉ x.own.xid
  known : ∀ j x, s.session j = some x → ∀ i ∈ x.own.xid, i < s.shared.nextXid

/-- An operation of a session, with its answer or without. -/
structure Did (s t : EntrySys ι) (j : ι) (o : EntryOp) (a : o.Ans) (own' : Own)
    (x : Session EntryOp EntryOp.Ans EntryExc Unit Own Note) : Prop where
  before : s.session j = some x
  allow : x.note.Allows o
  act : Acts o s.shared x.own a t.shared own'
  after : ∀ y, t.session j = some y →
    y.own = own' ∧ y.note = { x.note with phase := x.note.phase.next o a }
  others : ∀ k, k ≠ j → t.session k = s.session k

/-- A step is one from outside, or an operation that some session asks for. -/
theorem step_cases (hs : InProtocol entryCalls s) (h : Step entryCalls s l t) :
    (t.shared = s.shared ∨ Around s.shared t.shared ∧ t.session = s.session) ∨
    ∃ j o a own' x, l = .go j o ∧ Did s t j o a own' x := by
  have hallow : ∀ {j o k own note}, s.session j = some ⟨.call o k, own, note⟩ →
      note.Allows o := fun hj => (hs _ _ hj).1
  cases h with
  | start _ _ | stop _ => exact Or.inl (Or.inl rfl)
  | @go j o k own note a sh own' hj hact =>
    refine Or.inr ⟨j, o, a, own', _, rfl, hj, hallow hj, hact, fun y hy => ?_,
      fun k hk => Function.update_of_ne hk ..⟩
    rw [session_set_self] at hy
    cases hy
    exact ⟨rfl, rfl⟩
  | @fail j o k own note sh hj hfails =>
    cases hfails with
    | unreached => exact Or.inl (Or.inl rfl)
    | @lost a _ own' hact =>
      refine Or.inr ⟨j, o, a, own', _, rfl, hj, hallow hj, hact, fun y hy => ?_,
        fun k hk => Function.update_of_ne hk ..⟩
      exact absurd rfl (session_set_none hy).1
  | during _ hduring => exact hduring.elim
  | outside hsh => exact Or.inl (Or.inr ⟨hsh, rfl⟩)

omit [DecidableEq ι] in
theorem change_step (hs : Sound s) {o : EntryOp} {a : o.Ans} {own' : Own}
    (h : Did s t j o a own' x) : Change o s.shared x.own t.shared own' :=
  acts_change hs.kept h.act

theorem Change.xid {o : EntryOp} {d d' : Stores} {own own' : Own} (h : Change o d own d' own') :
    d.nextXid ≤ d'.nextXid ∧ ∀ i ∈ own'.xid, i ∈ own.xid ∨ i = d.nextXid ∧ i < d'.nextXid := by
  cases h with
  | same _ hown _ hxid => exact ⟨hxid.ge, fun i hi => Or.inl (hown ▸ hi)⟩
  | wrote r _ _ hown _ _ hxid =>
    refine ⟨hxid ▸ le_max_left _ _, ?_⟩
    subst hown
    rintro _ ⟨⟩
    cases hx : own.xid with
    | none =>
      have hwriter : own.writer d = d.nextXid := by rw [Own.writer, hx]; rfl
      refine Or.inr ⟨hwriter, ?_⟩
      rw [hxid, hwriter]
      exact lt_max_of_lt_right (Nat.lt_succ_self _)
    | some x => exact Or.inl (by rw [Own.writer, hx]; rfl)
  | committed x _ _ _ _ hown _ hxid =>
    subst hown
    exact ⟨hxid.ge, nofun⟩

/-- Where the transaction of a session comes from. -/
theorem xid_back (hs : Sound s) (h : Step entryCalls s l t) (hy : t.session k = some y) {i : Nat}
    (hi : i ∈ y.own.xid) : (∃ x, s.session k = some x ∧ i ∈ x.own.xid) ∨
      (∃ o, l = .go k o) ∧ i = s.shared.nextXid ∧ i < t.shared.nextXid := by
  rcases session_back h hy with hback | ⟨-, -, hstart⟩ | ⟨o, a, x, hl, htook⟩
  · exact Or.inl ⟨y, hback, hi⟩
  · rcases hstart with ⟨_, _, _, -, hown, -⟩ | ⟨_, -, -, hown, -⟩ <;>
      · rw [hown] at hi
        cases hi
  · rcases (acts_change hs.kept htook.act).xid.2 i hi with hi | ⟨rfl, hlt⟩
    · exact Or.inl ⟨x, htook.before, hi⟩
    · exact Or.inr ⟨⟨o, hl⟩, rfl, hlt⟩

theorem around_same {d d' : Stores} (h : Around d d') :
    d'.table.rows = d.table.rows ∧ d'.nextXid = d.nextXid := by
  cases h <;> exact ⟨rfl, rfl⟩

theorem nextXid_step (hs : Sound s) (h : Step entryCalls s l t) :
    s.shared.nextXid ≤ t.shared.nextXid := by
  rcases step_cases hs.inProtocol h with (hsh | ⟨haround, -⟩) | ⟨j, o, a, own', x, -, hdid⟩
  · rw [hsh]
  · exact (around_same haround).2.ge
  · exact (change_step hs hdid).xid.1

theorem Kept.around {d d' : Stores} (hd : Kept d) (h : Around d d') : Kept d' := by
  cases h with
  | abort x =>
    exact ⟨hd.table.abort, hd.rows, fun v hv => hd.inflight v (mem_abort.mp hv).1⟩
  | edited _ => exact ⟨hd.table, hd.rows, hd.inflight⟩

theorem Fits.around {d d' : Stores} {own : Own} {g : Note} (hfits : Fits d own g)
    (h : Around d d') : Fits d' own g := by
  cases h with
  | abort x =>
    refine hfits.frame (fun y _ r hr => ?_) (fun q hq => ⟨q, hq, .refl q⟩)
      fun y _ r _ q hq he => ⟨q, hq, he⟩
    exact mem_own.mpr (mem_abort.mp (mem_own.mp hr)).1
  | edited _ =>
    exact hfits.frame (fun _ _ _ hr => hr) (fun q hq => ⟨q, hq, .refl q⟩)
      fun y _ r _ q hq he => ⟨q, hq, he⟩

theorem kept_step (hs : Sound s) (h : Step entryCalls s l t) : Kept t.shared := by
  rcases step_cases hs.inProtocol h with (hsh | ⟨haround, -⟩) | ⟨j, o, a, own', x, -, hdid⟩
  · exact hsh ▸ hs.kept
  · exact hs.kept.around haround
  · exact hs.kept.change (change_step hs hdid)

theorem persist_step (hs : Sound s) (h : Step entryCalls s l t) : Persist s.shared t.shared := by
  rcases step_cases hs.inProtocol h with (hsh | ⟨haround, -⟩) | ⟨j, o, a, own', x, -, hdid⟩
  · exact fun q hq => ⟨q, hsh ▸ hq, .refl q⟩
  · exact fun q hq => ⟨q, (around_same haround).1 ▸ hq, .refl q⟩
  · exact persist_change hs.kept (hs.fits j x hdid.before) hdid.allow (change_step hs hdid)

theorem fits_step (hs : Sound s) (h : Step entryCalls s l t) (hy : t.session k = some y) :
    Fits t.shared y.own y.note := by
  rcases session_back h hy with hback | ⟨-, -, hstart⟩ | ⟨o, a, x, -, htook⟩
  · rcases step_cases hs.inProtocol h with (hsh | ⟨haround, -⟩) | ⟨j, o, a, own', x, -, hdid⟩
    · exact hsh ▸ hs.fits k y hback
    · exact (hs.fits k y hback).around haround
    · have hfits := hs.fits j x hdid.before
      by_cases hk : k = j
      · subst hk
        obtain ⟨hown, hnote⟩ := hdid.after y hy
        rw [hown, hnote]
        exact fits_next hs.kept hfits hdid.allow hdid.act
      · have hapart : Apart s.shared x.own y.own := fun i hi =>
          ⟨hs.known k y hback i hi, hs.apart j k x y (Ne.symm hk) hdid.before hback i hi⟩
        exact hfits.other hs.kept hdid.allow (change_step hs hdid) hapart (hs.fits k y hback)
  · rcases hstart with ⟨e, n, gateId, -, hown, hnote⟩ | ⟨call, -, -, hown, hnote⟩
    · rw [hown, hnote]
      exact fits_clean (g := handling n gateId (some e) .begun) (p := .begun) rfl trivial rfl
    · rw [hown, hnote]
      refine fits_updating (g := payment) (p := .paying) rfl (Or.inr rfl) fun x hx => ?_
      cases hx
  · rw [htook.note]
    exact fits_next hs.kept (hs.fits k x htook.before) (htook.allow hs.inProtocol) htook.act

theorem sound_step (h : Step entryCalls s l t) (hs : Sound s) : Sound t where
  kept := kept_step hs h
  inProtocol := by
    refine inProtocol_step h ?_ (fun _ _ _ _ _ _ _ => acts_fair) hs.inProtocol
    rintro p own g (⟨e, n, gateId, rfl, -, rfl⟩ | ⟨call, hcall, rfl, -, rfl⟩)
    · exact follows_consume e n gateId
    · exact follows_pay hcall
  fits j x hx := fits_step hs h hx
  apart j k x y hjk hx hy i hiy hix := by
    rcases xid_back hs h hx hix with ⟨x', hx', hi'⟩ | ⟨⟨o, hl⟩, hi', -⟩ <;>
      rcases xid_back hs h hy hiy with ⟨y', hy', hi⟩ | ⟨⟨o', hl'⟩, hi, -⟩
    · exact hs.apart j k x' y' hjk hx' hy' i hi hi'
    · exact (hs.known j x' hx' i hi').ne hi
    · exact (hs.known k y' hy' i hi).ne hi'
    · cases hl.symm.trans hl'
      exact hjk rfl
  known j x hx i hi := by
    rcases xid_back hs h hx hi with ⟨x', hx', hi⟩ | ⟨-, -, hlt⟩
    · exact (hs.known j x' hx' i hi).trans_le (nextXid_step hs h)
    · exact hlt

omit [DecidableEq ι] in
theorem sound_start (hquiet : s.Quiet) (hkept : Kept s.shared) : Sound s where
  kept := hkept
  inProtocol := hquiet.inProtocol
  fits j x hx := by simp [hquiet.1 j] at hx
  apart j k x y _ hx := by simp [hquiet.1 j] at hx
  known j x hx := by simp [hquiet.1 j] at hx

end Runs
end ParkIt.Entries
