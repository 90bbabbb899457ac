import ParkIt.MoneyTrail
import ParkIt.Upload.Attempt
import ParkIt.Upload.Poll
import ParkIt.Lib.Groups

/-! Over every run, a settlement record counts and sums up the rows that are linked to it. -/
namespace ParkIt

open Effects Transition Settlement

namespace Db
variable (db : Db)

def rowsOf (i : Id) : List EmoneyTransaction :=
  db.emoney.filter fun e => decide (e.settlementBatchId = some i)

/-- Only successful deducts are linked, to records that are there and that sum them up. -/
structure Balanced : Prop where
  ids : (db.emoney.map (·.id)).Nodup
  records : (db.settlements.map (·.id)).Nodup
  linked : ∀ e ∈ db.emoney, ∀ i, e.settlementBatchId = some i →
    e.status = .success ∧ ∃ r ∈ db.settlements, r.id = i
  counts : ∀ r ∈ db.settlements, r.totalTransactions = (db.rowsOf r.id).length
  amounts : ∀ r ∈ db.settlements,
    r.totalAmount = ((db.rowsOf r.id).map (·.amountDeducted)).sum

end Db

section Balanced
variable {db db' : Db} {b : Batch} {bs : List Batch} {i : Id}

/-- Columns that the balance does not speak of may change. -/
theorem balanced_map {f : EmoneyTransaction → EmoneyTransaction}
    {g : EmoneySettlement → EmoneySettlement} (h : db.Balanced)
    (hemoney : db'.emoney = db.emoney.map f) (hsettlements : db'.settlements = db.settlements.map g)
    (hf : ∀ e, (f e).id = e.id ∧ (f e).status = e.status ∧
      (f e).settlementBatchId = e.settlementBatchId ∧ (f e).amountDeducted = e.amountDeducted)
    (hg : ∀ r, (g r).id = r.id ∧ (g r).totalTransactions = r.totalTransactions ∧
      (g r).totalAmount = r.totalAmount) : db'.Balanced := by
  have hrows : ∀ i, db'.rowsOf i = (db.rowsOf i).map f := by
    intro i
    rw [Db.rowsOf, hemoney, List.filter_map]
    refine congrArg (List.map f) (List.filter_congr fun e _ => ?_)
    simp only [Function.comp_apply, (hf e).2.2.1]
  refine ⟨?_, ?_, ?_, ?_, ?_⟩
  · rw [hemoney, List.map_map]
    exact (List.map_congr_left fun e _ => (hf e).1) ▸ h.ids
  · rw [hsettlements, List.map_map]
    exact (List.map_congr_left fun r _ => (hg r).1) ▸ h.records
  · intro e' he' i hi
    rw [hemoney] at he'
    obtain ⟨e, he, rfl⟩ := List.mem_map.mp he'
    rw [(hf e).2.2.1] at hi
    obtain ⟨hstatus, r, hr, hid⟩ := h.linked e he i hi
    refine ⟨(hf e).2.1.trans hstatus, g r, ?_, (hg r).1.trans hid⟩
    rw [hsettlements]
    exact List.mem_map_of_mem hr
  · intro r' hr'
    rw [hsettlements] at hr'
    obtain ⟨r, hr, rfl⟩ := List.mem_map.mp hr'
    rw [(hg r).2.1, (hg r).1, hrows, List.length_map]
    exact h.counts r hr
  · intro r' hr'
    rw [hsettlements] at hr'
    obtain ⟨r, hr, rfl⟩ := List.mem_map.mp hr'
    rw [(hg r).2.2, (hg r).1, hrows, List.map_map, h.amounts r hr]
    exact congrArg List.sum (List.map_congr_left fun e _ => (hf e).2.2.2.symm)

/-- New rows are linked to nothing. -/
theorem balanced_append {new : List EmoneyTransaction} (h : db.Balanced)
    (hemoney : db'.emoney = db.emoney ++ new) (hsettlements : db'.settlements = db.settlements)
    (hids : (db'.emoney.map (·.id)).Nodup) (hnew : ∀ e ∈ new, e.settlementBatchId = none) :
    db'.Balanced := by
  have hrows : ∀ i, db'.rowsOf i = db.rowsOf i := by
    intro i
    have hnone : new.filter (fun e => decide (e.settlementBatchId = some i)) = [] := by
      refine List.filter_eq_nil_iff.mpr fun e he => ?_
      simp [hnew e he]
    rw [Db.rowsOf, hemoney, List.filter_append, hnone, List.append_nil]
    rfl
  refine ⟨hids, hsettlements ▸ h.records, fun e he i hi => ?_, ?_, ?_⟩
  · rw [hemoney] at he
    rw [hsettlements]
    rcases List.mem_append.mp he with he | he
    · exact h.linked e he i hi
    · rw [hnew e he] at hi
      cases hi
  · intro r hr
    rw [hrows]
    exact h.counts r (hsettlements ▸ hr)
  · intro r hr
    rw [hrows]
    exact h.amounts r (hsettlements ▸ hr)

theorem link_amount (b : Batch) (e : EmoneyTransaction) :
    (b.link e).amountDeducted = e.amountDeducted := by
  unfold Batch.link
  split <;> rfl

/-- The other records keep their rows. -/
theorem settle_rowsOf_other (hrows : ∀ e ∈ b.rows, e ∈ db.emoney ∧ e.settlementBatchId = none)
    (hids : (db.emoney.map (·.id)).Nodup) (hi : i ≠ b.record.id) :
    (db.settle b).rowsOf i = db.rowsOf i := by
  refine filter_map_of_same fun e he => ?_
  by_cases hmem : e.id ∈ b.ids
  · obtain ⟨e₀, he₀, hsame⟩ := List.mem_map.mp hmem
    have heq : e₀ = e := List.inj_on_of_nodup_map hids (hrows e₀ he₀).1 he hsame
    have hnone := (hrows e₀ he₀).2
    rw [heq] at hnone
    refine Or.inr ⟨decide_eq_false fun h => ?_, decide_eq_false fun h => hi ?_⟩
    · rw [hnone] at h
      cases h
    · rw [if_pos (List.contains_iff_mem.mpr hmem)] at h
      exact (Option.some.inj h).symm
  · exact Or.inl (if_neg fun h => hmem (List.contains_iff_mem.mp h))

/-- The new record has the rows of its file. -/
theorem settle_rowsOf_self (h : db.Balanced) (hrows : ∀ e ∈ b.rows, e ∈ db.emoney)
    (honce : b.ids.Nodup) (hfresh : ∀ r ∈ db.settlements, r.id ≠ b.record.id) :
    ((db.settle b).rowsOf b.record.id).Perm (b.rows.map b.link) := by
  have hfilter : (db.settle b).rowsOf b.record.id =
      (db.emoney.filter fun e => decide (e.id ∈ b.ids)).map b.link := by
    have hemoney : (db.settle b).emoney = db.emoney.map b.link := rfl
    rw [Db.rowsOf, hemoney, List.filter_map]
    refine congrArg (List.map b.link) (List.filter_congr fun e he => decide_eq_decide.mpr ?_)
    unfold Batch.link
    constructor
    · intro hlink
      by_contra hmem
      rw [if_neg fun h => hmem (List.contains_iff_mem.mp h)] at hlink
      obtain ⟨-, r, hr, hid⟩ := h.linked e he _ hlink
      exact hfresh r hr hid
    · intro hmem
      rw [if_pos (List.contains_iff_mem.mpr hmem)]
  rw [hfilter]
  refine List.Perm.map _ ?_
  refine (List.perm_ext_iff_of_nodup (h.ids.of_map.filter _) honce.of_map).mpr fun e => ?_
  rw [List.mem_filter, decide_eq_true_iff]
  constructor
  · rintro ⟨he, hmem⟩
    obtain ⟨e₀, he₀, hsame⟩ := List.mem_map.mp hmem
    rwa [← List.inj_on_of_nodup_map h.ids (hrows e₀ he₀) he hsame]
  · exact fun he => ⟨hrows e he, List.mem_map_of_mem he⟩

/-- One file more. -/
theorem balanced_settle {sha256 : String → String} (h : db.Balanced) (hproper : b.Proper sha256)
    (hrows : ∀ e ∈ b.rows, e ∈ db.emoney ∧ e.Unsettled) (honce : b.ids.Nodup)
    (hfresh : ∀ r ∈ db.settlements, r.id ≠ b.record.id) : (db.settle b).Balanced := by
  have hemoney : (db.settle b).emoney = db.emoney.map b.link := rfl
  have hsettlements : (db.settle b).settlements = db.settlements ++ [b.record] := rfl
  have hself := settle_rowsOf_self h (fun e he => (hrows e he).1) honce hfresh
  have hother : ∀ r ∈ db.settlements, (db.settle b).rowsOf r.id = db.rowsOf r.id := fun r hr =>
    settle_rowsOf_other (fun e he => ⟨(hrows e he).1, (hrows e he).2.1⟩) h.ids (hfresh r hr)
  refine ⟨?_, ?_, ?_, ?_, ?_⟩
  · have hsame := settleAll_ids db [b]
    exact hsame.symm ▸ h.ids
  · rw [hsettlements, List.map_append]
    refine List.Nodup.append h.records (List.nodup_singleton _) fun i hi hi' => ?_
    obtain ⟨r, hr, rfl⟩ := List.mem_map.mp hi
    exact hfresh r hr (List.mem_singleton.mp hi')
  · intro e' he' i hi
    rw [hemoney] at he'
    obtain ⟨e, he, rfl⟩ := List.mem_map.mp he'
    rw [hsettlements]
    by_cases hmem : e.id ∈ b.ids
    · obtain ⟨e₀, he₀, hsame⟩ := List.mem_map.mp hmem
      have heq : e₀ = e := List.inj_on_of_nodup_map h.ids (hrows e₀ he₀).1 he hsame
      have hstatus := (hrows e₀ he₀).2.2.1
      rw [heq] at hstatus
      unfold Batch.link at hi ⊢
      rw [if_pos (List.contains_iff_mem.mpr hmem)] at hi ⊢
      exact ⟨hstatus, b.record, List.mem_append_right _ (List.mem_singleton_self _),
        Option.some.inj hi⟩
    · have hsame : b.link e = e := if_neg fun h => hmem (List.contains_iff_mem.mp h)
      rw [hsame] at hi ⊢
      obtain ⟨hstatus, r, hr, hid⟩ := h.linked e he i hi
      exact ⟨hstatus, r, List.mem_append_left _ hr, hid⟩
  · intro r hr
    rw [hsettlements] at hr
    rcases List.mem_append.mp hr with hr | hr
    · rw [hother r hr]
      exact h.counts r hr
    · obtain rfl := List.mem_singleton.mp hr
      rw [hself.length_eq, List.length_map]
      exact hproper.count
  · intro r hr
    rw [hsettlements] at hr
    rcases List.mem_append.mp hr with hr | hr
    · rw [hother r hr]
      exact h.amounts r hr
    · obtain rfl := List.mem_singleton.mp hr
      rw [(hself.map _).sum_eq, List.map_map, hproper.amount]
      exact congrArg List.sum (List.map_congr_left fun e _ => (link_amount b e).symm)

/-- All the files of a run; the rows of the later ones are left alone by the earlier ones. -/
theorem balanced_settleAll {sha256 : String → String} (h : db.Balanced)
    (hproper : ∀ b ∈ bs, b.Proper sha256)
    (hrows : ∀ b ∈ bs, ∀ e ∈ b.rows, e ∈ db.emoney ∧ e.Unsettled)
    (honce : (bs.flatMap Batch.ids).Nodup) (hdistinct : (bs.map (·.record.id)).Nodup)
    (hfresh : ∀ b ∈ bs, ∀ r ∈ db.settlements, r.id ≠ b.record.id) :
    (db.settleAll bs).Balanced := by
  induction bs generalizing db with
  | nil => exact h
  | cons b bs ih =>
    rw [List.flatMap_cons] at honce
    obtain ⟨honceHere, honceRest, hapart⟩ := List.nodup_append'.mp honce
    obtain ⟨hrecord, hdistinct⟩ := List.nodup_cons.mp hdistinct
    have hhere := balanced_settle h (hproper b List.mem_cons_self)
      (hrows b List.mem_cons_self) honceHere (hfresh b List.mem_cons_self)
    refine ih hhere (fun b' hb' => hproper b' (List.mem_cons_of_mem _ hb')) ?_ honceRest
      hdistinct ?_
    · intro b' hb' e he
      obtain ⟨hmem, hun⟩ := hrows b' (List.mem_cons_of_mem _ hb') e he
      have hfree : ∀ b₀ ∈ [b], e.id ∉ b₀.ids := by
        intro b₀ hb₀ hid
        rw [List.mem_singleton.mp hb₀] at hid
        exact hapart hid (List.mem_flatMap.mpr ⟨b', hb', List.mem_map_of_mem he⟩)
      exact ⟨mem_settleAll hmem hfree, hun⟩
    · intro b' hb' r hr
      rcases List.mem_append.mp hr with hr | hr
      · exact hfresh b' (List.mem_cons_of_mem _ hb') r hr
      · rw [List.mem_singleton.mp hr]
        exact fun heq => hrecord (List.mem_map.mpr ⟨b', hb', heq.symm⟩)

end Balanced

section Calls
variable {w w' : World} {k : Call}

/-- Rows that are inserted get the next keys. -/
def Numbered (w w' : World) : Prop :=
  w.nextEmoney ≤ w'.nextEmoney ∧ w'.db.settlements = w.db.settlements ∧
    ∃ new, w'.db.emoney = w.db.emoney ++ new ∧ (new.map (·.id)).Nodup ∧
      ∀ e ∈ new, w.nextEmoney ≤ e.id ∧ e.id < w'.nextEmoney

theorem Numbered.refl (w : World) : Numbered w w :=
  ⟨le_rfl, rfl, [], (List.append_nil _).symm, List.nodup_nil, fun _ he => absurd he List.not_mem_nil⟩

theorem Numbered.trans {w'' : World} (h : Numbered w w') (h' : Numbered w' w'') :
    Numbered w w'' := by
  obtain ⟨hnext, hsettlements, new, hnew, honce, hbounds⟩ := h
  obtain ⟨hnext', hsettlements', new', hnew', honce', hbounds'⟩ := h'
  refine ⟨hnext.trans hnext', hsettlements'.trans hsettlements, new ++ new', ?_, ?_, ?_⟩
  · rw [hnew', hnew, List.append_assoc]
  · rw [List.map_append]
    refine List.Nodup.append honce honce' fun i hi hi' => ?_
    obtain ⟨e, he, rfl⟩ := List.mem_map.mp hi
    obtain ⟨e', he', heq⟩ := List.mem_map.mp hi'
    have hlow := (hbounds e he).2
    have hhigh := (hbounds' e' he').1
    rw [heq] at hhigh
    exact absurd hlow (not_lt.mpr hhigh)
  · intro e he
    rcases List.mem_append.mp he with he | he
    · exact ⟨(hbounds e he).1, lt_of_lt_of_le (hbounds e he).2 hnext'⟩
    · exact ⟨hnext.trans (hbounds' e he).1, (hbounds' e he).2⟩

theorem Numbered.of_db (hemoney : w'.db.emoney = w.db.emoney)
    (hsettlements : w'.db.settlements = w.db.settlements) (hnext : w'.nextEmoney = w.nextEmoney) :
    Numbered w w' := by
  refine ⟨hnext.ge, hsettlements, [], ?_, List.nodup_nil, fun _ he => absurd he List.not_mem_nil⟩
  rw [hemoney, List.append_nil]

theorem numbered_execOp (o : ApiOp) (c : Conn) : Numbered c.world (execOp o c).2.world := by
  cases o with
  | lock f =>
    simp only [execOp]
    split <;> exact Numbered.refl _
  | update i u =>
    simp only [execOp]
    split
    · exact Numbered.refl _
    · split
      · exact Numbered.of_db rfl rfl rfl
      · exact Numbered.refl _
  | ext e =>
    cases e with
    | insertEmoney e =>
      simp only [execOp, execEffect]
      split
      · refine ⟨by simp, rfl, [_], rfl, List.nodup_singleton _, fun e he => ?_⟩
        rw [List.mem_singleton.mp he]
        exact ⟨le_rfl, lt_add_one _⟩
      · exact ⟨by simp, rfl, [], (List.append_nil _).symm, List.nodup_nil,
          fun _ he => absurd he List.not_mem_nil⟩
    | _ =>
      simp only [execOp, execEffect]
      first
        | exact Numbered.of_db rfl rfl rfl
        | split <;> exact Numbered.of_db rfl rfl rfl

theorem numbered_exec {α : Type} (p : Api α) (w : World) : Numbered w (p.exec w).2 :=
  Prog.run_rel execOp { world := w } (R := fun c c' => Numbered c.world c'.world)
    (fun _ => Numbered.refl _) (fun _ _ _ => Numbered.trans) (fun o c => numbered_execOp o c) p

theorem numbered_rollback (h : Numbered w w') : Numbered w (w.rollback w') :=
  ⟨h.1, rfl, [], (List.append_nil _).symm, List.nodup_nil, fun _ he => absurd he List.not_mem_nil⟩

theorem numbered_after (k : Call) (w : World) : Numbered w (k.after w) := by
  have hexec := numbered_exec k.handler w
  unfold Call.after
  rcases hr : k.handler.exec w with ⟨(msg | _ | _ | _) | _, w'⟩ <;> rw [hr] at hexec
  · exact hexec
  · exact numbered_rollback hexec
  · exact numbered_rollback hexec
  · exact numbered_rollback hexec
  · exact hexec

/-- Whether it commits or rolls back, a call stores at most unlinked rows with new keys. -/
theorem callStep_rows (h : CallStep w (some k) w') :
    Numbered w w' ∧ Grows (·.settlementBatchId = none) w.db.emoney w'.db.emoney := by
  cases h with
  | commit k =>
    exact ⟨numbered_after k w, (grows_call k).mono fun e ⟨_, he⟩ => he.batch⟩
  | rollback k => exact ⟨numbered_rollback (numbered_exec k.handler w), Grows.of_eq rfl⟩

end Calls

section Runs

inductive BookEvent where
  | call (k : Call)
  | settle (ctx : Settlement.Ctx)
  | upload (o : Upload.UploadOp)
  | poll (o : Upload.PollOp)
  | outside

/-- Service calls, settlement runs one at a time, and the statements of any number of upload and
poll jobs in any order; the rest of the system leaves the rows of both tables alone. -/
inductive BookStep (sha256 : String → String) : Upload.Site → BookEvent → Upload.Site → Prop
  | call {s : Upload.Site} {k : Call} {w : World} : CallStep s.desk.world (some k) w →
      BookStep sha256 s (.call k) { s with desk.world := w }
  | settle {s : Upload.Site} (ctx : Settlement.Ctx) :
      BookStep sha256 s (.settle ctx) { s with desk := (generate sha256 ctx s.desk).2 }
  | upload {s : Upload.Site} (replaces : Bool) (x : Upload.Fate) (o : Upload.UploadOp) :
      BookStep sha256 s (.upload o) (Upload.serve replaces x o s).2
  | poll {s : Upload.Site} (o : Upload.PollOp) : BookStep sha256 s (.poll o) (Upload.answer o s).2
  | outside {s t : Upload.Site} : t.desk.world.db.emoney = s.desk.world.db.emoney →
      t.desk.world.db.settlements = s.desk.world.db.settlements →
      s.desk.world.nextEmoney ≤ t.desk.world.nextEmoney →
      s.desk.nextSettlement ≤ t.desk.nextSettlement → BookStep sha256 s .outside t

/-- The tables balance, and no key has been given out that the sequences have not passed. -/
structure Booked (s : Upload.Site) : Prop where
  balanced : s.desk.world.db.Balanced
  emoney : ∀ e ∈ s.desk.world.db.emoney, e.id < s.desk.world.nextEmoney
  settlements : ∀ r ∈ s.desk.world.db.settlements, r.id < s.desk.nextSettlement

variable {sha256 : String → String} {s t : Upload.Site} {l : BookEvent} {d : Settlement.State}
  {xs : List (BookEvent × Upload.Site)}

theorem booked_map {f : EmoneyTransaction → EmoneyTransaction}
    {g : EmoneySettlement → EmoneySettlement} (h : Booked s)
    (hemoney : t.desk.world.db.emoney = s.desk.world.db.emoney.map f)
    (hsettlements : t.desk.world.db.settlements = s.desk.world.db.settlements.map g)
    (hf : ∀ e, (f e).id = e.id ∧ (f e).status = e.status ∧
      (f e).settlementBatchId = e.settlementBatchId ∧ (f e).amountDeducted = e.amountDeducted)
    (hg : ∀ r, (g r).id = r.id ∧ (g r).totalTransactions = r.totalTransactions ∧
      (g r).totalAmount = r.totalAmount)
    (hnext : s.desk.world.nextEmoney ≤ t.desk.world.nextEmoney)
    (hnext' : s.desk.nextSettlement ≤ t.desk.nextSettlement) : Booked t := by
  refine ⟨balanced_map h.balanced hemoney hsettlements hf hg, fun e' he' => ?_, fun r' hr' => ?_⟩
  · rw [hemoney] at he'
    obtain ⟨e, he, rfl⟩ := List.mem_map.mp he'
    rw [(hf e).1]
    exact lt_of_lt_of_le (h.emoney e he) hnext
  · rw [hsettlements] at hr'
    obtain ⟨r, hr, rfl⟩ := List.mem_map.mp hr'
    rw [(hg r).1]
    exact lt_of_lt_of_le (h.settlements r hr) hnext'

theorem booked_same (h : Booked s)
    (hemoney : t.desk.world.db.emoney = s.desk.world.db.emoney)
    (hsettlements : t.desk.world.db.settlements = s.desk.world.db.settlements)
    (hnext : s.desk.world.nextEmoney ≤ t.desk.world.nextEmoney)
    (hnext' : s.desk.nextSettlement ≤ t.desk.nextSettlement) : Booked t :=
  booked_map (f := id) (g := id) h (by rw [hemoney, List.map_id]) (by rw [hsettlements, List.map_id])
    (fun _ => ⟨rfl, rfl, rfl, rfl⟩) (fun _ => ⟨rfl, rfl, rfl⟩) hnext hnext'

theorem booked_call {k : Call} {w : World} (h : Booked s)
    (hcall : CallStep s.desk.world (some k) w) : Booked { s with desk.world := w } := by
  obtain ⟨⟨hnext, hsettlements, new, hnew, honce, hbounds⟩, new', hnew', hnone⟩ :=
    callStep_rows hcall
  obtain rfl : new = new' := List.append_cancel_left (hnew.symm.trans hnew')
  have hids : (w.db.emoney.map (·.id)).Nodup := by
    rw [hnew, List.map_append]
    refine List.Nodup.append h.balanced.ids honce fun i hi hi' => ?_
    obtain ⟨e, he, rfl⟩ := List.mem_map.mp hi
    obtain ⟨e', he', heq⟩ := List.mem_map.mp hi'
    have hlow := h.emoney e he
    have hhigh := (hbounds e' he').1
    rw [heq] at hhigh
    exact absurd hlow (not_lt.mpr hhigh)
  refine ⟨balanced_append h.balanced hnew hsettlements hids hnone, fun e he => ?_, fun r hr => ?_⟩
  · change e ∈ w.db.emoney at he
    rw [hnew] at he
    rcases List.mem_append.mp he with he | he
    · exact lt_of_lt_of_le (h.emoney e he) hnext
    · exact (hbounds e he).2
  · change r ∈ w.db.settlements at hr
    exact h.settlements r (hsettlements ▸ hr)

/-- A run gives out no keys of e-money rows. -/
theorem generate_nextEmoney (sha256 : String → String) (ctx : Settlement.Ctx)
    (d : Settlement.State) :
    (generate sha256 ctx d).2.world.nextEmoney = d.world.nextEmoney := by
  have hrun := Prog.run_rel Settlement.exec { state := d, saved := d.world.db }
    (R := fun c c' => c'.state.world.nextEmoney = c.state.world.nextEmoney) (fun _ => rfl)
    (fun _ _ _ h h' => h'.trans h) ?_ (generateSettlementFile sha256 ctx)
  · exact hrun
  · intro o c
    cases o <;> simp only [Settlement.exec] <;> (repeat' split) <;> rfl

/-- What a run commits, whatever it comes to. -/
theorem generate_commits (sha256 : String → String) (ctx : Settlement.Ctx)
    (hids : (d.world.db.emoney.map (·.id)).Nodup) :
    ∃ bs c, Grown sha256 d.session c bs ∧ (generate sha256 ctx d).2.world.db = c.saved ∧
      (generate sha256 ctx d).2.nextSettlement = c.state.nextSettlement := by
  have hrun : Prog.Ensures Settlement.exec (generateSettlementFile sha256 ctx) d.session
      (fun _ c' => ∃ bs, Grown sha256 d.session c' bs)
      fun _ c' => ∃ bs, Grown sha256 d.session c' bs :=
    (generate_grown hids).mono (fun _ _ ⟨bs, h, _⟩ => ⟨bs, h⟩) fun _ _ h => h
  unfold generate
  unfold Prog.Ensures State.session at hrun
  rcases hr : (generateSettlementFile sha256 ctx).run Settlement.exec
      { state := d, saved := d.world.db } with ⟨e | a, c'⟩ <;> rw [hr] at hrun <;>
    obtain ⟨bs, hgrown⟩ := hrun <;> exact ⟨bs, c', hgrown, rfl, rfl⟩

theorem booked_settle (h : Booked s) (ctx : Settlement.Ctx) :
    Booked { s with desk := (generate sha256 ctx s.desk).2 } := by
  obtain ⟨bs, c, hgrown, hdb, hnext⟩ := generate_commits sha256 ctx h.balanced.ids
  have hsaved : (generate sha256 ctx s.desk).2.world.db = s.desk.world.db.settleAll bs :=
    hdb.trans hgrown.saved
  have hfresh : ∀ b ∈ bs, ∀ r ∈ s.desk.world.db.settlements, r.id ≠ b.record.id := by
    intro b hb r hr
    exact (lt_of_lt_of_le (h.settlements r hr) (hgrown.fresh b hb).1).ne
  have hbalanced : (s.desk.world.db.settleAll bs).Balanced :=
    balanced_settleAll h.balanced hgrown.proper
      (fun b hb e he => ⟨(hgrown.taken b hb e he).1, (hgrown.taken b hb e he).2.1⟩)
      hgrown.once hgrown.distinct hfresh
  refine ⟨?_, fun e he => ?_, fun r hr => ?_⟩
  · exact hsaved ▸ hbalanced
  · change e ∈ (generate sha256 ctx s.desk).2.world.db.emoney at he
    rw [hsaved] at he
    have hid : e.id ∈ (s.desk.world.db.settleAll bs).emoney.map (·.id) := List.mem_map_of_mem he
    rw [settleAll_ids] at hid
    obtain ⟨e₀, he₀, heq⟩ := List.mem_map.mp hid
    have hold := h.emoney e₀ he₀
    change e.id < (generate sha256 ctx s.desk).2.world.nextEmoney
    rw [generate_nextEmoney]
    exact heq ▸ hold
  · change r ∈ (generate sha256 ctx s.desk).2.world.db.settlements at hr
    change r.id < (generate sha256 ctx s.desk).2.nextSettlement
    rw [hsaved, settleAll_settlements] at hr
    rw [hnext]
    rcases List.mem_append.mp hr with hr | hr
    · exact lt_of_lt_of_le (h.settlements r hr) hgrown.next
    · obtain ⟨b, hb, rfl⟩ := List.mem_map.mp hr
      exact (hgrown.fresh b hb).2


theorem responded_columns (answers : List (Id × String)) (now : Int) (e : EmoneyTransaction) :
    (e.responded answers now).id = e.id ∧ (e.responded answers now).status = e.status ∧
      (e.responded answers now).settlementBatchId = e.settlementBatchId ∧
      (e.responded answers now).amountDeducted = e.amountDeducted := by
  unfold EmoneyTransaction.responded
  split <;> exact ⟨rfl, rfl, rfl, rfl⟩

theorem booked_upload (h : Booked s) (replaces : Bool) (x : Upload.Fate) (o : Upload.UploadOp) :
    Booked (Upload.serve replaces x o s).2 := by
  by_cases ho : Upload.OffDesk o
  · have hdesk := (Upload.serve_offDesk ho replaces x s).2
    exact booked_same h (by rw [hdesk]) (by rw [hdesk]) (by rw [hdesk]) (by rw [hdesk])
  · have hupdate : ∀ i u, Booked (s.update i u) := by
      intro i u
      refine booked_map (f := id) (g := fun r => if r.id = i then u.apply r else r) h
        (List.map_id _).symm rfl (fun _ => ⟨rfl, rfl, rfl, rfl⟩) (fun r => ?_) le_rfl le_rfl
      split <;> exact ⟨rfl, rfl, rfl⟩
    cases o with
    | getSettlement i => exact h
    | now => exact booked_same h rfl rfl le_rfl le_rfl
    | commit i u =>
      rcases x with _ | _ | served | n
      · exact hupdate i u
      · exact h
      · cases served
        · exact h
        · exact hupdate i u
      · exact h
    | _ => exact (ho trivial).elim

theorem booked_poll (h : Booked s) (o : Upload.PollOp) : Booked (Upload.answer o s).2 := by
  cases o with
  | commit answers now i status ext =>
    simp only [Upload.answer]
    split
    · refine booked_map (f := EmoneyTransaction.responded answers now)
        (g := fun r => if r.id = i then
          { r with status, responseReceivedAt := some now, responseExtension := some ext } else r)
        h rfl rfl (responded_columns answers now) (fun r => ?_) le_rfl le_rfl
      split <;> exact ⟨rfl, rfl, rfl⟩
    · exact h
  | get remote tmp =>
    simp only [Upload.answer]
    split
    · exact h
    · exact booked_same h rfl rfl le_rfl le_rfl
  | read tmp =>
    simp only [Upload.answer]
    split
    · exact h
    · split <;> exact h
  | _ => exact booked_same h rfl rfl le_rfl le_rfl

theorem booked_step (h : BookStep sha256 s l t) (hs : Booked s) : Booked t := by
  cases h with
  | call hcall => exact booked_call hs hcall
  | settle ctx => exact booked_settle hs ctx
  | upload replaces x o => exact booked_upload hs replaces x o
  | poll o => exact booked_poll hs o
  | outside hemoney hsettlements hnext hnext' =>
    exact booked_same hs hemoney hsettlements hnext hnext'

theorem booked_run (h : Path (BookStep sha256) s xs) (hs : Booked s) : Booked (finish s xs) :=
  h.invariant (fun _ _ _ hstep => booked_step hstep) hs

/-- Whatever the jobs do, the records stay in balance with the rows. -/
theorem records_balance (hs : Booked s) (h : Path (BookStep sha256) s xs) :
    (finish s xs).desk.world.db.Balanced := (booked_run h hs).balanced

end Runs

section Evening

/-- The desk of the partition, with a server that takes its files. -/
def evening : Upload.Site := { desk := nightDesk }

theorem evening_booked : Booked evening := by
  have hnone : ∀ e ∈ evening.desk.world.db.emoney, e.settlementBatchId = none := by decide
  have hnorecord : evening.desk.world.db.settlements = [] := rfl
  refine ⟨⟨by decide, List.nodup_nil, fun e he i hi => ?_, fun r hr => ?_, fun r hr => ?_⟩,
    by decide, fun r hr => ?_⟩
  · rw [hnone e he] at hi
    cases hi
  all_goals
    rw [hnorecord] at hr
    cases hr

/-- Two deducts get into a file, and the bank's server refuses the first upload of it. -/
def eveningRun : List (BookEvent × Upload.Site) :=
  let settled : Upload.Site := { evening with desk := (generate id ⟨true⟩ evening.desk).2 }
  [(.settle ⟨true⟩, settled),
   (.upload (.commit 1 { status := some "FAILED" }),
    (Upload.serve false .done (.commit 1 { status := some "FAILED" }) settled).2)]

theorem evening_path : Path (BookStep id) evening eveningRun :=
  ⟨.settle ⟨true⟩, .upload false .done _, trivial⟩

theorem records_balance_evening : (finish evening eveningRun).desk.world.db.Balanced :=
  records_balance evening_booked evening_path

end Evening
end ParkIt
