import ParkIt.Settlement.Orderly

/-! When settlement jobs that overlap settle every row once. -/
namespace ParkIt

/-- How many rows are linked to the record. -/
def Db.linkedTo (db : Db) (i : Id) : Nat :=
  (db.emoney.filter fun e => decide (e.settlementBatchId = some i)).length

/-- The records count the rows that are linked to them. -/
def Db.Tallied (db : Db) : Prop :=
  ∀ r ∈ db.settlements, r.totalTransactions = db.linkedTo r.id

namespace Settlement

open Sessions Transition

section Links
variable {db : Db} {b : Batch} {i : Id}

theorem linkedTo_links : db.linkedTo i = db.links.countP fun x => decide (x.2 = some i) := by
  rw [Db.linkedTo, Db.links, List.countP_map, List.countP_eq_length_filter]
  rfl

theorem links_ids : db.links.map Prod.fst = db.emoney.map (·.id) := by
  rw [Db.links, List.map_map]
  rfl

theorem settle_links : (db.settle b).links =
    db.links.map fun x => if b.ids.contains x.1 then (x.1, some b.record.id) else x := by
  have hrows : (db.settle b).emoney = db.emoney.map b.link := rfl
  rw [Db.links, Db.links, hrows, List.map_map, List.map_map]
  refine List.map_congr_left fun e _ => ?_
  simp only [Function.comp_apply, Batch.link]
  split <;> rfl

/-- A row has one entry. -/
theorem link_unique (hids : (db.emoney.map (·.id)).Nodup) {x y : Id × Option Id}
    (hx : x ∈ db.links) (hy : y ∈ db.links) (h : x.1 = y.1) : x = y := by
  rw [← links_ids] at hids
  exact List.inj_on_of_nodup_map hids hx hy h

/-- The rows of a batch leave the unlinked ones. -/
theorem unlinked_settle : (i, none) ∈ (db.settle b).links ↔ (i, none) ∈ db.links ∧ i ∉ b.ids := by
  rw [settle_links, List.mem_map]
  constructor
  · rintro ⟨x, hx, heq⟩
    by_cases hmem : b.ids.contains x.1 = true
    · rw [if_pos hmem] at heq
      cases heq
    · rw [if_neg hmem] at heq
      subst heq
      exact ⟨hx, fun h => hmem (List.contains_iff_mem.mpr h)⟩
  · rintro ⟨hx, hmem⟩
    exact ⟨(i, none), hx, if_neg fun h => hmem (List.contains_iff_mem.mp h)⟩

theorem linked_settle (h : (∃ r, (i, some r) ∈ db.links) ∨ (i, none) ∈ db.links ∧ i ∈ b.ids) :
    ∃ r, (i, some r) ∈ (db.settle b).links := by
  rw [settle_links]
  by_cases hmem : b.ids.contains i = true
  · obtain ⟨o, ho⟩ : ∃ o, (i, o) ∈ db.links := by
      rcases h with ⟨r, hr⟩ | ⟨hfree, -⟩
      · exact ⟨some r, hr⟩
      · exact ⟨none, hfree⟩
    exact ⟨b.record.id, List.mem_map.mpr ⟨(i, o), ho, if_pos hmem⟩⟩
  · rcases h with ⟨r, hr⟩ | ⟨-, hi⟩
    · exact ⟨r, List.mem_map.mpr ⟨(i, some r), hr, if_neg hmem⟩⟩
    · exact absurd (List.contains_iff_mem.mpr hi) hmem

/-- A batch of unlinked rows takes no row from another record. -/
theorem linkedTo_settle_of_ne (hids : (db.emoney.map (·.id)).Nodup)
    (hfree : ∀ k ∈ b.ids, (k, none) ∈ db.links) (hne : b.record.id ≠ i) :
    (db.settle b).linkedTo i = db.linkedTo i := by
  rw [linkedTo_links, linkedTo_links, settle_links, List.countP_map]
  refine List.countP_congr fun x hx => ?_
  simp only [Function.comp_apply, decide_eq_true_iff]
  by_cases hmem : b.ids.contains x.1 = true
  · have hx₀ : x = (x.1, none) :=
      link_unique hids hx (hfree x.1 (List.contains_iff_mem.mp hmem)) rfl
    rw [if_pos hmem, hx₀]
    exact ⟨fun h => absurd (Option.some.inj h) hne, nofun⟩
  · rw [if_neg hmem]

/-- Its own record gets its rows and no others. -/
theorem linkedTo_settle_self (hids : (db.emoney.map (·.id)).Nodup)
    (hfree : ∀ k ∈ b.ids, (k, none) ∈ db.links) (hnew : ∀ x ∈ db.links, x.2 ≠ some b.record.id)
    (hb : b.ids.Nodup) : (db.settle b).linkedTo b.record.id = b.ids.length := by
  have hcount : (db.settle b).linkedTo b.record.id =
      (db.emoney.map (·.id)).countP fun k => decide (k ∈ b.ids) := by
    rw [linkedTo_links, settle_links, ← links_ids, List.countP_map, List.countP_map]
    refine List.countP_congr fun x hx => ?_
    simp only [Function.comp_apply, decide_eq_true_iff]
    by_cases hmem : b.ids.contains x.1 = true
    · rw [if_pos hmem]
      exact ⟨fun _ => List.contains_iff_mem.mp hmem, fun _ => rfl⟩
    · rw [if_neg hmem]
      exact ⟨fun h => absurd h (hnew x hx), fun h => absurd (List.contains_iff_mem.mpr h) hmem⟩
  rw [hcount, List.countP_eq_length_filter]
  refine ((List.perm_ext_iff_of_nodup (hids.filter _) hb).mpr fun k => ?_).length_eq
  rw [List.mem_filter, decide_eq_true_iff]
  refine ⟨And.right, fun hk => ⟨?_, hk⟩⟩
  rw [← links_ids]
  exact List.mem_map_of_mem (hfree k hk)

end Links
/-- A job fetches the rows of a reader only when no other job holds any of them. -/
def Unshared {ι : Type} (s : JobSys ι) : Label ι JobOp → Prop
  | .go j (.unsettled r) => ∀ k x, k ≠ j → s.session k = some x → ∀ e ∈ x.note.rows,
      ∀ e' ∈ s.shared.world.db.emoney, e'.Unsettled → e'.emoneyReaderId = some r → e'.id ≠ e.id
  | _ => True

/-- The rows that jobs hold are unlinked and held once. -/
structure Separate {ι : Type} (s : JobSys ι) : Prop where
  once : ∀ j x, s.session j = some x → (x.note.rows.map (·.id)).Nodup
  free : ∀ j x, s.session j = some x → ∀ e ∈ x.note.rows, (e.id, none) ∈ s.shared.world.db.links
  apart : ∀ j k x y, s.session j = some x → s.session k = some y → j ≠ k →
    ∀ e ∈ x.note.rows, ∀ e' ∈ y.note.rows, e.id ≠ e'.id

/-- The files agree with their records and share no row, and the records count their rows. -/
structure Settled {ι : Type} (sha256 : String → String) (s : JobSys ι) : Prop where
  proper : ∀ b ∈ batches sha256 s.log, b.Proper sha256
  once : ((batches sha256 s.log).flatMap Batch.ids).Nodup
  linked : ∀ b ∈ batches sha256 s.log, ∀ i ∈ b.ids, ∃ r, (i, some r) ∈ s.shared.world.db.links
  tallied : s.shared.world.db.Tallied

section Overlap
variable {ι : Type} {sha256 : String → String} {s₀ : State} {s t : JobSys ι}
  {l : Label ι JobOp} {j : ι} {ws : List Write}
  {x : Session JobOp JobOp.Ans JobExc Outcome (List Write) Note}

/-- Nobody gets a row to hold that nobody had. -/
def Holds (s t : JobSys ι) : Prop :=
  ∀ k y, t.session k = some y → y.note.rows ≠ [] →
    ∃ x, s.session k = some x ∧ y.note.rows <:+ x.note.rows

theorem separate_holds (hs : Separate s) (hholds : Holds s t)
    (hfree : ∀ k y, t.session k = some y → ∀ e ∈ y.note.rows,
      (e.id, none) ∈ s.shared.world.db.links → (e.id, none) ∈ t.shared.world.db.links) :
    Separate t := by
  refine ⟨fun k y hy => ?_, fun k y hy e he => ?_, fun k k' y y' hy hy' hne e he e' he' => ?_⟩
  · by_cases hnil : y.note.rows = []
    · rw [hnil]
      exact List.nodup_nil
    · obtain ⟨x, hx, hsuffix⟩ := hholds k y hy hnil
      exact (hs.once k x hx).sublist (hsuffix.sublist.map _)
  · obtain ⟨x, hx, hsuffix⟩ := hholds k y hy (List.ne_nil_of_mem he)
    exact hfree k y hy e he (hs.free k x hx e (hsuffix.mem he))
  · obtain ⟨x, hx, hsuffix⟩ := hholds k y hy (List.ne_nil_of_mem he)
    obtain ⟨x', hx', hsuffix'⟩ := hholds k' y' hy' (List.ne_nil_of_mem he')
    exact hs.apart k k' x x' hx hx' hne e (hsuffix.mem he) e' (hsuffix'.mem he')

/-- The rows that are fetched come from the committed ones, and from nobody else. -/
theorem separate_unsettled {r : Id} {rows : List EmoneyTransaction} (hs : Separate s)
    (hkept : Orderly sha256 s₀ s) (hunshared : Unshared s (.go j (.unsettled r)))
    (hw : Went sha256 s t j x (.unsettled r) rows ws) : Separate t := by
  obtain ⟨⟨-, -, -, hrecord, -⟩, -⟩ := hw.allow
  have hact := hw.act
  rw [(hkept.each j x hw.session).pending, pending_none hrecord] at hact
  have hdb : t.shared.world.db = s.shared.world.db := hact.db nofun
  have hmem : ∀ e ∈ rows, e ∈ s.shared.world.db.emoney ∧ e.Unsettled ∧
      e.emoneyReaderId = some r := fun e he => mem_unsettled hact he
  have honce : (rows.map (·.id)).Nodup := by
    rw [hact.unsettled]
    exact queue_once hkept.stored.ids
  have hfree : ∀ e ∈ rows, (e.id, none) ∈ s.shared.world.db.links := fun e he =>
    List.mem_map.mpr ⟨e, (hmem e he).1, by rw [(hmem e he).2.1.1]⟩
  have hothers : ∀ k y, k ≠ j → s.session k = some y → ∀ e ∈ y.note.rows, ∀ e' ∈ rows,
      e'.id ≠ e.id := fun k y hk hy e he e' he' =>
    hunshared k y hk hy e he e' (hmem e' he').1 (hmem e' he').2.1 (hmem e' he').2.2
  have hcases : ∀ k y, t.session k = some y →
      k = j ∧ y.note.rows = rows ∨ k ≠ j ∧ s.session k = some y := by
    intro k y hy
    rcases hw.after k y hy with ⟨hk, hy⟩ | hy
    · rw [hy]
      exact Or.inl ⟨hk, rfl⟩
    · exact Or.inr hy
  refine ⟨fun k y hy => ?_, fun k y hy e he => ?_, fun k k' y y' hy hy' hne e he e' he' => ?_⟩
  · rcases hcases k y hy with ⟨-, hy⟩ | ⟨-, hy⟩
    · rw [hy]
      exact honce
    · exact hs.once k y hy
  · rw [hdb]
    rcases hcases k y hy with ⟨-, hy⟩ | ⟨-, hy⟩
    · exact hfree e (hy ▸ he)
    · exact hs.free k y hy e he
  · rcases hcases k y hy with ⟨hk, hy⟩ | ⟨hk, hy⟩ <;>
      rcases hcases k' y' hy' with ⟨hk', hy'⟩ | ⟨hk', hy'⟩
    · exact absurd (hk.trans hk'.symm) hne
    · exact hothers k' y' hk' hy' e' he' e (hy ▸ he)
    · exact (hothers k y hk hy e he e' (hy' ▸ he')).symm
    · exact hs.apart k k' y y' hy hy' hne e he e' he'

/-- A committed file takes its rows away from its job, and no other job holds them. -/
theorem separate_commit {a : Unit} (hs : Separate s) (hkept : Orderly sha256 s₀ s)
    (hw : Went sha256 s t j x .commit a ws) : Separate t := by
  obtain ⟨i, hi, hshared⟩ := commit_settles hw.allow (hkept.each j x hw.session) hw.act
  refine separate_holds hs (fun k y hy _ => ?_) fun k y hy e he hlink => ?_
  · rcases hw.after k y hy with ⟨rfl, hy⟩ | ⟨-, hy⟩
    · rw [hy]
      exact ⟨x, hw.session, List.drop_suffix _ _⟩
    · exact ⟨y, hy, List.suffix_rfl⟩
  · rw [hshared]
    refine unlinked_settle.mpr ⟨hlink, fun hmem => ?_⟩
    obtain ⟨e₀, he₀, heq⟩ := List.mem_map.mp hmem
    rcases hw.after k y hy with ⟨rfl, hy⟩ | ⟨hk, hy⟩
    · rw [hy] at he
      have honce := hs.once _ _ hw.session
      rw [← List.take_append_drop maxTrxPerFile x.note.rows, List.map_append] at honce
      exact (List.nodup_append.mp honce).2.2 _ (List.mem_map_of_mem he₀) _
        (List.mem_map_of_mem he) heq
    · exact hs.apart j k x y hw.session hy hk.symm e₀ (List.mem_of_mem_take he₀) e he heq

/-- The rows of a job change when it fetches and when it commits. -/
theorem next_rows {g : Note} {o : JobOp} {a : o.Ans} (hcommit : o ≠ .commit)
    (hunsettled : ∀ r, o ≠ .unsettled r) :
    ((protocol sha256).next g o a).rows = g.rows := by
  cases o with
  | commit => exact absurd rfl hcommit
  | unsettled r => exact absurd rfl (hunsettled r)
  | _ => rfl

theorem separate_step [DecidableEq ι] (h : Step (jobs sha256) s l t)
    (hkeep : InProtocol (jobs sha256) s) (hkept : Orderly sha256 s₀ s) (hunshared : Unshared s l)
    (hs : Separate s) : Separate t := by
  cases move_of_step h hkeep with
  | idle hshared _ hafter =>
    refine separate_holds hs (fun k y hy hne => ?_) fun k y _ e _ hlink => hshared ▸ hlink
    rcases hafter k y hy with hy | hy
    · exact ⟨y, hy, List.suffix_rfl⟩
    · exact absurd (congrArg Note.rows hy) hne
  | outside ho _ hsession =>
    obtain ⟨new, hnew⟩ := ho.rows
    refine separate_holds hs (fun k y hy _ => ⟨y, hsession ▸ hy, List.suffix_rfl⟩)
      fun k y _ e _ hlink => ?_
    rw [hnew]
    exact List.mem_append_left _ hlink
  | failed hf =>
    refine separate_holds hs (fun k y hy _ => ⟨y, (hf.after k y hy).2, List.suffix_rfl⟩)
      fun k y _ e _ hlink => ?_
    rw [hf.fails.db]
    exact hlink
  | @went t j x o a ws hw =>
    by_cases hcommit : o = .commit
    · subst hcommit
      exact separate_commit hs hkept hw
    · by_cases hunsettled : ∃ r, o = .unsettled r
      · obtain ⟨r, rfl⟩ := hunsettled
        exact separate_unsettled hs hkept hunshared hw
      · refine separate_holds hs (fun k y hy _ => ?_) fun k y _ e _ hlink => ?_
        · rcases hw.after k y hy with ⟨rfl, hy⟩ | ⟨-, hy⟩
          · rw [hy, next_rows hcommit fun r hr => hunsettled ⟨r, hr⟩]
            exact ⟨x, hw.session, List.suffix_rfl⟩
          · exact ⟨y, hy, List.suffix_rfl⟩
        · rw [hw.act.db hcommit]
          exact hlink

/-- The record of a file is drawn up from its rows. -/
theorem draft_proper {g : Note} {i : Id} (h : InOrder sha256 ws g) (hi : g.record = some i) :
    (g.draft.batch sha256 i).Proper sha256 := by
  have hrows := h.rows (h.written (by rw [hi]; exact Option.some_ne_none i))
  have hlength : (g.draft.batch sha256 i).rows.length = min maxTrxPerFile g.rows.length :=
    List.length_take
  refine ⟨⟨?_, ?_⟩, fun e he => h.readers e (List.mem_of_mem_take he), rfl, rfl, rfl⟩
  · rw [hlength]
    exact le_min (by decide) (List.length_pos_of_ne_nil hrows)
  · rw [hlength]
    exact min_le_left _ _

theorem settled_same (hs : Settled sha256 s) (hlog : batches sha256 t.log = batches sha256 s.log)
    (hdb : t.shared.world.db = s.shared.world.db) : Settled sha256 t :=
  ⟨hlog ▸ hs.proper, hlog ▸ hs.once, by rw [hlog, hdb]; exact hs.linked, hdb ▸ hs.tallied⟩

theorem settled_commit {a : Unit} (hsep : Separate s) (hkept : Orderly sha256 s₀ s)
    (hw : Went sha256 s t j x .commit a ws) (hs : Settled sha256 s) : Settled sha256 t := by
  have horder := hkept.each j x hw.session
  obtain ⟨i, hi, hshared⟩ := commit_settles hw.allow horder hw.act
  generalize hb : x.note.draft.batch sha256 i = b at hshared
  have hdb : t.shared.world.db = s.shared.world.db.settle b := by rw [hshared]
  have hlog : batches sha256 t.log = batches sha256 s.log ++ [b] := by
    rw [hw.log, batches_commit hi, hb]
  have hids : b.ids = x.note.draft.ids := by rw [← hb]; rfl
  have hrecord : b.record.id = i := by rw [← hb]; rfl
  have hnew := hkept.new j x hw.session i hi
  have hfree : ∀ k ∈ b.ids, (k, none) ∈ s.shared.world.db.links := by
    intro k hk
    rw [hids] at hk
    obtain ⟨e, he, rfl⟩ := List.mem_map.mp hk
    exact hsep.free j x hw.session e (List.mem_of_mem_take he)
  have honce : b.ids.Nodup := by
    rw [hids]
    exact (hsep.once j x hw.session).sublist ((List.take_sublist _ _).map _)
  refine ⟨fun b' hb' => ?_, ?_, fun b' hb' k hk => ?_, fun r hr => ?_⟩
  · rw [hlog] at hb'
    rcases List.mem_append.mp hb' with hb' | hb'
    · exact hs.proper b' hb'
    · rw [List.mem_singleton.mp hb', ← hb]
      exact draft_proper horder hi
  · rw [hlog, List.flatMap_append, List.flatMap_singleton]
    refine List.nodup_append.mpr ⟨hs.once, honce, fun k hk k' hk' heq => ?_⟩
    obtain ⟨b', hb', hk⟩ := List.mem_flatMap.mp hk
    obtain ⟨r, hr⟩ := hs.linked b' hb' k hk
    cases link_unique hkept.stored.ids hr (hfree k (heq ▸ hk')) rfl
  · rw [hdb]
    rw [hlog] at hb'
    refine linked_settle ?_
    rcases List.mem_append.mp hb' with hb' | hb'
    · exact Or.inl (hs.linked b' hb' k hk)
    · rw [List.mem_singleton.mp hb'] at hk
      exact Or.inr ⟨hfree k hk, hk⟩
  · rw [hdb] at hr ⊢
    rcases List.mem_append.mp hr with hr | hr
    · have hne : b.record.id ≠ r.id := by
        rw [hrecord]
        exact fun heq => hnew (heq ▸ List.mem_map_of_mem hr)
      rw [linkedTo_settle_of_ne hkept.stored.ids hfree hne]
      exact hs.tallied r hr
    · have hunlinked : ∀ y ∈ s.shared.world.db.links, y.2 ≠ some b.record.id := by
        intro y hy hlink
        obtain ⟨e, he, rfl⟩ := List.mem_map.mp hy
        rw [hrecord] at hlink
        exact hnew (hkept.stored.refers e he i hlink)
      rw [List.mem_singleton.mp hr, linkedTo_settle_self hkept.stored.ids hfree hunlinked honce,
        Batch.ids, List.length_map, ← hb]
      rfl

theorem outside_linkedTo {s s' : State} (h : Outside s s') (i : Id) :
    s'.world.db.linkedTo i = s.world.db.linkedTo i := by
  obtain ⟨new, hnew⟩ := h.rows
  have hnone : (new.map fun i => ((i, none) : Id × Option Id)).countP
      (fun x => decide (x.2 = some i)) = 0 := by
    refine List.countP_eq_zero.mpr fun x hx => ?_
    obtain ⟨k, -, rfl⟩ := List.mem_map.mp hx
    simp
  rw [linkedTo_links, linkedTo_links, hnew, List.countP_append, hnone, Nat.add_zero]

theorem settled_outside (hs : Settled sha256 s) (ho : Outside s.shared t.shared)
    (hlog : t.log = s.log) : Settled sha256 t := by
  obtain ⟨new, hnew⟩ := ho.rows
  refine ⟨hlog ▸ hs.proper, hlog ▸ hs.once, fun b hb k hk => ?_, fun r hr => ?_⟩
  · obtain ⟨r, hr⟩ := hs.linked b (hlog ▸ hb) k hk
    rw [hnew]
    exact ⟨r, List.mem_append_left _ hr⟩
  · have hsealed : r.sealed ∈ s.shared.world.db.settlements.map EmoneySettlement.sealed := by
      rw [← ho.settlements]
      exact List.mem_map_of_mem hr
    obtain ⟨r₀, hr₀, heq⟩ := List.mem_map.mp hsealed
    have hid : r₀.sealed.id = r.sealed.id := by rw [heq]
    have htotal : r₀.sealed.totalTransactions = r.sealed.totalTransactions := by rw [heq]
    change r₀.id = r.id at hid
    change r₀.totalTransactions = r.totalTransactions at htotal
    rw [outside_linkedTo ho, ← htotal, ← hid]
    exact hs.tallied r₀ hr₀

theorem settled_step [DecidableEq ι] (h : Step (jobs sha256) s l t)
    (hkeep : InProtocol (jobs sha256) s) (hkept : Orderly sha256 s₀ s) (hsep : Separate s)
    (hs : Settled sha256 s) : Settled sha256 t := by
  cases move_of_step h hkeep with
  | idle hshared hlog _ => exact settled_same hs (by rw [hlog]) (by rw [hshared])
  | outside ho hlog _ => exact settled_outside hs ho hlog
  | failed hf => exact settled_same hs (by rw [hf.log, batches_failed]) hf.fails.db
  | @went t j x o a ws hw =>
    by_cases hcommit : o = .commit
    · subst hcommit
      exact settled_commit hsep hkept hw hs
    · exact settled_same hs (by rw [hw.log, batches_entries hcommit]) (hw.act.db hcommit)

/-- What holds in every state of a run whose fetches are not shared. -/
structure Apart (sha256 : String → String) (s₀ : State) (s : JobSys ι) : Prop where
  inProtocol : InProtocol (jobs sha256) s
  orderly : Orderly sha256 s₀ s
  separate : Separate s
  settled : Settled sha256 s

theorem apart_step [DecidableEq ι] (h : Step (jobs sha256) s l t ∧ Unshared s l)
    (hs : Apart sha256 s₀ s) : Apart sha256 s₀ t :=
  ⟨inProtocol_jobs h.1 hs.inProtocol, orderly_step h.1 hs.inProtocol hs.orderly,
    separate_step h.1 hs.inProtocol hs.orderly h.2 hs.separate,
    settled_step h.1 hs.inProtocol hs.orderly hs.separate hs.settled⟩

theorem quiet_apart (h : s.Quiet) (hstored : Stored s.shared)
    (htallied : s.shared.world.db.Tallied) : Apart sha256 s.shared s := by
  have hnone : ∀ {j x}, s.session j ≠ some x := fun hj => by simp [h.1] at hj
  have hlog : batches sha256 s.log = [] := by rw [h.2]; rfl
  refine ⟨h.inProtocol, quiet_orderly h hstored, ⟨fun _ _ hj => absurd hj hnone,
    fun _ _ hj => absurd hj hnone, fun _ _ _ _ hj => absurd hj hnone⟩, ?_⟩
  refine ⟨?_, ?_, ?_, htallied⟩ <;> rw [hlog]
  · exact fun b hb => absurd hb List.not_mem_nil
  · exact List.nodup_nil
  · exact fun b hb => absurd hb List.not_mem_nil

/-- In every run in which no job fetches rows that another one holds, no row gets into two files,
and every record counts the rows that are linked to it. -/
theorem settled_once [DecidableEq ι] {xs : List (Label ι JobOp × JobSys ι)} (hquiet : s.Quiet)
    (hstored : Stored s.shared) (htallied : s.shared.world.db.Tallied)
    (h : Path (fun s l t => Step (jobs sha256) s l t ∧ Unshared s l) s xs) :
    (∀ b ∈ batches sha256 (finish s xs).log, b.Proper sha256) ∧
      ((batches sha256 (finish s xs).log).flatMap Batch.ids).Nodup ∧
      (finish s xs).shared.world.db.settlements.map EmoneySettlement.sealed =
        (s.shared.world.db.settlements ++ (batches sha256 (finish s xs).log).map (·.record)).map
          EmoneySettlement.sealed ∧
      (finish s xs).shared.world.db.Tallied := by
  have hend := h.invariant (fun _ _ _ => apart_step) (quiet_apart hquiet hstored htallied)
  exact ⟨hend.settled.proper, hend.settled.once, hend.orderly.settlements, hend.settled.tallied⟩

end Overlap

section Night

theorem settled_once_night :
    (∀ b ∈ batches id (finish (night Unit) aloneRun).log, b.Proper id) ∧
      ((batches id (finish (night Unit) aloneRun).log).flatMap Batch.ids).Nodup ∧
      (finish (night Unit) aloneRun).shared.world.db.settlements.map EmoneySettlement.sealed =
        (nightDesk.world.db.settlements ++
          (batches id (finish (night Unit) aloneRun).log).map (·.record)).map
          EmoneySettlement.sealed ∧
      (finish (night Unit) aloneRun).shared.world.db.Tallied := by
  have hunshared : ∀ (s : JobSys Unit) l, Unshared s l := by
    intro s l
    unfold Unshared
    split
    · exact fun k x hk => absurd rfl hk
    · trivial
  exact settled_once ⟨fun _ => rfl, rfl⟩ night_stored (fun _ hr => absurd hr List.not_mem_nil)
    (alone_night_path.mono fun s l t h => ⟨h, hunshared s l⟩)

/-- The cron job and a manual run both fetch the rows before either of them commits. -/
def overlapTurns : List (JobTurn Bool) :=
  [JobTurn.job id false ⟨true⟩, JobTurn.job id true ⟨false⟩] ++
    List.replicate 7 (.go false) ++ List.replicate 5 (.go true) ++
    List.replicate 6 (.go false) ++ List.replicate 4 (.go true)

def overlapRun : List (Label Bool JobOp × JobSys Bool) :=
  takeTurns (jobs id) perform (night Bool) overlapTurns

theorem overlap_path : Path (Step (jobs id)) (night Bool) overlapRun := by
  refine perform_path (fun j p ws g h => ?_) fun f h => ?_
  · simp [overlapTurns, JobTurn.job] at h
    rcases h with ⟨-, rfl, rfl, rfl⟩ | ⟨-, rfl, rfl, rfl⟩ <;> exact ⟨⟨_, rfl⟩, rfl, rfl⟩
  · simp [overlapTurns, JobTurn.job] at h

/-- Both rows get into the files of two records, and the first record has lost its rows. -/
theorem overlap_settles_twice :
    Path (Step (jobs id)) (night Bool) overlapRun ∧
      ¬ ((batches id (finish (night Bool) overlapRun).log).flatMap Batch.ids).Nodup ∧
      ∃ r ∈ (finish (night Bool) overlapRun).shared.world.db.settlements,
        r.totalTransactions = 2 ∧
          (finish (night Bool) overlapRun).shared.world.db.linkedTo r.id = 0 :=
  ⟨overlap_path, by decide, by decide⟩

end Night
end Settlement
end ParkIt
