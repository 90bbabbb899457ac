import ParkIt.Settlement.Batch

/-! A settlement run that is alone partitions the rows that it finds due. -/
namespace ParkIt.Settlement

open Effects Chunks

/-- Between two files nothing of the session is uncommitted. -/
def Conn.Ready (c : Conn) : Prop := c.state.world.db = c.saved

/-- What a part of a run commits: files for rows that were due, each row in one of them. -/
structure Grown (sha256 : String → String) (c c' : Conn) (bs : List Batch) : Prop where
  saved : c'.saved = c.saved.settleAll bs
  order : c'.state.order = c.state.order
  next : c.state.nextSettlement ≤ c'.state.nextSettlement
  fresh : ∀ b ∈ bs, c.state.nextSettlement ≤ b.record.id ∧
    b.record.id < c'.state.nextSettlement
  distinct : (bs.map (·.record.id)).Nodup
  proper : ∀ b ∈ bs, b.Proper sha256
  taken : ∀ b ∈ bs, ∀ e ∈ b.rows, e ∈ c.saved.emoney ∧ c.saved.Due e
  once : (bs.flatMap Batch.ids).Nodup

/-- The unsettled rows of a reader by creation, ties as they are fetched. -/
def Conn.queue (c : Conn) (r : Id) : List EmoneyTransaction :=
  sortByCreation (c.state.scan
    (c.saved.emoney.filter fun e => decide (e.Unsettled ∧ e.emoneyReaderId = some r)))

/-- Nothing is settled for a reader without MID or TID. -/
def Conn.dueQueue (c : Conn) (r : Id) : List EmoneyTransaction :=
  if c.saved.names r = none then [] else c.queue r

/-- The sequence and the tables are left alone. -/
structure Steady (c c' : Conn) : Prop where
  db : c'.state.world.db = c.state.world.db
  saved : c'.saved = c.saved
  order : c'.state.order = c.state.order
  next : c'.state.nextSettlement = c.state.nextSettlement

/-- Reads, locks, counters, files and jobs. -/
def Aside : JobOp → Prop
  | .insertSettlement _ | .link _ _ | .commit => False
  | _ => True

/-- And no jobs. -/
def Plain : JobOp → Prop
  | .insertSettlement _ | .link _ _ | .commit | .enqueueUpload _ => False
  | _ => True

section Aside
variable {c c' c'' : Conn} {ctx : Ctx}

theorem Steady.refl (c : Conn) : Steady c c := ⟨rfl, rfl, rfl, rfl⟩

theorem Steady.trans (h : Steady c c') (h' : Steady c' c'') : Steady c c'' :=
  ⟨h'.db.trans h.db, h'.saved.trans h.saved, h'.order.trans h.order, h'.next.trans h.next⟩

theorem steady_exec (o : JobOp) (c : Conn) (ho : Aside o) : Steady c (exec o c).2 := by
  cases o with
  | insertSettlement _ | link _ _ | commit => exact ho.elim
  | setLock _ | writeFile _ _ =>
    simp only [exec]
    split
    · exact ⟨rfl, rfl, rfl, rfl⟩
    · split <;> exact ⟨rfl, rfl, rfl, rfl⟩
  | makedirs | incrBatch _ | expireBatch _ | enqueueUpload _ =>
    simp only [exec]
    split <;> exact ⟨rfl, rfl, rfl, rfl⟩
  | now | unsettledReaders | reader _ | unsettled _ => exact ⟨rfl, rfl, rfl, rfl⟩

theorem ensures_aside {α : Type} {raises : JobExc → Prop} {p : Job α} (h : Only Aside raises p) :
    Prog.Ensures exec p c (fun _ c' => Steady c c') fun _ c' => Steady c c' :=
  h.ensures Steady.refl (fun _ _ _ h h' => h.trans h') steady_exec c

theorem plain_lease (ctx : Ctx) : Only Plain (fun _ => False) (lease ctx) := by
  unfold lease
  split
  · exact (only_perform trivial).bind fun _ => (only_perform trivial).bind fun _ => only_pure
  · exact only_pure

theorem plain_nextBatchNumber (ctx : Ctx) (r : Id) (date : String) :
    Only Plain (fun _ => False) (nextBatchNumber ctx r date) := by
  unfold nextBatchNumber
  split
  · refine (only_perform trivial).bind fun n => ?_
    cases n with
    | none => exact only_pure
    | some n =>
      dsimp only
      split
      · exact (only_perform trivial).bind fun _ => only_pure
      · exact only_pure
  · exact only_pure

theorem plain_writeFile (path content : String) :
    Only Plain (fun _ => False) (ask (.writeFile path content)) := only_perform trivial

theorem aside_of_plain {α : Type} {raises : JobExc → Prop} {p : Job α} (h : Only Plain raises p) :
    Only Aside raises p :=
  h.mono (fun o ho => by cases o <;> trivial) fun _ he => he

theorem ensures_orValueError {α : Type} {r : Except String α} {ok : α → Conn → Prop}
    {err : JobExc → Conn → Prop} :
    Prog.Ensures exec (orValueError r) c ok err ↔
      match r with
      | .ok a => ok a c
      | .error msg => err (.value msg) c := by
  cases r <;> rfl

end Aside

section Grown
variable {sha256 : String → String} {c c' c'' : Conn} {bs bs' : List Batch} {r : Id}

theorem grown_nil (hsaved : c'.saved = c.saved) (horder : c'.state.order = c.state.order)
    (hnext : c.state.nextSettlement ≤ c'.state.nextSettlement) : Grown sha256 c c' [] := by
  refine ⟨hsaved, horder, hnext, ?_, List.nodup_nil, ?_, ?_, List.nodup_nil⟩ <;>
    exact fun b hb => absurd hb List.not_mem_nil

theorem Steady.grown (h : Steady c c') : Grown sha256 c c' [] :=
  grown_nil h.saved h.order h.next.ge

theorem Steady.ready (h : Steady c c') (hc : c.Ready) : c'.Ready :=
  h.db.trans (hc.trans h.saved.symm)

theorem Grown.trans (h : Grown sha256 c c' bs) (h' : Grown sha256 c' c'' bs') :
    Grown sha256 c c'' (bs ++ bs') := by
  have htaken : ∀ b ∈ bs', ∀ e ∈ b.rows,
      (e ∈ c.saved.emoney ∧ c.saved.Due e) ∧ ∀ b₀ ∈ bs, e.id ∉ b₀.ids := by
    intro b hb e he
    obtain ⟨hmem, hdue⟩ := h'.taken b hb e he
    rw [h.saved] at hmem hdue
    obtain ⟨hold, hfree⟩ := unlinked_settleAll hmem hdue.1.1
    exact ⟨⟨hold, (settleAll_due _ _ _).mp hdue⟩, hfree⟩
  refine ⟨?_, h'.order.trans h.order, h.next.trans h'.next, ?_, ?_, ?_, ?_, ?_⟩
  · rw [h'.saved, h.saved, settleAll_append]
  · intro b hb
    rcases List.mem_append.mp hb with hb | hb
    · exact ⟨(h.fresh b hb).1, lt_of_lt_of_le (h.fresh b hb).2 h'.next⟩
    · exact ⟨h.next.trans (h'.fresh b hb).1, (h'.fresh b hb).2⟩
  · rw [List.map_append]
    refine List.Nodup.append h.distinct h'.distinct fun i hi hi' => ?_
    obtain ⟨b, hb, rfl⟩ := List.mem_map.mp hi
    obtain ⟨b', hb', heq⟩ := List.mem_map.mp hi'
    have hlow := (h.fresh b hb).2
    have hhigh := (h'.fresh b' hb').1
    rw [heq] at hhigh
    exact absurd hlow (not_lt.mpr hhigh)
  · intro b hb
    rcases List.mem_append.mp hb with hb | hb
    · exact h.proper b hb
    · exact h'.proper b hb
  · intro b hb e he
    rcases List.mem_append.mp hb with hb | hb
    · exact h.taken b hb e he
    · exact (htaken b hb e he).1
  · rw [List.flatMap_append]
    refine List.Nodup.append h.once h'.once fun i hi hi' => ?_
    obtain ⟨b, hb, hib⟩ := List.mem_flatMap.mp hi
    obtain ⟨b', hb', hib'⟩ := List.mem_flatMap.mp hi'
    obtain ⟨e, he, rfl⟩ := List.mem_map.mp hib'
    exact (htaken b' hb' e he).2 b hb hib

theorem filter_map_of_same {α : Type} {p : α → Bool} {f : α → α} {l : List α}
    (h : ∀ a ∈ l, f a = a ∨ (p a = false ∧ p (f a) = false)) :
    (l.map f).filter p = l.filter p := by
  induction l with
  | nil => rfl
  | cons a l ih =>
    have htail := ih fun b hb => h b (List.mem_cons_of_mem _ hb)
    rw [List.map_cons]
    rcases h a List.mem_cons_self with heq | ⟨hp, hf⟩
    · rw [heq, List.filter_cons, List.filter_cons, htail]
    · rw [List.filter_cons_of_neg (by simp [hf]), List.filter_cons_of_neg (by simp [hp]), htail]

/-- Files of other readers leave the queue of a reader as it is. -/
theorem Grown.dueQueue (h : Grown sha256 c c' bs) (hids : (c.saved.emoney.map (·.id)).Nodup)
    (hother : ∀ b ∈ bs, b.readerId ≠ r) : c'.dueQueue r = c.dueQueue r := by
  have hfilter : c'.saved.emoney.filter
        (fun e => decide (e.Unsettled ∧ e.emoneyReaderId = some r)) =
      c.saved.emoney.filter fun e => decide (e.Unsettled ∧ e.emoneyReaderId = some r) := by
    rw [h.saved, settleAll_emoney]
    refine filter_map_of_same fun e he => ?_
    rcases linkAll_cases bs e with heq | ⟨b, hb, hid, heq⟩
    · exact Or.inl heq
    · obtain ⟨e₀, he₀, hsame⟩ := List.mem_map.mp hid
      have hrow : e₀ = e := List.inj_on_of_nodup_map hids (h.taken b hb e₀ he₀).1 he hsame
      have hreader : e.emoneyReaderId ≠ some r := by
        rw [← hrow, (h.proper b hb).reader e₀ he₀]
        exact fun hr => hother b hb (Option.some.inj hr)
      refine Or.inr ⟨decide_eq_false fun hc => hreader hc.2, ?_⟩
      rw [heq]
      exact decide_eq_false fun hc => hreader hc.2
  unfold Conn.dueQueue Conn.queue State.scan
  rw [hfilter, h.order, h.saved, settleAll_names]

end Grown

section Job
variable {sha256 : String → String} {ctx : Ctx} {now : DateTime} {c : Conn} {r : Id}
  {mid tid : String}

/-- The record gets the next id of the sequence, which is used up in any case. -/
theorem insertSettlement_spec (row : EmoneySettlement) :
    Prog.Ensures exec (ask (.insertSettlement row)) c
      (fun i c' => i = c.state.nextSettlement ∧ c'.saved = c.saved ∧
        c'.state.order = c.state.order ∧ c'.state.nextSettlement = i + 1 ∧
        c'.state.world.db = { c.state.world.db with
          settlements := c.state.world.db.settlements ++ [{ row with id := i }] })
      fun _ c' => c'.saved = c.saved ∧ c'.state.order = c.state.order ∧
        c'.state.nextSettlement = c.state.nextSettlement + 1 := by
  rw [ensures_ask]
  simp only [exec]
  by_cases hrow : EmoneySettlement.accepted { row with id := c.state.nextSettlement } = true
  · rw [if_pos hrow]
    exact ⟨rfl, rfl, rfl, rfl, rfl⟩
  · rw [if_neg hrow]
    exact ⟨rfl, rfl, rfl⟩

/-- A failure of the queue is swallowed. -/
theorem enqueueUpload_spec (i : Id) :
    Prog.Ensures exec (enqueueUpload ctx i) c (fun _ c' => Steady c c') fun _ _ => False := by
  unfold enqueueUpload
  split
  · rw [ensures_ask]
    exact steady_exec (.enqueueUpload i) c trivial
  · exact Steady.refl c

/-- The record of a file, before it has an id. -/
def recordOf (sha256 : String → String) (now : DateTime) (mid tid : String) (batchNumber : Nat)
    (chunk : List EmoneyTransaction) (content : String) : EmoneySettlement :=
  let filename := generateFilename now.localTime mid tid batchNumber
  { id := 0, filename, filePath := settlementDir ++ "/" ++ filename, batchDate := now.date,
    batchNumber, totalTransactions := chunk.length,
    totalAmount := (chunk.map (·.amountDeducted)).sum, status := "GENERATED",
    fileContentHash := sha256 content }

theorem settleChunk_eq (chunk : List EmoneyTransaction) :
    settleChunk sha256 ctx now r mid tid chunk = (do
      let batchNumber ← nextBatchNumber ctx r (isoDate now.localTime)
      let content ← orValueError
        (buildSettlementContent (chunk.map (·.settlementPayloadHex.getD ""))
          (chunk.map (·.amountDeducted)).sum)
      let record := recordOf sha256 now mid tid batchNumber chunk content
      ask (.writeFile record.filePath content)
      let settlement ← ask (.insertSettlement record)
      ask (.link (chunk.map (·.id)) settlement)
      ask .commit
      enqueueUpload ctx settlement) := rfl

/-- The next id of the sequence, with rows that were due. -/
theorem grown_file {c' : Conn} {b : Batch} (hb : b.Proper sha256)
    (hdue : ∀ e ∈ b.rows, e ∈ c.saved.emoney ∧ c.saved.Due e) (honce : b.ids.Nodup)
    (hid : b.record.id = c.state.nextSettlement) (hsaved : c'.saved = c.saved.settle b)
    (horder : c'.state.order = c.state.order)
    (hnext : c'.state.nextSettlement = b.record.id + 1) : Grown sha256 c c' [b] := by
  have hlt : b.record.id < c'.state.nextSettlement := hnext ▸ Int.lt_succ _
  refine ⟨hsaved, horder, hid ▸ hlt.le, ?_, List.nodup_singleton _, ?_, ?_, ?_⟩
  · intro b' hb'
    rw [List.mem_singleton.mp hb']
    exact ⟨hid.ge, hlt⟩
  · intro b' hb'
    rw [List.mem_singleton.mp hb']
    exact hb
  · intro b' hb'
    rw [List.mem_singleton.mp hb']
    exact hdue
  · rw [List.flatMap_singleton]
    exact honce

/-- One file: its rows are linked to one new record that agrees with them. -/
theorem settleChunk_grown (hc : c.Ready) {chunk : List EmoneyTransaction}
    (hsize : 1 ≤ chunk.length ∧ chunk.length ≤ maxTrxPerFile)
    (hdue : ∀ e ∈ chunk, (e ∈ c.saved.emoney ∧ c.saved.Due e) ∧ e.emoneyReaderId = some r)
    (honce : (chunk.map (·.id)).Nodup) :
    Prog.Ensures exec (settleChunk sha256 ctx now r mid tid chunk) c
      (fun _ c' => c'.Ready ∧ ∃ b, b.readerId = r ∧ b.rows = chunk ∧ Grown sha256 c c' [b])
      fun _ c' => Grown sha256 c c' [] := by
  rw [settleChunk_eq]
  refine (ensures_aside (aside_of_plain (plain_nextBatchNumber ctx r _))).bind (fun _ _ h => h.grown)
    fun batchNumber c₁ h₁ => ?_
  rw [Prog.ensures_bind, ensures_orValueError]
  split
  case h_2 msg hbuild => exact h₁.grown
  case h_1 content hbuild =>
  obtain ⟨record, hrecord⟩ : ∃ record, record = recordOf sha256 now mid tid batchNumber chunk content :=
    ⟨_, rfl⟩
  dsimp only
  rw [← hrecord]
  refine (ensures_aside (aside_of_plain (plain_writeFile _ content))).bind
    (fun _ _ h => (h₁.trans h).grown)
    fun _ c₂ h₂ => ?_
  have hsteady := h₁.trans h₂
  refine (insertSettlement_spec record).bind ?_ ?_
  · rintro _ c₃ ⟨hsaved, horder, hnext⟩
    refine grown_nil (hsaved.trans hsteady.saved) (horder.trans hsteady.order) ?_
    rw [hnext, hsteady.next]
    exact (Int.lt_succ _).le
  · rintro i c₃ ⟨hi, hsaved, horder, hnext, hdb⟩
    rw [Prog.ensures_bind, ensures_ask]
    dsimp only [exec]
    rw [Prog.ensures_bind, ensures_ask]
    dsimp only [exec]
    obtain ⟨b, hb⟩ : ∃ b : Batch, b = ⟨r, chunk, { record with id := i }⟩ := ⟨_, rfl⟩
    have hproper : b.Proper sha256 := by
      rw [hb]
      refine ⟨hsize, fun e he => (hdue e he).2, ?_, ?_, ?_⟩
      · rw [hrecord]
        rfl
      · rw [hrecord]
        rfl
      · rw [hrecord, buildSettlementContent_ok hbuild, List.length_map, List.map_map]
        rfl
    refine (enqueueUpload_spec i).mono (fun _ c₄ h₄ => ?_) fun _ _ hf => hf.elim
    refine ⟨h₄.db.trans h₄.saved.symm, b, congrArg Batch.readerId hb, congrArg Batch.rows hb,
      grown_file hproper ?_ ?_ ?_ ?_ (h₄.order.trans (horder.trans hsteady.order)) ?_⟩
    · rw [hb]
      exact fun e he => (hdue e he).1
    · rw [hb]
      exact honce
    · rw [hb]
      exact hi.trans hsteady.next
    · rw [h₄.saved, hdb, hsteady.db, hc, hb]
      rfl
    · rw [hb]
      exact h₄.next.trans hnext

/-- What the job counts. -/
def tally (done : Nat × Nat) (bs : List Batch) : Nat × Nat :=
  (done.1 + bs.length, done.2 + (bs.map (·.rows.length)).sum)

theorem tally_append (done : Nat × Nat) (bs bs' : List Batch) :
    tally (tally done bs) bs' = tally done (bs ++ bs') := by
  simp only [tally, List.length_append, List.map_append, List.sum_append, Nat.add_assoc]

/-- The chunks of one reader, in their order. -/
theorem settleChunks_grown (hc : c.Ready) {chunks : List (List EmoneyTransaction)}
    (hsize : ∀ chunk ∈ chunks, 1 ≤ chunk.length ∧ chunk.length ≤ maxTrxPerFile)
    (hdue : ∀ e ∈ chunks.flatten, (e ∈ c.saved.emoney ∧ c.saved.Due e) ∧
      e.emoneyReaderId = some r)
    (honce : (chunks.flatten.map (·.id)).Nodup) (done : Nat × Nat) :
    Prog.Ensures exec (settleChunks sha256 ctx now r mid tid chunks done) c
      (fun done' c' => c'.Ready ∧ ∃ bs, (∀ b ∈ bs, b.readerId = r) ∧ bs.map (·.rows) = chunks ∧
        Grown sha256 c c' bs ∧ done' = tally done bs)
      fun _ c' => ∃ bs, (∀ b ∈ bs, b.readerId = r) ∧ Grown sha256 c c' bs := by
  induction chunks generalizing c done with
  | nil => exact ⟨hc, [], fun b hb => absurd hb List.not_mem_nil, rfl, (Steady.refl c).grown, rfl⟩
  | cons chunk chunks ih =>
    rw [List.flatten_cons, List.map_append] at honce
    obtain ⟨hhead, htail, hdisj⟩ := List.nodup_append.mp honce
    refine (settleChunk_grown hc (hsize chunk List.mem_cons_self)
      (fun e he => hdue e (List.mem_append_left _ he)) hhead).bind (fun _ _ h => ⟨[], fun _ hb => absurd hb List.not_mem_nil, h⟩) ?_
    rintro - c₁ ⟨hc₁, b, hbr, hbrows, hb⟩
    have hdue₁ : ∀ e ∈ chunks.flatten, (e ∈ c₁.saved.emoney ∧ c₁.saved.Due e) ∧
        e.emoneyReaderId = some r := by
      intro e he
      obtain ⟨⟨hmem, hd⟩, hr⟩ := hdue e (List.mem_append_right _ he)
      rw [hb.saved]
      refine ⟨⟨mem_settleAll hmem fun b' hb' hid => ?_, (settleAll_due _ _ _).mpr hd⟩, hr⟩
      rw [List.mem_singleton.mp hb', Batch.ids, hbrows] at hid
      exact hdisj _ hid _ (List.mem_map_of_mem he) rfl
    have hrest := ih hc₁ (fun ys hys => hsize ys (List.mem_cons_of_mem _ hys)) hdue₁ htail
      (done.1 + 1, done.2 + chunk.length)
    have hreader : ∀ {bs}, (∀ b ∈ bs, b.readerId = r) → ∀ b' ∈ b :: bs, b'.readerId = r := by
      intro bs hbsr b' hb'
      rcases List.mem_cons.mp hb' with rfl | hb'
      · exact hbr
      · exact hbsr b' hb'
    refine hrest.mono ?_ ?_
    · rintro done' c₂ ⟨hc₂, bs, hbsr, hbs, hgrown, hdone⟩
      refine ⟨hc₂, b :: bs, hreader hbsr, ?_, hb.trans hgrown, ?_⟩
      · rw [List.map_cons, hbrows, hbs]
      · have hone : (done.1 + 1, done.2 + chunk.length) = tally done [b] := by
          simp [tally, hbrows]
        rw [hdone, hone, tally_append]
        rfl
    · rintro _ c₂ ⟨bs, hbsr, hgrown⟩
      exact ⟨b :: bs, hreader hbsr, hb.trans hgrown⟩

theorem find_key {α : Type} {key : α → Id} {rows : List α} (hkeys : (rows.map key).Nodup) {e : α}
    (he : e ∈ rows) : (rows.find? fun x => decide (key x = key e)) = some e := by
  rcases hf : rows.find? fun x => decide (key x = key e) with _ | x
  · exact absurd (List.find?_eq_none.mp hf e he) (by simp)
  · have hid : key x = key e := by simpa using List.find?_some hf
    rw [List.inj_on_of_nodup_map hkeys (List.mem_of_find?_eq_some hf) he hid]

/-- Rows that are looked up by their keys, in any order. -/
theorem find_perm {α : Type} {key : α → Id} {ids : List Id} {rows : List α}
    (hids : ids.Perm (rows.map key)) (hkeys : (rows.map key).Nodup) :
    (ids.filterMap fun i => rows.find? fun e => decide (key e = i)).Perm rows := by
  have hself : (rows.map key).filterMap (fun i => rows.find? fun e => decide (key e = i)) =
      rows := by
    rw [List.filterMap_map]
    exact (List.filterMap_congr fun e he => find_key hkeys he).trans List.filterMap_some
  exact (hids.filterMap _).trans (List.Perm.of_eq hself)

/-- The database returns each row of a query once. -/
theorem scan_perm (s : State) {rows : List EmoneyTransaction} (hids : (rows.map (·.id)).Nodup) :
    (s.scan rows).Perm rows := find_perm (s.order_perm _) hids

theorem queue_perm (hids : (c.saved.emoney.map (·.id)).Nodup) :
    (c.queue r).Perm
      (c.saved.emoney.filter fun e => decide (e.Unsettled ∧ e.emoneyReaderId = some r)) :=
  (List.perm_insertionSort _ _).trans
    (scan_perm c.state (hids.sublist (List.filter_sublist.map _)))

theorem mem_queue (hids : (c.saved.emoney.map (·.id)).Nodup) {e : EmoneyTransaction} :
    e ∈ c.queue r ↔ e ∈ c.saved.emoney ∧ e.Unsettled ∧ e.emoneyReaderId = some r := by
  rw [(queue_perm hids).mem_iff, List.mem_filter, decide_eq_true_iff]

theorem queue_once (hids : (c.saved.emoney.map (·.id)).Nodup) :
    ((c.queue r).map (·.id)).Nodup :=
  ((queue_perm hids).map _).nodup_iff.mpr (hids.sublist (List.filter_sublist.map _))

/-- All the rows of a reader that has MID and TID, in their order. -/
theorem settleReader_grown (hc : c.Ready) (hids : (c.saved.emoney.map (·.id)).Nodup)
    (done : Nat × Nat) :
    Prog.Ensures exec (settleReader sha256 ctx now r done) c
      (fun done' c' => c'.Ready ∧ ∃ bs, (∀ b ∈ bs, b.readerId = r) ∧
        bs.flatMap (·.rows) = c.dueQueue r ∧ Grown sha256 c c' bs ∧ done' = tally done bs)
      fun _ c' => ∃ bs, (∀ b ∈ bs, b.readerId = r) ∧ Grown sha256 c c' bs := by
  have hskip : c.saved.names r = none → c.Ready ∧ ∃ bs : List Batch, (∀ b ∈ bs, b.readerId = r) ∧
      bs.flatMap (·.rows) = c.dueQueue r ∧ Grown sha256 c c bs ∧ done = tally done bs := by
    intro hnone
    have hempty : c.dueQueue r = [] := if_pos hnone
    exact ⟨hc, [], fun b hb => absurd hb List.not_mem_nil, hempty.symm, (Steady.refl c).grown, rfl⟩
  unfold settleReader
  have hread : exec (.reader r) c =
      (.ok (c.saved.readers.find? fun x => decide (x.id = r)), c) := by
    rw [← hc]
    rfl
  rw [Prog.ensures_bind, ensures_ask, hread]
  dsimp only
  generalize hreader : (c.saved.readers.find? fun x => decide (x.id = r)) = found
  rcases found with _ | reader
  · refine hskip ?_
    rw [Db.names, hreader]
    rfl
  dsimp only
  generalize hmid : truthy reader.mid = mid
  rcases mid with _ | mid
  · refine hskip ?_
    rw [Db.names, hreader, Option.bind_some, hmid]
    rfl
  generalize htid : truthy reader.tid = tid
  rcases tid with _ | tid
  · refine hskip ?_
    rw [Db.names, hreader, Option.bind_some, hmid, Option.bind_some, htid]
    rfl
  have hnames : c.saved.names r = some (mid, tid) := by
    rw [Db.names, hreader, Option.bind_some, hmid, Option.bind_some, htid]
    rfl
  have hfetch : exec (.unsettled r) c = (.ok (c.queue r), c) := by
    unfold Conn.queue
    rw [← hc]
    rfl
  dsimp only
  rw [Prog.ensures_bind, ensures_ask, hfetch]
  have hflat : (chunksOf (c.queue r)).flatten = c.queue r := flatten_chunksBy (by decide) _
  have hdue : ∀ e ∈ (chunksOf (c.queue r)).flatten,
      (e ∈ c.saved.emoney ∧ c.saved.Due e) ∧ e.emoneyReaderId = some r := by
    rw [hflat]
    intro e he
    obtain ⟨hmem, hun, hr⟩ := (mem_queue hids).mp he
    exact ⟨⟨hmem, hun, r, hr, by rw [hnames]; exact Option.some_ne_none _⟩, hr⟩
  have hsize : ∀ ys ∈ chunksOf (c.queue r), 1 ≤ ys.length ∧ ys.length ≤ maxTrxPerFile :=
    fun ys hys => length_of_mem_chunksBy (by decide) hys
  have honce : ((chunksOf (c.queue r)).flatten.map (·.id)).Nodup := by
    rw [hflat]
    exact queue_once hids
  refine (settleChunks_grown hc hsize hdue honce done).mono ?_ fun _ _ h => h
  rintro done' c' ⟨hc', bs, hbsr, hbs, hgrown, hdone⟩
  refine ⟨hc', bs, hbsr, ?_, hgrown, hdone⟩
  have hqueue : c.dueQueue r = c.queue r := if_neg (by rw [hnames]; exact Option.some_ne_none _)
  rw [hqueue, ← hflat, ← hbs]
  rfl

/-- The files of each reader, whatever the order of the readers. -/
theorem settleReaders_grown {rs : List Id} (hrs : rs.Nodup) (hc : c.Ready)
    (hids : (c.saved.emoney.map (·.id)).Nodup) (done : Nat × Nat) :
    Prog.Ensures exec (settleReaders sha256 ctx now rs done) c
      (fun done' c' => ∃ bs, (∀ b ∈ bs, b.readerId ∈ rs) ∧
        (∀ r ∈ rs, (bs.filter (·.readerId = r)).flatMap (·.rows) = c.dueQueue r) ∧
        Grown sha256 c c' bs ∧ done' = tally done bs)
      fun _ c' => ∃ bs, Grown sha256 c c' bs := by
  induction rs generalizing c done with
  | nil =>
    refine ⟨[], fun b hb => absurd hb List.not_mem_nil, fun r hr => absurd hr List.not_mem_nil,
      (Steady.refl c).grown, rfl⟩
  | cons r rs ih =>
    obtain ⟨hr, hrs⟩ := List.nodup_cons.mp hrs
    refine (settleReader_grown hc hids done).bind (fun _ _ ⟨bs, _, h⟩ => ⟨bs, h⟩) ?_
    rintro done₁ c₁ ⟨hc₁, bs₁, hbs₁, hqueue, hgrown₁, rfl⟩
    have hids₁ : (c₁.saved.emoney.map (·.id)).Nodup := by
      rw [hgrown₁.saved, settleAll_ids]
      exact hids
    refine (ih hrs hc₁ hids₁ _).mono ?_ ?_
    · rintro done₂ c₂ ⟨bs₂, hbs₂, hqueues, hgrown₂, rfl⟩
      refine ⟨bs₁ ++ bs₂, ?_, ?_, hgrown₁.trans hgrown₂, tally_append _ _ _⟩
      · intro b hb
        rcases List.mem_append.mp hb with hb | hb
        · rw [hbs₁ b hb]
          exact List.mem_cons_self
        · exact List.mem_cons_of_mem _ (hbs₂ b hb)
      · intro r' hr'
        rw [List.filter_append, List.flatMap_append]
        rcases List.mem_cons.mp hr' with rfl | hr'
        · have hfirst : bs₁.filter (·.readerId = r') = bs₁ :=
            List.filter_eq_self.mpr fun b hb => decide_eq_true (hbs₁ b hb)
          have hsecond : bs₂.filter (·.readerId = r') = [] := by
            refine List.filter_eq_nil_iff.mpr fun b hb hb' => hr ?_
            rw [← of_decide_eq_true hb']
            exact hbs₂ b hb
          rw [hfirst, hsecond, hqueue, List.flatMap_nil, List.append_nil]
        · have hne : r ≠ r' := fun h => hr (h ▸ hr')
          have hfirst : bs₁.filter (·.readerId = r') = [] := by
            refine List.filter_eq_nil_iff.mpr fun b hb hb' => hne ?_
            rw [← of_decide_eq_true hb', hbs₁ b hb]
          rw [hfirst, List.flatMap_nil, List.nil_append, hqueues r' hr']
          exact hgrown₁.dueQueue hids fun b hb => by rw [hbs₁ b hb]; exact hne
    · rintro _ c₂ ⟨bs₂, hgrown₂⟩
      exact ⟨bs₁ ++ bs₂, hgrown₁.trans hgrown₂⟩

end Job

/-- The session of a job that starts in the state. -/
def State.session (s : State) : Conn := { state := s, saved := s.world.db }

/-- Linked to one of the files, or left alone. -/
def Linked (bs : List Batch) (e e' : EmoneyTransaction) : Prop :=
  (e' = e ∧ ∀ b ∈ bs, e ∉ b.rows) ∨
    ∃ b ∈ bs, e ∈ b.rows ∧ e' = { e with settlementBatchId := some b.record.id }

/-- The new records have files for all the rows that were due, each row in one of them; the files
of a reader take its rows in the order of their creation. -/
structure Partition (sha256 : String → String) (s s' : State) (bs : List Batch) : Prop where
  settlements : s'.world.db.settlements = s.world.db.settlements ++ bs.map (·.record)
  fresh : ∀ b ∈ bs, ∀ r ∈ s.world.db.settlements, r.id ≠ b.record.id
  distinct : (bs.map (·.record.id)).Nodup
  proper : ∀ b ∈ bs, b.Proper sha256
  covers : (bs.flatMap (·.rows)).Perm
    (s.world.db.emoney.filter fun e => decide (s.world.db.Due e))
  order : ∀ r, (bs.filter (·.readerId = r)).flatMap (·.rows) = s.session.dueQueue r
  rows : List.Forall₂ (Linked bs) s.world.db.emoney s'.world.db.emoney

section Run
variable {sha256 : String → String} {ctx : Ctx} {s s' : State} {c c' : Conn} {bs : List Batch}
  {r : Id}

theorem Steady.dueQueue (h : Steady c c') : c'.dueQueue r = c.dueQueue r := by
  unfold Conn.dueQueue Conn.queue State.scan
  rw [h.saved, h.order]

/-- The readers that the first query returns have the rows that the second one looks for. -/
theorem dueQueue_eq_nil (hids : (c.saved.emoney.map (·.id)).Nodup)
    (hr : r ∉ ((c.saved.emoney.filter fun e => decide e.Eligible).filterMap
      (·.emoneyReaderId)).dedup) : c.dueQueue r = [] := by
  have hempty : c.queue r = [] := by
    refine List.eq_nil_iff_forall_not_mem.mpr fun e he => hr ?_
    obtain ⟨hmem, hun, hreader⟩ := (mem_queue hids).mp he
    have heligible : e.Eligible := ⟨hun, by rw [hreader]; exact Option.some_ne_none _⟩
    refine List.mem_dedup.mpr (List.mem_filterMap.mpr ⟨e, ?_, hreader⟩)
    exact List.mem_filter.mpr ⟨hmem, decide_eq_true heligible⟩
  unfold Conn.dueQueue
  split
  · rfl
  · exact hempty

/-- Whatever a run comes to, it has committed files for rows that were due; a run that is not
skipped has settled every queue. -/
theorem generate_grown (hids : (s.world.db.emoney.map (·.id)).Nodup) :
    Prog.Ensures exec (generateSettlementFile sha256 ctx) s.session
      (fun o c' => ∃ bs, Grown sha256 s.session c' bs ∧ ∀ files n, o = .success files n →
        (∀ r, (bs.filter (·.readerId = r)).flatMap (·.rows) = s.session.dueQueue r) ∧
        (files, n) = tally (0, 0) bs)
      fun _ c' => ∃ bs, Grown sha256 s.session c' bs := by
  unfold generateSettlementFile
  refine (ensures_aside (aside_of_plain (plain_lease ctx))).bind (fun _ _ h => ⟨[], h.grown⟩)
    fun acquired c₁ h₁ => ?_
  cases acquired with
  | false => exact ⟨[], h₁.grown, fun _ _ h => Outcome.noConfusion h⟩
  | true =>
    have hmakedirs : Only Aside (fun _ => False) (ask .makedirs) := only_perform trivial
    refine (ensures_aside hmakedirs).bind (fun _ _ h => ⟨[], (h₁.trans h).grown⟩)
      fun _ c₂ h₂ => ?_
    have h₂ := h₁.trans h₂
    have hc₂ : c₂.Ready := h₂.ready rfl
    have hsaved : c₂.saved = s.world.db := h₂.saved
    have hids₂ : (c₂.saved.emoney.map (·.id)).Nodup := hsaved ▸ hids
    generalize hrs : c₂.state.order ((c₂.saved.emoney.filter fun e => decide e.Eligible).filterMap
      (·.emoneyReaderId)).dedup = rs
    have hperm : rs.Perm ((c₂.saved.emoney.filter fun e => decide e.Eligible).filterMap
        (·.emoneyReaderId)).dedup := hrs ▸ c₂.state.order_perm _
    have hask : exec .unsettledReaders c₂ = (.ok rs, c₂) := by
      rw [← hrs, ← hc₂]
      rfl
    have hnil : ∀ r, r ∉ rs → s.session.dueQueue r = [] := by
      intro r hr
      rw [← h₂.dueQueue]
      exact dueQueue_eq_nil hids₂ fun hmem => hr (hperm.mem_iff.mpr hmem)
    rw [Prog.ensures_bind, ensures_ask, hask]
    cases rs with
    | nil =>
      refine ⟨[], h₂.grown, fun files n h => ?_⟩
      cases h
      exact ⟨fun r => (hnil r List.not_mem_nil).symm, rfl⟩
    | cons r rs =>
      have hnow : Only Aside (fun _ => False) (ask .now) := only_perform trivial
      refine (ensures_aside hnow).bind (fun _ _ h => ⟨[], (h₂.trans h).grown⟩)
        fun now c₃ h₃ => ?_
      have h₃ := h₂.trans h₃
      have hreaders : (r :: rs).Nodup := hperm.nodup_iff.mpr (List.nodup_dedup _)
      refine (settleReaders_grown hreaders (h₃.ready rfl) (h₃.saved ▸ hids) (0, 0)).bind
        (fun _ _ ⟨bs, h⟩ => ⟨bs, h₃.grown.trans h⟩) ?_
      rintro _ c₄ ⟨bs, hbs, hqueues, hgrown, rfl⟩
      refine ⟨bs, h₃.grown.trans hgrown, fun files n h => ?_⟩
      cases h
      refine ⟨fun r' => ?_, rfl⟩
      by_cases hr' : r' ∈ r :: rs
      · rw [hqueues r' hr', h₃.dueQueue]
      · have hnone : bs.filter (·.readerId = r') = [] := by
          refine List.filter_eq_nil_iff.mpr fun b hb hb' => hr' ?_
          rw [← of_decide_eq_true hb']
          exact hbs b hb
        rw [hnone, hnil r' hr']
        rfl

/-- The rows of the files are the rows that were due. -/
theorem Grown.covers (h : Grown sha256 s.session c' bs)
    (hids : (s.world.db.emoney.map (·.id)).Nodup)
    (hqueue : ∀ r, (bs.filter (·.readerId = r)).flatMap (·.rows) = s.session.dueQueue r) :
    (bs.flatMap (·.rows)).Perm
      (s.world.db.emoney.filter fun e => decide (s.world.db.Due e)) := by
  have honce : ((bs.flatMap (·.rows)).map (·.id)).Nodup := by
    rw [List.map_flatMap]
    exact h.once
  refine (List.perm_ext_iff_of_nodup honce.of_map (hids.of_map.filter _)).mpr fun e => ?_
  rw [List.mem_filter, decide_eq_true_iff]
  constructor
  · intro he
    obtain ⟨b, hb, he⟩ := List.mem_flatMap.mp he
    exact h.taken b hb e he
  · rintro ⟨hmem, hun, r, hr, hnames⟩
    have hdue : e ∈ s.session.dueQueue r := by
      have hqueue : s.session.dueQueue r = s.session.queue r := if_neg hnames
      rw [hqueue]
      exact (mem_queue hids).mpr ⟨hmem, hun, hr⟩
    rw [← hqueue r] at hdue
    obtain ⟨b, hb, he⟩ := List.mem_flatMap.mp hdue
    exact List.mem_flatMap.mpr ⟨b, List.mem_of_mem_filter hb, he⟩

theorem Grown.rows (h : Grown sha256 s.session c' bs)
    (hids : (s.world.db.emoney.map (·.id)).Nodup) :
    List.Forall₂ (Linked bs) s.world.db.emoney c'.saved.emoney := by
  rw [h.saved, settleAll_emoney, List.forall₂_map_right_iff]
  refine List.forall₂_same.mpr fun e he => ?_
  rcases linkAll_cases bs e with heq | ⟨b, hb, hid, heq⟩
  · refine Or.inl ⟨heq, fun b hb he' => ?_⟩
    have hlinked := linkAll_linked hb (List.mem_map_of_mem he')
    rw [heq] at hlinked
    exact hlinked (h.taken b hb e he').2.1.1
  · obtain ⟨e₀, he₀, hsame⟩ := List.mem_map.mp hid
    have hrow : e₀ = e := List.inj_on_of_nodup_map hids (h.taken b hb e₀ he₀).1 he hsame
    exact Or.inr ⟨b, hb, hrow ▸ he₀, heq⟩

/-- Where nothing is due, a run commits nothing. -/
theorem generate_unchanged (hids : (s.world.db.emoney.map (·.id)).Nodup)
    (hnone : ∀ e ∈ s.world.db.emoney, ¬ s.world.db.Due e) :
    (generate sha256 ctx s).2.world.db = s.world.db := by
  have hrun : Prog.Ensures exec (generateSettlementFile sha256 ctx) s.session
      (fun _ c' => ∃ bs, Grown sha256 s.session c' bs)
      fun _ c' => ∃ bs, Grown sha256 s.session c' bs :=
    (generate_grown hids).mono (fun _ _ ⟨bs, h, _⟩ => ⟨bs, h⟩) fun _ _ h => h
  have hsame : ∀ c', (∃ bs, Grown sha256 s.session c' bs) → c'.saved = s.world.db := by
    rintro c' ⟨bs, h⟩
    have hempty : bs = [] := by
      refine List.eq_nil_iff_forall_not_mem.mpr fun b hb => ?_
      obtain ⟨e, he⟩ := List.exists_mem_of_length_pos (h.proper b hb).size.1
      obtain ⟨hmem, hdue⟩ := h.taken b hb e he
      exact hnone e hmem hdue
    rw [h.saved, hempty]
    rfl
  unfold generate
  unfold Prog.Ensures State.session at hrun
  rcases hr : (generateSettlementFile sha256 ctx).run exec { state := s, saved := s.world.db } with
    ⟨e | a, c'⟩ <;> rw [hr] at hrun <;> exact hsame c' hrun

/-- A run that is not skipped partitions the rows that are due into new files, and a run after it
commits nothing. -/
theorem settlement_partition {files n : Nat} (hids : (s.world.db.emoney.map (·.id)).Nodup)
    (hsequence : ∀ r ∈ s.world.db.settlements, r.id < s.nextSettlement)
    (h : generate sha256 ctx s = (.ok (.success files n), s')) :
    ∃ bs, Partition sha256 s s' bs ∧ files = bs.length ∧ n = (bs.map (·.rows.length)).sum ∧
      ∀ ctx' t, t.world.db = s'.world.db →
        (generate sha256 ctx' t).2.world.db.settlements = s'.world.db.settlements := by
  obtain ⟨c', hrun, hs'⟩ : ∃ c', (generateSettlementFile sha256 ctx).run exec s.session =
      (.ok (.success files n), c') ∧ s'.world.db = c'.saved := by
    unfold generate at h
    rcases hr : (generateSettlementFile sha256 ctx).run exec { state := s, saved := s.world.db }
      with ⟨r, c'⟩
    rw [hr] at h
    cases h
    exact ⟨c', hr, rfl⟩
  obtain ⟨bs, hgrown, hcounts⟩ := (generate_grown hids).of_ok hrun
  obtain ⟨hqueue, htally⟩ := hcounts files n rfl
  have hcovers := hgrown.covers hids hqueue
  refine ⟨bs, ⟨?_, ?_, hgrown.distinct, hgrown.proper, hcovers, hqueue, ?_⟩, ?_, ?_, ?_⟩
  · rw [hs', hgrown.saved, settleAll_settlements]
    rfl
  · intro b hb r hr
    exact (lt_of_lt_of_le (hsequence r hr) (hgrown.fresh b hb).1).ne
  · rw [hs']
    exact hgrown.rows hids
  · exact (congrArg Prod.fst htally).trans (Nat.zero_add _)
  · exact (congrArg Prod.snd htally).trans (Nat.zero_add _)
  · intro ctx' t ht
    have hdb : t.world.db = s.world.db.settleAll bs := ht.trans (hs'.trans hgrown.saved)
    have hids' : (t.world.db.emoney.map (·.id)).Nodup := by
      rw [hdb, settleAll_ids]
      exact hids
    rw [generate_unchanged hids' fun e he hdue => ?_, ht]
    rw [hdb] at he hdue
    obtain ⟨hmem, hfree⟩ := unlinked_settleAll he hdue.1.1
    have hin : e ∈ bs.flatMap (·.rows) := hcovers.mem_iff.mpr
      (List.mem_filter.mpr ⟨hmem, decide_eq_true ((settleAll_due _ _ _).mp hdue)⟩)
    obtain ⟨b, hb, he⟩ := List.mem_flatMap.mp hin
    exact hfree b hb (List.mem_map_of_mem he)

end Run

section Night

/-- Two deducts of a reader with MID and TID, a QR payment of it, and a deduct of a reader without
them. -/
def nightDesk : State where
  world :=
    { db :=
        { emoney :=
            [{ id := 1, emoneyReaderId := some 4, cardNumber := "6013500100", createdAt := 20
               amountDeducted := 6000, status := .success, settlementPayloadHex := some "02ab" },
             { id := 2, emoneyReaderId := some 4, cardNumber := "6013500200", createdAt := 10
               amountDeducted := 4000, status := .success, settlementPayloadHex := some "02cd" },
             { id := 3, emoneyReaderId := some 4, cardNumber := "", cardTypeCode := some 9
               amountDeducted := 5000, status := .success },
             { id := 4, emoneyReaderId := some 5, cardNumber := "6013500300"
               amountDeducted := 3000, status := .success }]
          readers := [{ id := 4, mid := some "1234", tid := some "56" }, { id := 5 }] }
      nextTx := 1
      nextEmoney := 5
      now := 0 }

theorem settlement_partition_night :
    ∃ bs, Partition id nightDesk (generate id ⟨true⟩ nightDesk).2 bs ∧ 1 = bs.length ∧
      2 = (bs.map (·.rows.length)).sum ∧ ∀ ctx' t,
        t.world.db = (generate id ⟨true⟩ nightDesk).2.world.db →
        (generate id ctx' t).2.world.db.settlements =
          (generate id ⟨true⟩ nightDesk).2.world.db.settlements := by
  have hrun : (generate id ⟨true⟩ nightDesk).1 = .ok (.success 1 2) := by decide
  exact settlement_partition (by decide) (by decide) (Prod.ext hrun rfl)

/-- Redis fails when the cron job asks for the lock. -/
def lockless : State := { nightDesk with world.redisDown := true }

/-- The job returns without an exception, and its due rows stay unlinked. -/
theorem skipped_run_settles_nothing :
    let (r, s) := generate id ⟨true⟩ lockless
    r = .ok .skippedLocked ∧ s.world.db.settlements = [] ∧
      (∀ e ∈ s.world.db.emoney, e.settlementBatchId = none) ∧
      ∃ e ∈ s.world.db.emoney, s.world.db.Due e := by
  decide

end Night
end ParkIt.Settlement
