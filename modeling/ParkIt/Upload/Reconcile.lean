import ParkIt.Upload.Poll

/-! What a poll leaves in the tables: one answer for each settlement that it processes. -/
namespace ParkIt

namespace Upload

/-- A response as it has been fetched for a settlement. -/
structure BankReply where
  settlement : EmoneySettlement
  ext : String
  content : String
  now : Int

namespace BankReply
variable (p : BankReply)

def code (e : EmoneyTransaction) : String := codeOf p.ext p.content e

def row (e : EmoneyTransaction) : EmoneyTransaction :=
  if e.settlementBatchId = some p.settlement.id then
    { e with bankResponseStatus := some (p.code e), bankResponseAt := some p.now }
  else e

def record (status : String) (r : EmoneySettlement) : EmoneySettlement :=
  if r.id = p.settlement.id then
    { r with status, responseReceivedAt := some p.now, responseExtension := some p.ext }
  else r

end BankReply
end Upload

open Upload

def Db.answered (db : Db) (p : BankReply) : Db :=
  let rows := db.emoney.filter fun e => e.settlementBatchId = some p.settlement.id
  { db with
    emoney := db.emoney.map p.row
    settlements := db.settlements.map (p.record (verdict p.ext (rows.map p.code))) }

namespace Upload

open Effects Settlement

section Answered
variable {db : Db} {p : BankReply}

theorem lookup_codes {rows : List EmoneyTransaction} {f : EmoneyTransaction → String}
    (hids : (rows.map (·.id)).Nodup) {e : EmoneyTransaction} (he : e ∈ rows) :
    (rows.map fun e => (e.id, f e)).lookup e.id = some (f e) := by
  induction rows with
  | nil => cases he
  | cons x rows ih =>
    rw [List.map_cons, List.nodup_cons] at hids
    rw [List.map_cons, List.lookup_cons]
    rcases List.mem_cons.mp he with rfl | he
    · simp
    · have hne : (e.id == x.id) = false :=
        beq_eq_false_iff_ne.mpr fun h => hids.1 (h ▸ List.mem_map_of_mem he)
      rw [hne]
      exact ih hids.2 he

theorem lookup_codes_none {rows : List EmoneyTransaction} {f : EmoneyTransaction → String} {i : Id}
    (h : ∀ e ∈ rows, e.id ≠ i) : (rows.map fun e => (e.id, f e)).lookup i = none := by
  induction rows with
  | nil => rfl
  | cons x rows ih =>
    have hne : (i == x.id) = false :=
      beq_eq_false_iff_ne.mpr fun hi => h x List.mem_cons_self hi.symm
    rw [List.map_cons, List.lookup_cons, hne]
    exact ih fun e he => h e (List.mem_cons_of_mem _ he)

theorem verdict_perm {ext : String} {codes codes' : List String} (h : codes.Perm codes') :
    verdict ext codes = verdict ext codes' := by
  unfold verdict
  rw [h.count_eq, h.length_eq]

/-- What a poll commits is the answer for the rows of the settlement. -/
theorem respond_eq (hids : (db.emoney.map (·.id)).Nodup) {rows : List EmoneyTransaction}
    (hrows : rows.Perm (db.emoney.filter fun e => e.settlementBatchId = some p.settlement.id)) :
    db.respond (rows.map fun e => (e.id, p.code e)) p.now p.settlement.id
      (verdict p.ext (rows.map p.code)) p.ext = db.answered p := by
  have hnodup : (rows.map (·.id)).Nodup :=
    (hrows.map _).nodup_iff.mpr (hids.sublist (List.filter_sublist.map _))
  have hemoney : ∀ e ∈ db.emoney,
      e.responded (rows.map fun e => (e.id, p.code e)) p.now = p.row e := by
    intro e he
    unfold BankReply.row EmoneyTransaction.responded
    by_cases hbatch : e.settlementBatchId = some p.settlement.id
    · have hmem : e ∈ rows := hrows.mem_iff.mpr (List.mem_filter.mpr ⟨he, decide_eq_true hbatch⟩)
      rw [lookup_codes hnodup hmem, if_pos hbatch]
    · rw [lookup_codes_none fun x hx hid => ?_, if_neg hbatch]
      obtain ⟨hx, hxb⟩ := List.mem_filter.mp (hrows.mem_iff.mp hx)
      have hsame := List.inj_on_of_nodup_map hids hx he hid
      exact hbatch (hsame ▸ of_decide_eq_true hxb)
  unfold Db.respond Db.answered
  dsimp only
  rw [List.map_congr_left hemoney, verdict_perm (hrows.map p.code)]
  rfl

theorem row_id (e : EmoneyTransaction) : (p.row e).id = e.id := by
  unfold BankReply.row
  split <;> rfl

theorem row_batch (e : EmoneyTransaction) : (p.row e).settlementBatchId = e.settlementBatchId := by
  unfold BankReply.row
  split <;> rfl

theorem row_payload (e : EmoneyTransaction) :
    (p.row e).settlementPayloadHex = e.settlementPayloadHex := by
  unfold BankReply.row
  split <;> rfl

theorem record_id (status : String) (r : EmoneySettlement) : (p.record status r).id = r.id := by
  unfold BankReply.record
  split <;> rfl

theorem answered_ids : (db.answered p).emoney.map (·.id) = db.emoney.map (·.id) := by
  simp only [Db.answered, List.map_map, Function.comp_def, row_id]

end Answered

section Answers
variable {db : Db} {ps : List BankReply} {p : BankReply}

/-- What the rows of a settlement get does not depend on the other answers. -/
theorem codes_answered (q p : BankReply) :
    ((db.answered q).emoney.filter fun e => e.settlementBatchId = some p.settlement.id).map p.code =
      (db.emoney.filter fun e => e.settlementBatchId = some p.settlement.id).map p.code := by
  have hcode : ∀ e, p.code (q.row e) = p.code e := by
    intro e
    simp only [BankReply.code, codeOf, submitted, row_payload]
  simp only [Db.answered, List.filter_map, Function.comp_def, row_batch, List.map_map, hcode]

theorem emoney_answers : (ps.foldl Db.answered db).emoney =
    db.emoney.map fun e => ps.foldl (fun e p => p.row e) e := by
  induction ps generalizing db with
  | nil => exact (List.map_id _).symm
  | cons q ps ih =>
    rw [List.foldl_cons, ih, Db.answered, List.map_map]
    rfl

theorem answers_id (e : EmoneyTransaction) : (ps.foldl (fun e p => p.row e) e).id = e.id := by
  induction ps generalizing e with
  | nil => rfl
  | cons q ps ih => exact (ih (q.row e)).trans (row_id e)

/-- A row of no answered settlement stays as it is. -/
theorem row_unanswered {e : EmoneyTransaction}
    (h : ∀ p ∈ ps, e.settlementBatchId ≠ some p.settlement.id) :
    ps.foldl (fun e p => p.row e) e = e := by
  induction ps with
  | nil => rfl
  | cons q ps ih =>
    have hsame : q.row e = e := if_neg (h q List.mem_cons_self)
    rw [List.foldl_cons, hsame]
    exact ih fun p hp => h p (List.mem_cons_of_mem _ hp)

/-- A row gets the answer for its settlement. -/
theorem row_answers (honce : (ps.map fun p => p.settlement.id).Nodup) (hp : p ∈ ps)
    {e : EmoneyTransaction} (he : e.settlementBatchId = some p.settlement.id) :
    ps.foldl (fun e p => p.row e) e = p.row e := by
  induction ps generalizing e with
  | nil => cases hp
  | cons q ps ih =>
    rw [List.map_cons, List.nodup_cons] at honce
    rw [List.foldl_cons]
    rcases List.mem_cons.mp hp with rfl | hp
    · refine row_unanswered fun q hq hbatch => honce.1 ?_
      rw [row_batch, he] at hbatch
      rw [Option.some.inj hbatch]
      exact List.mem_map_of_mem hq
    · have hne : e.settlementBatchId ≠ some q.settlement.id := by
        rw [he]
        exact fun h => honce.1 (Option.some.inj h ▸ List.mem_map_of_mem hp)
      have hsame : q.row e = e := if_neg hne
      rw [hsame]
      exact ih honce.2 hp he

/-- A settlement gets its answer, or it stays as it is. -/
def answeredRecord (db : Db) (ps : List BankReply) (r : EmoneySettlement) : EmoneySettlement :=
  match ps.find? fun p => p.settlement.id = r.id with
  | some p => p.record (verdict p.ext
      ((db.emoney.filter fun e => e.settlementBatchId = some p.settlement.id).map p.code)) r
  | none => r

theorem answeredRecord_id (db : Db) (ps : List BankReply) (r : EmoneySettlement) :
    (answeredRecord db ps r).id = r.id := by
  unfold answeredRecord
  split
  · exact record_id _ _
  · rfl

theorem settlements_answers (honce : (ps.map fun p => p.settlement.id).Nodup) :
    (ps.foldl Db.answered db).settlements = db.settlements.map (answeredRecord db ps) := by
  induction ps generalizing db with
  | nil => exact (List.map_id _).symm
  | cons q ps ih =>
    rw [List.map_cons, List.nodup_cons] at honce
    have hrest : answeredRecord (db.answered q) ps = answeredRecord db ps := by
      funext r
      unfold answeredRecord
      split
      · rw [codes_answered]
      · rfl
    rw [List.foldl_cons, ih honce.2, hrest, Db.answered, List.map_map]
    refine List.map_congr_left fun r _ => ?_
    rw [Function.comp_apply]
    by_cases hq : r.id = q.settlement.id
    · have hnone : ps.find? (fun p => decide (p.settlement.id =
          (q.record (verdict q.ext ((db.emoney.filter
            fun e => e.settlementBatchId = some q.settlement.id).map q.code)) r).id)) = none := by
        rw [record_id]
        refine List.find?_eq_none.mpr fun p hp hid => honce.1 ?_
        rw [← hq, ← of_decide_eq_true hid]
        exact List.mem_map_of_mem hp
      rw [answeredRecord, hnone, answeredRecord, List.find?_cons_of_pos (by simp [hq])]
    · have hsame : q.record (verdict q.ext ((db.emoney.filter
          fun e => e.settlementBatchId = some q.settlement.id).map q.code)) r = r := if_neg hq
      rw [hsame, answeredRecord, answeredRecord,
        List.find?_cons_of_neg (by simpa using fun h : q.settlement.id = r.id => hq h.symm)]

end Answers

/-- The text of a response file as it is on the server. -/
def Fetched (settings : SftpSettings) (s : Site) (p : BankReply) : Prop :=
  ∃ raw, s.remote (responsePath settings.responseDir p.settlement.filename p.ext) = some raw ∧
    isAscii raw = true ∧ p.content = String.ofList (universalNewlines raw.toList)

/-- The tables and the server are left alone. -/
structure Still (c c' : PollConn) : Prop where
  db : c'.site.desk.world.db = c.site.desk.world.db
  remote : c'.site.remote = c.site.remote
  order : c'.site.desk.order = c.site.desk.order

/-- What a part of a poll has done with the settlements that it was given. -/
structure Replied (settings : SftpSettings) (c c' : PollConn) (rs : List EmoneySettlement)
    (ps : List BankReply) : Prop where
  db : c'.site.desk.world.db = ps.foldl Db.answered c.site.desk.world.db
  remote : c'.site.remote = c.site.remote
  order : c'.site.desk.order = c.site.desk.order
  within : (ps.map (·.settlement)).Sublist rs
  fetched : ∀ p ∈ ps, Fetched settings c.site p

section Spec
variable {trouble : Nat → Option (PollExc × Bool)} {c c' c'' : PollConn} {settings : SftpSettings}

theorem Still.refl (c : PollConn) : Still c c := ⟨rfl, rfl, rfl⟩

theorem Still.trans (h : Still c c') (h' : Still c' c'') : Still c c'' :=
  ⟨h'.db.trans h.db, h'.remote.trans h.remote, h'.order.trans h.order⟩

theorem ensures_askPoll {o : PollOp} {ok : o.Val → PollConn → Prop}
    {err : PollExc → PollConn → Prop} :
    Prog.Ensures (execPoll trouble) (askPoll o) c ok err ↔
      match execPoll trouble o c with
      | (.ok (.ok v), c') => ok v c'
      | (.ok (.error e), c') => err e c'
      | (.error e, c') => err e c' := by
  rw [askPoll, Prog.ensures_bind, Prog.Ensures, Prog.run_perform]
  rcases execPoll trouble o c with ⟨e | e | v, c'⟩ <;> rfl

/-- The operation has been carried out, or it raises and may have been. -/
theorem execPoll_cases (trouble : Nat → Option (PollExc × Bool)) (o : PollOp) (c : PollConn) :
    execPoll trouble o c = (.ok (answer o c.site).1, ⟨(answer o c.site).2, c.step + 1⟩) ∨
      ∃ e s, execPoll trouble o c = (.ok (.error e), ⟨s, c.step + 1⟩) ∧
        (s = c.site ∨ s = (answer o c.site).2) := by
  unfold execPoll
  dsimp only
  split
  · exact Or.inl rfl
  · rename_i e served _
    cases served
    · exact Or.inr ⟨_, _, rfl, Or.inl rfl⟩
    · exact Or.inr ⟨_, _, rfl, Or.inr rfl⟩

theorem ensures_caught {α : Type} {p : PollJob α} {h : PollExc → PollJob α}
    {ok : α → PollConn → Prop} {err : PollExc → PollConn → Prop} :
    Prog.Ensures (execPoll trouble) (p.handle h) c ok err ↔
      Prog.Ensures (execPoll trouble) p c ok fun e c' =>
        Prog.Ensures (execPoll trouble) (h e) c' ok err := by
  refine ensures_handle (only_any p) (fun o c _ => ?_) c
  rcases execPoll_cases trouble o c with h | ⟨e, s, h, -⟩ <;> rw [h] <;> exact ⟨_, rfl⟩

def LooksOn : PollOp → Prop
  | .commit _ _ _ _ _ => False
  | _ => True

theorem still_answer {o : PollOp} (ho : LooksOn o) (s : Site) (n m : Nat) :
    Still ⟨s, n⟩ ⟨(answer o s).2, m⟩ := by
  cases o with
  | commit _ _ _ _ _ => exact ho.elim
  | get _ _ =>
    simp only [answer]
    split <;> exact ⟨rfl, rfl, rfl⟩
  | read _ =>
    simp only [answer]
    split
    · exact ⟨rfl, rfl, rfl⟩
    · split <;> exact ⟨rfl, rfl, rfl⟩
  | now | pending _ | importAsyncssh | connect _ | removeLocal _ | close | rows _ =>
    exact ⟨rfl, rfl, rfl⟩

theorem still_exec {o : PollOp} (ho : LooksOn o) (c : PollConn) :
    Still c (execPoll trouble o c).2 := by
  rcases execPoll_cases trouble o c with h | ⟨e, s, h, rfl | rfl⟩ <;> rw [h]
  · exact still_answer ho c.site c.step (c.step + 1)
  · exact ⟨rfl, rfl, rfl⟩
  · exact still_answer ho c.site c.step (c.step + 1)

theorem ensures_looks {o : PollOp} (ho : LooksOn o) {Q : o.Val → Site → Prop}
    (hQ : ∀ a, (answer o c.site).1 = .ok a → Q a (answer o c.site).2) :
    Prog.Ensures (execPoll trouble) (askPoll o) c (fun a c' => Still c c' ∧ Q a c'.site)
      fun _ c' => Still c c' := by
  rw [ensures_askPoll]
  have hstill : Still c (execPoll trouble o c).2 := still_exec ho c
  rcases execPoll_cases trouble o c with h | ⟨e, s, h, -⟩ <;> rw [h] at hstill ⊢
  · rcases ha : (answer o c.site).1 with e | a
    · exact hstill
    · exact ⟨hstill, hQ a ha⟩
  · exact hstill

/-- An operation that only looks, whatever it answers. -/
theorem ensures_still {o : PollOp} (ho : LooksOn o) :
    Prog.Ensures (execPoll trouble) (askPoll o) c (fun _ c' => Still c c') fun _ c' => Still c c' :=
  (ensures_looks (Q := fun _ _ => True) ho fun _ _ => trivial).mono (fun _ _ h => h.1) fun _ _ h => h

theorem get_spec (remote tmp : String) :
    Prog.Ensures (execPoll trouble) (askPoll (.get remote tmp)) c
      (fun _ c' => Still c c' ∧ ∃ raw, c.site.remote remote = some raw ∧
        c'.site.files tmp = some raw)
      fun _ c' => Still c c' := by
  refine ensures_looks (o := .get remote tmp)
    (Q := fun _ s => ∃ raw, c.site.remote remote = some raw ∧ s.files tmp = some raw) trivial
    fun a h => ?_
  simp only [answer] at h ⊢
  split at h
  · cases h
  · rename_i raw hraw
    exact ⟨raw, hraw, if_pos rfl⟩

theorem read_spec (tmp : String) :
    Prog.Ensures (execPoll trouble) (askPoll (.read tmp)) c
      (fun content c' => Still c c' ∧ ∃ raw, c.site.files tmp = some raw ∧ isAscii raw = true ∧
        content = String.ofList (universalNewlines raw.toList))
      fun _ c' => Still c c' := by
  refine ensures_looks (o := .read tmp)
    (Q := fun content _ => ∃ raw, c.site.files tmp = some raw ∧ isAscii raw = true ∧
      content = String.ofList (universalNewlines raw.toList)) trivial fun content h => ?_
  simp only [answer] at h
  split at h
  · cases h
  · rename_i raw hraw
    split at h
    · rename_i hascii
      exact ⟨raw, hraw, hascii, (Except.ok.inj h).symm⟩
    · cases h

/-- What is fetched is on the server. -/
def Found (responseDir filename : String) (c : PollConn) (found : Option (String × String))
    (c' : PollConn) : Prop :=
  Still c c' ∧ ∀ ext content, found = some (ext, content) →
    ∃ raw, c.site.remote (responsePath responseDir filename ext) = some raw ∧
      isAscii raw = true ∧ content = String.ofList (universalNewlines raw.toList)

theorem Found.after {responseDir filename : String} {found : Option (String × String)}
    (h : Still c c') (hfound : Found responseDir filename c' found c'') :
    Found responseDir filename c found c'' := by
  refine ⟨h.trans hfound.1, ?_⟩
  rw [← h.remote]
  exact hfound.2

theorem fetchFirst_spec (responseDir filename : String) (exts : List String) :
    Prog.Ensures (execPoll trouble) (fetchFirst responseDir filename exts) c
      (Found responseDir filename c) fun _ c' => Still c c' := by
  induction exts generalizing c with
  | nil => exact ⟨Still.refl c, fun _ _ h => nomatch h⟩
  | cons ext exts ih =>
    unfold fetchFirst
    rw [Prog.ensures_bind, ensures_caught]
    have hrest : ∀ c₁, Still c c₁ →
        Prog.Ensures (execPoll trouble) (fetchFirst responseDir filename exts) c₁
          (Found responseDir filename c) fun _ c' => Still c c' :=
      fun c₁ h₁ => ih.mono (fun _ _ h => Found.after h₁ h) fun _ _ h => h₁.trans h
    refine (get_spec _ _).bind (fun e c₁ h₁ => ?_) fun _ c₁ h₁ => ?_
    · cases e with
      | noSuchFile | os => exact hrest c₁ h₁
      | ssh | unicode | noAsyncssh | db => exact h₁
    · obtain ⟨h₁, raw, hraw, hfile⟩ := h₁
      change Prog.Ensures (execPoll trouble)
        (Prog.handle (askPoll (.read (localTmp filename ext))) _ >>= _) c₁ _ _
      rw [Prog.ensures_bind, ensures_caught]
      refine (read_spec _).mono (fun content c₂ h₂ => ?_) fun e c₂ h₂ => ?_
      · obtain ⟨h₂, raw', hraw', hcontent⟩ := h₂
        cases hfile.symm.trans hraw'
        refine (ensures_still (o := .removeLocal _) trivial).bind
          (fun _ _ h => (h₁.trans h₂).trans h) fun _ c₃ h₃ => ?_
        refine ⟨(h₁.trans h₂).trans h₃, fun ext' content' h => ?_⟩
        cases h
        exact ⟨raw, hraw, hcontent⟩
      · exact (ensures_still (o := .removeLocal _) trivial).bind
          (fun _ _ h => (h₁.trans h₂).trans h) fun _ _ h => (h₁.trans h₂).trans h

theorem fetchResponseFile_spec (filename : String) :
    Prog.Ensures (execPoll trouble) (fetchResponseFile settings filename) c
      (Found settings.responseDir filename c) fun _ c' => Still c c' := by
  unfold fetchResponseFile
  refine (ensures_still (o := .importAsyncssh) trivial).bind (fun _ _ h => h) fun _ c₁ h₁ => ?_
  refine (ensures_still (o := .connect _) trivial).bind (fun _ _ h => h₁.trans h) fun _ c₂ h₂ => ?_
  have h₁₂ := h₁.trans h₂
  rw [Prog.ensures_bind, ensures_caught]
  refine (fetchFirst_spec _ _ _).mono (fun found c₃ h₃ => ?_) fun e c₃ h₃ => ?_
  · have hfound := Found.after h₁₂ h₃
    exact (ensures_still (o := .close) trivial).bind (fun _ _ h => hfound.1.trans h)
      fun _ _ h => ⟨hfound.1.trans h, hfound.2⟩
  · exact (ensures_still (o := .close) trivial).bind (fun _ _ h => (h₁₂.trans h₃).trans h)
      fun _ _ h => (h₁₂.trans h₃).trans h

theorem Replied.nil (h : Still c c') {rs : List EmoneySettlement} :
    Replied settings c c' rs [] :=
  ⟨h.db, h.remote, h.order, List.nil_sublist _, fun _ hp => nomatch hp⟩

/-- What is done after the tables have been left alone. -/
theorem Replied.after {rs rs' : List EmoneySettlement} {ps : List BankReply} (h : Still c c')
    (h' : Replied settings c' c'' rs ps) (hrs : rs.Sublist rs') : Replied settings c c'' rs' ps :=
  ⟨by rw [h'.db, h.db], h'.remote.trans h.remote, h'.order.trans h.order, h'.within.trans hrs,
    fun p hp => by
      unfold Fetched
      rw [← h.remote]
      exact h'.fetched p hp⟩

/-- One reply after the other. -/
theorem Replied.cons {r : EmoneySettlement} {rs : List EmoneySettlement} {p : BankReply}
    {ps : List BankReply} (hp : p.settlement = r) (hfetched : Fetched settings c.site p)
    (hdb : c'.site.desk.world.db = c.site.desk.world.db.answered p)
    (hremote : c'.site.remote = c.site.remote) (horder : c'.site.desk.order = c.site.desk.order)
    (h : Replied settings c' c'' rs ps) : Replied settings c c'' (r :: rs) (p :: ps) := by
  refine ⟨by rw [h.db, hdb]; rfl, h.remote.trans hremote, h.order.trans horder, ?_, ?_⟩
  · rw [List.map_cons, hp]
    exact h.within.cons_cons r
  · intro q hq
    rcases List.mem_cons.mp hq with rfl | hq
    · exact hfetched
    · unfold Fetched
      rw [← hremote]
      exact h.fetched q hq

theorem rows_spec (hids : (c.site.desk.world.db.emoney.map (·.id)).Nodup) (i : Id) :
    Prog.Ensures (execPoll trouble) (askPoll (.rows i)) c
      (fun rows c' => Still c c' ∧ rows.Perm (c.site.rows i)) fun _ c' => Still c c' := by
  refine ensures_looks (o := .rows i) (Q := fun rows _ => rows.Perm (c.site.rows i)) trivial
    fun rows h => ?_
  rw [← Except.ok.inj h]
  exact scan_perm _ (hids.sublist (List.filter_sublist.map _))

/-- The commit takes effect, or it raises and may have taken effect. -/
theorem commit_spec (answers : List (Id × String)) (now : Int) (i : Id) (status ext : String) :
    Prog.Ensures (execPoll trouble) (askPoll (.commit answers now i status ext)) c
      (fun _ c' => Still ⟨c.site.respond answers now i status ext, c.step⟩ c')
      fun _ c' => Still c c' ∨ Still ⟨c.site.respond answers now i status ext, c.step⟩ c' := by
  have hanswer : answer (.commit answers now i status ext) c.site =
        (.ok (), c.site.respond answers now i status ext) ∨
      answer (.commit answers now i status ext) c.site = (.error .db, c.site) := by
    simp only [answer]
    split
    · exact Or.inl rfl
    · exact Or.inr rfl
  rw [ensures_askPoll]
  rcases execPoll_cases trouble (.commit answers now i status ext) c with h | ⟨e, s, h, hs⟩ <;>
    rw [h] <;> rcases hanswer with hdone | hdone
  · rw [hdone]
    exact ⟨rfl, rfl, rfl⟩
  · rw [hdone]
    exact Or.inl ⟨rfl, rfl, rfl⟩
  · rw [hdone] at hs
    rcases hs with rfl | rfl
    · exact Or.inl ⟨rfl, rfl, rfl⟩
    · exact Or.inr ⟨rfl, rfl, rfl⟩
  · rw [hdone, or_self] at hs
    exact Or.inl ⟨by rw [hs], by rw [hs], by rw [hs]⟩

/-- One settlement after the other, each at most once. -/
theorem pollEach_spec (hids : (c.site.desk.world.db.emoney.map (·.id)).Nodup)
    (rs : List EmoneySettlement) (n : PollCounts) :
    Prog.Ensures (execPoll trouble) (pollEach settings rs n) c
      (fun _ c' => ∃ ps, Replied settings c c' rs ps)
      fun _ c' => ∃ ps, Replied settings c c' rs ps := by
  induction rs generalizing c n with
  | nil => exact ⟨[], .nil (Still.refl c)⟩
  | cons r rs ih =>
    unfold pollEach
    have hfound : Prog.Ensures (execPoll trouble)
        ((fetchResponseFile settings r.filename).handle fun _ => pure none) c
        (Found settings.responseDir r.filename c) fun _ _ => False := by
      rw [ensures_caught]
      exact (fetchResponseFile_spec _).mono (fun _ _ h => h)
        fun _ _ h => ⟨h, fun _ _ h => nomatch h⟩
    refine hfound.bind (fun _ _ h => h.elim) fun found c₁ h₁ => ?_
    have hids₁ : (c₁.site.desk.world.db.emoney.map (·.id)).Nodup := h₁.1.db ▸ hids
    rcases found with _ | ⟨ext, content⟩
    · exact (ih hids₁ n).mono (fun _ _ ⟨ps, h⟩ => ⟨ps, h.after h₁.1 (List.sublist_cons_self _ _)⟩)
        fun _ _ ⟨ps, h⟩ => ⟨ps, h.after h₁.1 (List.sublist_cons_self _ _)⟩
    dsimp only
    refine (rows_spec hids₁ r.id).bind (fun _ _ h => ⟨[], .nil (h₁.1.trans h)⟩) ?_
    rintro rows c₂ ⟨h₂, hrows⟩
    refine (ensures_still (o := .now) trivial).bind
      (fun _ _ h => ⟨[], .nil ((h₁.1.trans h₂).trans h)⟩) fun now c₃ h₃ => ?_
    have hstill := (h₁.1.trans h₂).trans h₃
    obtain ⟨p, hp⟩ : ∃ p : BankReply, p = ⟨r, ext, content, now⟩ := ⟨_, rfl⟩
    have hfetched : Fetched settings c.site p := by
      rw [hp]
      exact h₁.2 ext content rfl
    have hrespond : c.site.desk.world.db.respond
        (rows.map fun e => (e.id, codeOf ext content e)) now r.id
        (verdict ext ((rows.map fun e => (e.id, codeOf ext content e)).map Prod.snd)) ext =
          c.site.desk.world.db.answered p := by
      have hperm : rows.Perm (c.site.desk.world.db.emoney.filter
          fun e => e.settlementBatchId = some p.settlement.id) := by
        rw [hp, ← h₁.1.db]
        exact hrows
      rw [← respond_eq hids hperm, List.map_map, hp]
      rfl
    -- what the commit leaves, when it takes effect
    have hcommitted : ∀ {c₄}, Still ⟨c₃.site.respond
          (rows.map fun e => (e.id, codeOf ext content e)) now r.id
          (verdict ext ((rows.map fun e => (e.id, codeOf ext content e)).map Prod.snd)) ext,
          c₃.step⟩ c₄ →
        c₄.site.desk.world.db = c.site.desk.world.db.answered p ∧
          c₄.site.remote = c.site.remote ∧ c₄.site.desk.order = c.site.desk.order := by
      intro c₄ h₄
      refine ⟨?_, h₄.remote.trans hstill.remote, h₄.order.trans hstill.order⟩
      rw [← hrespond, ← hstill.db]
      exact h₄.db
    refine (commit_spec _ _ _ _ _).bind (fun _ c₄ h₄ => ?_) fun _ c₄ h₄ => ?_
    · rcases h₄ with h₄ | h₄
      · exact ⟨[], .nil (hstill.trans h₄)⟩
      · obtain ⟨hdb, hremote, horder⟩ := hcommitted h₄
        exact ⟨[p], .cons (by rw [hp]) hfetched hdb hremote horder (.nil (Still.refl c₄))⟩
    · obtain ⟨hdb, hremote, horder⟩ := hcommitted h₄
      have hids₄ : (c₄.site.desk.world.db.emoney.map (·.id)).Nodup := by
        rw [hdb, answered_ids]
        exact hids
      have hcons : ∀ {c' ps}, Replied settings c₄ c' rs ps → Replied settings c c' (r :: rs) (p :: ps) :=
        fun h => .cons (by rw [hp]) hfetched hdb hremote horder h
      exact (ih hids₄ _).mono (fun _ _ ⟨ps, h⟩ => ⟨p :: ps, hcons h⟩)
        fun _ _ ⟨ps, h⟩ => ⟨p :: ps, hcons h⟩

/-- A poll answers settlements that await an answer, each once. -/
structure Polled (settings : SftpSettings) (s s' : Site) (ps : List BankReply) : Prop where
  db : s'.desk.world.db = ps.foldl Db.answered s.desk.world.db
  fetched : ∀ p ∈ ps, Fetched settings s p
  awaited : ∀ p ∈ ps, p.settlement ∈ s.desk.world.db.settlements ∧ p.settlement.status = "UPLOADED"
  once : (ps.map fun p => p.settlement.id).Nodup

theorem pending_spec (hkeys : (c.site.desk.world.db.settlements.map (·.id)).Nodup) (cutoff : Int) :
    Prog.Ensures (execPoll trouble) (askPoll (.pending cutoff)) c
      (fun rs c' => Still c c' ∧ (rs.map (·.id)).Nodup ∧
        ∀ r ∈ rs, r ∈ c.site.desk.world.db.settlements ∧ r.status = "UPLOADED")
      fun _ c' => Still c c' := by
  refine ensures_looks (o := .pending cutoff) (Q := fun rs _ => (rs.map (·.id)).Nodup ∧
    ∀ r ∈ rs, r ∈ c.site.desk.world.db.settlements ∧ r.status = "UPLOADED") trivial fun rs h => ?_
  have hnodup := hkeys.sublist
    ((List.filter_sublist (p := awaits cutoff) (l := c.site.desk.world.db.settlements)).map _)
  have hperm : rs.Perm (c.site.desk.world.db.settlements.filter (awaits cutoff)) := by
    rw [← Except.ok.inj h]
    exact (List.perm_insertionSort _ _).trans (find_perm (c.site.desk.order_perm _) hnodup)
  refine ⟨(hperm.map _).nodup_iff.mpr hnodup, fun r hr => ?_⟩
  obtain ⟨hmem, hawaits⟩ := List.mem_filter.mp (hperm.mem_iff.mp hr)
  exact ⟨hmem, (of_decide_eq_true hawaits).1⟩

theorem poll_polled {s s' : Site} {out : Except PollExc PollOutcome}
    (hids : (s.desk.world.db.emoney.map (·.id)).Nodup)
    (hkeys : (s.desk.world.db.settlements.map (·.id)).Nodup)
    (h : poll settings trouble s = (out, s')) : ∃ ps, Polled settings s s' ps := by
  have hidle : ∀ {c' : PollConn}, Still ⟨s, 0⟩ c' → ∃ ps, Polled settings s c'.site ps := fun h =>
    ⟨[], h.db, (fun _ hp => nomatch hp), (fun _ hp => nomatch hp), List.nodup_nil⟩
  have hrun : Prog.Ensures (execPoll trouble) (pollSettlementResponses settings) ⟨s, 0⟩
      (fun _ c' => ∃ ps, Polled settings s c'.site ps)
      fun _ c' => ∃ ps, Polled settings s c'.site ps := by
    unfold pollSettlementResponses
    split
    · exact hidle (Still.refl _)
    refine (ensures_still (o := .now) trivial).bind (fun _ _ h => hidle h) fun now c₁ h₁ => ?_
    refine (pending_spec (by rw [h₁.db]; exact hkeys) _).bind (fun _ _ h => hidle (h₁.trans h)) ?_
    rintro rs c₂ ⟨h₂, honce, hrs⟩
    have hstill := h₁.trans h₂
    have hpolled : ∀ c' ps, Replied settings c₂ c' rs ps → Polled settings s c'.site ps := by
      intro c' ps h
      have hall := h.after hstill (List.Sublist.refl rs)
      refine ⟨hall.db, hall.fetched, fun p hp => ?_, ?_⟩
      · rw [← h₁.db]
        exact hrs _ (hall.within.subset (List.mem_map_of_mem hp))
      · have hsub := honce.sublist (hall.within.map (·.id))
        rwa [List.map_map] at hsub
    exact (pollEach_spec (by rw [hstill.db]; exact hids) rs {}).bind
      (fun _ _ ⟨ps, h⟩ => ⟨ps, hpolled _ ps h⟩) fun _ _ ⟨ps, h⟩ => ⟨ps, hpolled _ ps h⟩
  unfold poll at h
  unfold Prog.Ensures at hrun
  rcases hr : (pollSettlementResponses settings).run (execPoll trouble) ⟨s, 0⟩ with ⟨e | a, c'⟩ <;>
    rw [hr] at hrun h <;> cases h <;> exact hrun

end Spec

/-- The status that the bank has given to a row. -/
def Site.bankStatus (s : Site) (i : Id) : Option String :=
  (s.desk.world.db.emoney.find? fun e => e.id = i).bind (·.bankResponseStatus)

section Listed
variable {l : Listing} {rows : List EmoneyTransaction} {ends : Bool}

theorem submitted_zip {lines : List Line} {e : EmoneyTransaction} {line : Line}
    (h : rows.map submitted = lines.map fun line => String.ofList line.payload)
    (hmem : (e, line) ∈ rows.zip lines) : submitted e = String.ofList line.payload := by
  have hzip : (rows.map submitted).zip (lines.map fun line => String.ofList line.payload) =
      (rows.zip lines).map (Prod.map submitted fun line => String.ofList line.payload) :=
    List.zip_map
  rw [← h] at hzip
  have hpair : (submitted e, String.ofList line.payload) ∈
      (rows.map submitted).zip (rows.map submitted) := by
    rw [hzip]
    exact List.mem_map.mpr ⟨_, hmem, rfl⟩
  rw [List.zip_eq_zipWith, List.zipWith_self, List.mem_map] at hpair
  obtain ⟨x, -, hx⟩ := hpair
  exact (Prod.mk.inj hx).1.symm.trans (Prod.mk.inj hx).2

theorem zip_of_mem {lines : List Line} {line : Line} (h : rows.length = lines.length)
    (hline : line ∈ lines) : ∃ e, (e, line) ∈ rows.zip lines := by
  obtain ⟨n, hn, rfl⟩ := List.getElem_of_mem hline
  have hn' : n < (rows.zip lines).length := by
    rw [List.length_zip, h, min_self]
    exact hn
  have hrow : n < rows.length := h ▸ hn
  refine ⟨rows[n], ?_⟩
  rw [← List.getElem_zip (h := hn')]
  exact List.getElem_mem hn'

/-- Each row gets the status on its own line exactly when lines with one payload agree. -/
theorem codeOf_listing (ext : String)
    (hlines : rows.map submitted = l.lines.map fun line => String.ofList line.payload) :
    (∀ x ∈ rows.zip l.lines, codeOf ext (l.text ends) x.1 = x.2.code) ↔
      ∀ a ∈ l.lines, ∀ b ∈ l.lines, a.payload = b.payload → a.code = b.code := by
  have hlength : rows.length = l.lines.length := by
    have h := congrArg List.length hlines
    rwa [List.length_map, List.length_map] at h
  have hcode : ∀ e, codeOf ext (l.text ends) e =
      (statusByPayload (l.lines.map Line.row) (submitted e)).getD "??" := by
    intro e
    simp only [codeOf, parseNokResponse, ite_self, (parse_text l ends).2]
  constructor
  · intro h a ha b hb hpayload
    obtain ⟨e, he⟩ := zip_of_mem hlength ha
    obtain ⟨f, hf⟩ := zip_of_mem hlength hb
    have hsame : submitted e = submitted f := by
      rw [submitted_zip hlines he, submitted_zip hlines hf, hpayload]
    rw [← h _ he, ← h _ hf, hcode, hcode, hsame]
  · rintro hagree ⟨e, a⟩ he
    have ha : a ∈ l.lines := (List.of_mem_zip he).2
    have hkey : ∀ b ∈ l.lines, b.row.settlementPayloadHex = String.ofList b.payload := by
      intro b hb
      obtain ⟨f, hf⟩ := zip_of_mem hlength hb
      change upper (String.ofList b.payload) = _
      rw [← submitted_zip hlines hf, submitted, upper_upper]
    have hlisted : ∃ row ∈ l.lines.map Line.row, row.settlementPayloadHex = submitted e :=
      ⟨a.row, List.mem_map_of_mem ha, (hkey a ha).trans (submitted_zip hlines he).symm⟩
    obtain ⟨row, hrow, hpayload, hstatus⟩ := statusByPayload_listed hlisted
    obtain ⟨b, hb, rfl⟩ := List.mem_map.mp hrow
    rw [hcode, hstatus, Option.getD_some]
    refine hagree b hb a ha ?_
    rw [hkey b hb, submitted_zip hlines he] at hpayload
    exact String.ofList_injective hpayload

end Listed

section Reconcile
variable {settings : SftpSettings} {trouble : Nat → Option (PollExc × Bool)} {s s' : Site}
  {out : Except PollExc PollOutcome} {i : Id} {r r' : EmoneySettlement} {ps : List BankReply}
  {p : BankReply}

theorem Polled.settlement (h : Polled settings s s' ps) :
    s'.settlement i = (s.settlement i).map (answeredRecord s.desk.world.db ps) := by
  rw [Site.settlement, h.db, settlements_answers h.once, List.find?_map]
  simp only [Function.comp_def, answeredRecord_id]
  rfl

/-- A settlement that does not stay UPLOADED has been answered. -/
theorem Polled.answered (h : Polled settings s s' ps)
    (hkeys : (s.desk.world.db.settlements.map (·.id)).Nodup) (hr : s.settlement i = some r)
    (hup : r.status = "UPLOADED") (hr' : s'.settlement i = some r')
    (hdone : r'.status ≠ "UPLOADED") :
    ∃ p ∈ ps, p.settlement = r ∧ r'.responseExtension = some p.ext := by
  rw [h.settlement, hr, Option.map_some] at hr'
  have hrecord : answeredRecord s.desk.world.db ps r = r' := Option.some.inj hr'
  unfold answeredRecord at hrecord
  split at hrecord
  · rename_i p hp
    have hid : p.settlement.id = r.id := by simpa using List.find?_some hp
    have hmem := List.mem_of_find?_eq_some hp
    refine ⟨p, hmem, List.inj_on_of_nodup_map hkeys (h.awaited p hmem).1
      (List.mem_of_find?_eq_some hr) hid, ?_⟩
    rw [← hrecord, BankReply.record, if_pos hid.symm]
  · exact absurd (hrecord ▸ hup) hdone

theorem Polled.bankStatus (h : Polled settings s s' ps)
    (hids : (s.desk.world.db.emoney.map (·.id)).Nodup) (hp : p ∈ ps) {e : EmoneyTransaction}
    (he : e ∈ s.rows p.settlement.id) : s'.bankStatus e.id = some (p.code e) := by
  obtain ⟨hmem, hbatch⟩ := List.mem_filter.mp he
  rw [Site.bankStatus, h.db, emoney_answers, List.find?_map]
  simp only [Function.comp_def, answers_id]
  rw [find_key hids hmem, Option.map_some, Option.bind_some,
    row_answers h.once hp (of_decide_eq_true hbatch),
    BankReply.row, if_pos (of_decide_eq_true hbatch)]

/-- When a poll has processed a settlement, each of its rows has the status on its own line of the
response exactly when lines with one payload agree. -/
theorem reconciled_iff {l : Listing} {ends : Bool} {ext raw : String} {rows : List EmoneyTransaction}
    (hids : (s.desk.world.db.emoney.map (·.id)).Nodup)
    (hkeys : (s.desk.world.db.settlements.map (·.id)).Nodup)
    (h : poll settings trouble s = (out, s'))
    (hr : s.settlement i = some r) (hup : r.status = "UPLOADED")
    (hr' : s'.settlement i = some r') (hdone : r'.status ≠ "UPLOADED")
    (hext : r'.responseExtension = some ext)
    (hraw : s.remote (responsePath settings.responseDir r.filename ext) = some raw)
    (htext : String.ofList (universalNewlines raw.toList) = l.text ends)
    (hrows : rows.Perm (s.rows i))
    (hlines : rows.map submitted = l.lines.map fun line => String.ofList line.payload) :
    (∀ x ∈ rows.zip l.lines, s'.bankStatus x.1.id = some x.2.code) ↔
      ∀ a ∈ l.lines, ∀ b ∈ l.lines, a.payload = b.payload → a.code = b.code := by
  obtain ⟨ps, hps⟩ := poll_polled hids hkeys h
  obtain ⟨p, hp, hsettlement, hpext⟩ := hps.answered hkeys hr hup hr' hdone
  have hsame : p.ext = ext := Option.some.inj (hpext.symm.trans hext)
  have hcontent : p.content = l.text ends := by
    obtain ⟨raw', hraw', -, hcontent⟩ := hps.fetched p hp
    rw [hsettlement, hsame, hraw] at hraw'
    rw [hcontent, ← Option.some.inj hraw', htext]
  have hstatus : ∀ x ∈ rows.zip l.lines,
      s'.bankStatus x.1.id = some (codeOf p.ext (l.text ends) x.1) := by
    intro x hx
    have hrow : x.1 ∈ s.rows p.settlement.id := by
      rw [hsettlement, Site.settlement_id hr]
      exact hrows.mem_iff.mp (List.of_mem_zip (a := x.1) (b := x.2) hx).1
    rw [hps.bankStatus hids hp hrow, BankReply.code, hcontent]
  rw [← @codeOf_listing _ _ ends p.ext hlines]
  refine forall₂_congr fun x hx => ?_
  rw [hstatus x hx, Option.some.injEq]

end Reconcile

section Answered

def line (payload : String) (status : Char × Char)
    (h : '\n' ∉ payload.toList ∧ isBlank status.1 = false ∧ isBlank status.2 = false) : Line :=
  ⟨payload.toList, status, h.1, h.2⟩

/-- The bank accepts the first row and refuses the second. -/
def accepted (p q : String) (hp : '\n' ∉ p.toList) (hq : '\n' ∉ q.toList) : Listing where
  trxType := ('0', '1')
  trxCount := 2
  lines := [line p ('0', '0') ⟨hp, by decide⟩, line q ('0', '2') ⟨hq, by decide⟩]
  type_ok := by decide
  count_ok := by decide

/-- A settlement of two rows, with the bank's response to it. -/
def answeredSite (p q : String) (hp : '\n' ∉ p.toList) (hq : '\n' ∉ q.toList) : Site where
  desk.world :=
    { db :=
        { settlements := [{ filed with status := "UPLOADED", uploadedAt := some 0 }]
          emoney :=
            [{ id := 1, emoneyReaderId := some 4, cardNumber := "6013500100", createdAt := 10
               amountDeducted := 6000, status := .success, settlementPayloadHex := some p
               settlementBatchId := some 1 },
             { id := 2, emoneyReaderId := some 4, cardNumber := "6013500200", createdAt := 20
               amountDeducted := 4000, status := .success, settlementPayloadHex := some q
               settlementBatchId := some 1 }] }
      nextTx := 1
      nextEmoney := 3
      now := 0 }
  remote := setKey (fun _ => none) (responsePath bank.responseDir filed.filename "OK")
    (some ((accepted p q hp hq).text true))

theorem reconciled_iff_distinct :
    let l := accepted "01AB" "01CD" (by decide) (by decide)
    let s := answeredSite "01AB" "01CD" (by decide) (by decide)
    let s' := (poll bank (fun _ => none) s).2
    (∀ x ∈ (s.rows 1).zip l.lines, s'.bankStatus x.1.id = some x.2.code) ↔
      ∀ a ∈ l.lines, ∀ b ∈ l.lines, a.payload = b.payload → a.code = b.code := by
  intro l s s'
  have hr : s.settlement 1 = some { filed with status := "UPLOADED", uploadedAt := some 0 } := by
    decide
  have hr' : s'.settlement 1 =
      some { filed with
        status := "PARTIAL", uploadedAt := some 0, responseReceivedAt := some 0
        responseExtension := some "OK" } := by decide
  have hraw : s.remote (responsePath bank.responseDir filed.filename "OK") = some (l.text true) := by
    decide
  have htext : String.ofList (universalNewlines (l.text true).toList) = l.text true := by decide
  have hrun : poll bank (fun _ => none) s = ((poll bank (fun _ => none) s).1, s') :=
    Prod.mk.eta.symm
  exact reconciled_iff (by decide) (by decide) hrun hr rfl hr' (by decide) rfl hraw htext
    (List.Perm.refl _) (by decide)

/-- The second status overwrites the first when the payloads are equal. -/
theorem repeated_payload_overwritten :
    let s := answeredSite "01AB" "01AB" (by decide) (by decide)
    let s' := (poll bank (fun _ => none) s).2
    (accepted "01AB" "01AB" (by decide) (by decide)).lines.map Line.code = ["00", "02"] ∧
      (s.rows 1).map (fun e => s'.bankStatus e.id) = [some "02", some "02"] ∧
      (s'.settlement 1).map (·.status) = some "ACKED_NOK" := by decide

end Answered
end Upload
end ParkIt
