import ParkIt.Upload.Reconcile

/-! The status of a settlement after a poll, beside the status of its rows. -/
namespace ParkIt.Upload

open Effects Settlement

section Extensions

/-- A settlement is answered with `OK` or with `NOK`. -/
def Answers : PollOp → Prop
  | .commit _ _ _ _ ext => ext = "OK" ∨ ext = "NOK"
  | _ => True

def answering : Protocol PollOp PollOp.Ans Unit where
  allow _ o := Answers o
  expect _ _ _ := True
  next _ _ _ := ()

theorem follows_askPoll {o : PollOp} (ho : Answers o) :
    Follows answering () (askPoll o) (fun _ _ => True) fun _ _ => True := by
  refine ⟨ho, fun a _ => ?_⟩
  rcases a with e | v <;> trivial

theorem follows_asking {o : PollOp} {α : Type} {k : o.Val → PollJob α} {post : Unit → α → Prop}
    (ho : Answers o) (hk : ∀ v, Follows answering () (k v) post fun _ _ => True) :
    Follows answering () (askPoll o >>= k) post fun _ _ => True :=
  (follows_askPoll ho).bind (fun _ _ h => h) fun _ v _ => hk v

theorem follows_fetchFirst (responseDir filename : String) (exts : List String) :
    Follows answering () (fetchFirst responseDir filename exts)
      (fun _ found => ∀ ext content, found = some (ext, content) → ext ∈ exts)
      fun _ _ => True := by
  induction exts with
  | nil =>
    intro ext content h
    cases h
  | cons ext exts ih =>
    have hrest : Follows answering () (fetchFirst responseDir filename exts)
        (fun _ found => ∀ ext' content, found = some (ext', content) → ext' ∈ ext :: exts)
        fun _ _ => True :=
      ih.mono (fun _ _ h ext' content hfound => List.mem_cons_of_mem _ (h ext' content hfound))
        fun _ _ h => h
    have hread : ∀ tmp, Follows answering ()
        ((askPoll (.read tmp)).handle fun e => do
          askPoll (.removeLocal tmp)
          Prog.raise e) (fun _ _ => True) fun _ _ => True := by
      intro tmp
      refine follows_handle.mpr ((follows_askPoll (o := .read tmp) trivial).mono (fun _ _ h => h) ?_)
      intro _ _ _
      exact follows_asking trivial fun _ => trivial
    unfold fetchFirst
    refine Follows.bind (?_ : Follows _ _ _ (fun _ _ => True) fun _ _ => True)
      (fun _ _ h => h) ?_
    · refine follows_handle.mpr (Follows.mono (?_ : Follows _ _ _ (fun _ _ => True) fun _ _ => True)
        (fun _ _ h => h) fun _ e _ => ?_)
      · exact follows_asking trivial fun _ => trivial
      · cases e <;> trivial
    · intro _ got _
      cases got with
      | false => exact hrest
      | true =>
        refine (hread _).bind (fun _ _ h => h) fun _ content _ => ?_
        refine follows_asking trivial fun _ => ?_
        intro ext' content' hfound
        cases hfound
        exact List.mem_cons_self

theorem follows_fetchResponseFile (settings : SftpSettings) (filename : String) :
    Follows answering () (fetchResponseFile settings filename)
      (fun _ found => ∀ ext content, found = some (ext, content) → ext = "OK" ∨ ext = "NOK")
      fun _ _ => True := by
  unfold fetchResponseFile
  refine follows_asking trivial fun _ => ?_
  refine follows_asking trivial fun _ => ?_
  have hfetch : Follows answering () ((fetchFirst settings.responseDir filename ["OK", "NOK"]).handle
      fun e => do
        askPoll .close
        Prog.raise e)
      (fun _ found => ∀ ext content, found = some (ext, content) → ext ∈ ["OK", "NOK"])
      fun _ _ => True :=
    follows_handle.mpr ((follows_fetchFirst settings.responseDir filename ["OK", "NOK"]).mono
      (fun _ _ h => h) fun _ _ _ => follows_asking trivial fun _ => trivial)
  refine hfetch.bind (fun _ _ h => h) fun _ found hfound => ?_
  refine follows_asking trivial fun _ => ?_
  intro ext content h
  simpa using hfound ext content h

theorem follows_pollEach (settings : SftpSettings) (rs : List EmoneySettlement) (n : PollCounts) :
    Follows answering () (pollEach settings rs n) (fun _ _ => True) fun _ _ => True := by
  induction rs generalizing n with
  | nil => trivial
  | cons r rs ih =>
    unfold pollEach
    refine Follows.bind (?_ : Follows _ _ _ (fun _ found => ∀ ext content,
      found = some (ext, content) → ext = "OK" ∨ ext = "NOK") fun _ _ => True) (fun _ _ h => h) ?_
    · refine follows_handle.mpr ((follows_fetchResponseFile settings r.filename).mono
        (fun _ _ h => h) fun _ _ _ => ?_)
      intro ext content h
      cases h
    · rintro _ (- | ⟨ext, content⟩) hfound
      · exact ih n
      · refine follows_asking trivial fun rows => ?_
        refine follows_asking trivial fun now => ?_
        refine follows_asking (hfound ext content rfl) fun _ => ?_
        exact ih _

theorem follows_pollSettlementResponses (settings : SftpSettings) :
    Follows answering () (pollSettlementResponses settings) (fun _ _ => True)
      fun _ _ => True := by
  unfold pollSettlementResponses
  split
  · trivial
  refine follows_asking trivial fun now => ?_
  refine follows_asking trivial fun pending => ?_
  exact (follows_pollEach settings pending {}).bind (fun _ _ h => h) fun _ _ _ => trivial

/-- A settlement stays as it is, or it says which response it has got. -/
def Extended (c c' : PollConn) : Prop :=
  ∀ r ∈ c'.site.desk.world.db.settlements, r ∈ c.site.desk.world.db.settlements ∨
    r.responseExtension = some "OK" ∨ r.responseExtension = some "NOK"

theorem Extended.refl (c : PollConn) : Extended c c := fun _ hr => Or.inl hr

theorem Extended.trans {c c' c'' : PollConn} (h : Extended c c') (h' : Extended c' c'') :
    Extended c c'' := fun r hr => (h' r hr).elim (h r) Or.inr

theorem extended_exec {trouble : Nat → Option (PollExc × Bool)} {o : PollOp} (ho : Answers o)
    (c : PollConn) : Extended c (execPoll trouble o c).2 := by
  by_cases hlooks : LooksOn o
  · intro r hr
    rw [(still_exec hlooks c).db] at hr
    exact Or.inl hr
  · cases o with
    | commit answers now i status ext =>
      have hrespond : Extended c ⟨c.site.respond answers now i status ext, c.step + 1⟩ := by
        intro r hr
        obtain ⟨r₀, hr₀, rfl⟩ := List.mem_map.mp hr
        split
        · rcases ho with rfl | rfl
          · exact Or.inr (Or.inl rfl)
          · exact Or.inr (Or.inr rfl)
        · exact Or.inl hr₀
      have hdone : Extended c ⟨(answer (.commit answers now i status ext) c.site).2, c.step + 1⟩ := by
        simp only [answer]
        split
        · exact hrespond
        · exact .refl c
      rcases execPoll_cases trouble (.commit answers now i status ext) c with h | ⟨e, s, h, rfl | rfl⟩
      · rw [h]
        exact hdone
      · rw [h]
        exact .refl c
      · rw [h]
        exact hdone
    | _ => exact (hlooks trivial).elim

theorem poll_extended {settings : SftpSettings} {trouble : Nat → Option (PollExc × Bool)}
    {s s' : Site} {out : Except PollExc PollOutcome} (h : poll settings trouble s = (out, s')) :
    ∀ r ∈ s'.desk.world.db.settlements, r ∈ s.desk.world.db.settlements ∨
      r.responseExtension = some "OK" ∨ r.responseExtension = some "NOK" := by
  have hrun : Extended ⟨s, 0⟩ ((pollSettlementResponses settings).run (execPoll trouble) ⟨s, 0⟩).2 :=
    (follows_pollSettlementResponses settings).run_rel (fun _ _ _ => trivial) Extended.refl
      (fun _ _ _ => Extended.trans) (fun _ _ c ho => extended_exec ho c) ⟨s, 0⟩
  have hsite : s' = ((pollSettlementResponses settings).run (execPoll trouble) ⟨s, 0⟩).2.site :=
    (congrArg Prod.snd h).symm
  rw [hsite]
  exact hrun

end Extensions

section Counts
variable {ext : String} {codes : List String} {results : List ResponseRow} {key : String}

theorem all_counted : codes.length - codes.count "00" = 0 ↔ ∀ c ∈ codes, c = "00" := by
  have hle : codes.count "00" ≤ codes.length := List.count_le_length
  constructor
  · intro h c hc
    have heq : codes.count "00" = codes.length := by omega
    exact (List.count_eq_length.mp heq c hc).symm
  · intro h
    have heq : codes.count "00" = codes.length :=
      List.count_eq_length.mpr fun c hc => (h c hc).symm
    omega

theorem none_counted : codes.count "00" = 0 ↔ ∀ c ∈ codes, c ≠ "00" := by
  rw [List.count_eq_zero]
  constructor
  · rintro h c hc rfl
    exact h hc
  · intro h hc
    exact h _ hc rfl

theorem verdict_nok_iff :
    verdict ext codes = "ACKED_NOK" ↔ ext = "NOK" ∨ ∀ c ∈ codes, c ≠ "00" := by
  rw [← none_counted]
  unfold verdict
  dsimp only
  split
  case isTrue h => simp [h]
  case isFalse h =>
    refine iff_of_false ?_ h
    split <;> decide

theorem verdict_ok_iff :
    verdict ext codes = "ACKED_OK" ↔ ext ≠ "NOK" ∧ codes ≠ [] ∧ ∀ c ∈ codes, c = "00" := by
  have hnone : codes ≠ [] → (∀ c ∈ codes, c = "00") → codes.count "00" ≠ 0 := by
    intro hne hall hzero
    obtain ⟨c, cs, rfl⟩ := List.exists_cons_of_ne_nil hne
    exact none_counted.mp hzero c List.mem_cons_self (hall c List.mem_cons_self)
  unfold verdict
  dsimp only
  split
  case isTrue h =>
    refine iff_of_false (by decide) ?_
    rintro ⟨hext, hne, hall⟩
    exact h.elim hext (hnone hne hall)
  case isFalse h =>
    rw [not_or] at h
    have hne : codes ≠ [] := by
      rintro rfl
      exact h.2 rfl
    rw [← all_counted]
    split
    case isTrue hall => simp [h.1, hne, hall]
    case isFalse hall => simp [hall]

theorem verdict_cases : verdict ext codes = "ACKED_OK" ∨ verdict ext codes = "ACKED_NOK" ∨
    verdict ext codes = "PARTIAL" := by
  unfold verdict
  dsimp only
  split
  · exact Or.inr (Or.inl rfl)
  · split
    · exact Or.inl rfl
    · exact Or.inr (Or.inr rfl)

theorem verdict_ne_uploaded : verdict ext codes ≠ "UPLOADED" := by
  rcases @verdict_cases ext codes with h | h | h <;> rw [h] <;> decide

theorem statusByPayload_unlisted (h : ∀ row ∈ results, row.settlementPayloadHex ≠ key) :
    statusByPayload results key = none := by
  induction results using List.reverseRecOn with
  | nil => rfl
  | append_singleton results last ih =>
    have hlast := h last (List.mem_append_right _ (List.mem_singleton_self last))
    rw [statusByPayload, List.foldl_append, List.foldl_cons, List.foldl_nil, setKey,
      if_neg hlast.symm]
    exact ih fun row hrow => h row (List.mem_append_left _ hrow)

end Counts

/-- The row has got the status that the response lists for its payload, or `??`. -/
structure Told (content : String) (e e' : EmoneyTransaction) : Prop where
  id : e'.id = e.id
  payload : e'.settlementPayloadHex = e.settlementPayloadHex
  status : (∃ row ∈ (parseOkResponse content).results,
      row.settlementPayloadHex = submitted e ∧ e'.bankResponseStatus = some row.status) ∨
    (∀ row ∈ (parseOkResponse content).results, row.settlementPayloadHex ≠ submitted e) ∧
      e'.bankResponseStatus = some "??"

/-- The status of a processed settlement, beside the response and the rows. -/
structure Matches (s s' : Site) (r' : EmoneySettlement) (ext content : String) : Prop where
  extension : ext = "OK" ∨ ext = "NOK"
  rows : List.Forall₂ (Told content) (s.rows r'.id) (s'.rows r'.id)
  ok : r'.status = "ACKED_OK" ↔
    ext = "OK" ∧ s'.rows r'.id ≠ [] ∧ ∀ e ∈ s'.rows r'.id, e.bankResponseStatus = some "00"
  nok : r'.status = "ACKED_NOK" ↔
    ext = "NOK" ∨ ∀ e ∈ s'.rows r'.id, e.bankResponseStatus ≠ some "00"
  otherwise : r'.status = "ACKED_OK" ∨ r'.status = "ACKED_NOK" ∨ r'.status = "PARTIAL"

section Matching
variable {settings : SftpSettings} {trouble : Nat → Option (PollExc × Bool)} {s s' : Site}
  {out : Except PollExc PollOutcome} {i : Id} {r : EmoneySettlement} {ps : List BankReply}
  {p : BankReply}

theorem answers_batch (e : EmoneyTransaction) :
    (ps.foldl (fun e p => p.row e) e).settlementBatchId = e.settlementBatchId := by
  induction ps generalizing e with
  | nil => rfl
  | cons q ps ih => exact (ih (q.row e)).trans (row_batch e)

theorem Polled.rows (h : Polled settings s s' ps) (i : Id) :
    s'.rows i = (s.rows i).map fun e => ps.foldl (fun e p => p.row e) e := by
  unfold Site.rows
  rw [h.db, emoney_answers, List.filter_map]
  simp only [Function.comp_def, answers_batch]

theorem Polled.rows_unanswered (h : Polled settings s s' ps)
    (hi : ∀ p ∈ ps, p.settlement.id ≠ i) : s'.rows i = s.rows i := by
  rw [h.rows]
  refine (List.map_congr_left fun e he => ?_).trans (List.map_id _)
  refine row_unanswered fun p hp hbatch => hi p hp ?_
  exact Option.some.inj (hbatch.symm.trans (of_decide_eq_true (List.mem_filter.mp he).2))

theorem Polled.settlement_unanswered (h : Polled settings s s' ps)
    (hi : ∀ p ∈ ps, p.settlement.id ≠ i) : s'.settlement i = s.settlement i := by
  rw [h.settlement]
  rcases hr : s.settlement i with - | r
  · rfl
  · rw [Option.map_some, answeredRecord, List.find?_eq_none.mpr fun p hp => ?_]
    rw [Site.settlement_id hr]
    simpa using hi p hp

theorem Polled.rows_answered (h : Polled settings s s' ps) (hp : p ∈ ps)
    (hi : p.settlement.id = i) : s'.rows i = (s.rows i).map p.row := by
  rw [h.rows]
  refine List.map_congr_left fun e he => row_answers h.once hp ?_
  rw [hi]
  exact of_decide_eq_true (List.mem_filter.mp he).2

theorem Polled.settlement_answered (h : Polled settings s s' ps) (hp : p ∈ ps)
    (hr : s.settlement p.settlement.id = some r) : s'.settlement p.settlement.id =
      some (p.record (verdict p.ext ((s.rows p.settlement.id).map p.code)) r) := by
  have hfind : (ps.find? fun q => decide (q.settlement.id = r.id)) = some p := by
    rw [Site.settlement_id hr]
    exact find_key h.once hp
  rw [h.settlement, hr, Option.map_some, answeredRecord, hfind]
  rfl

theorem told_row {e : EmoneyTransaction} (he : e ∈ s.rows p.settlement.id) :
    Told p.content e (p.row e) := by
  have hbatch : e.settlementBatchId = some p.settlement.id :=
    of_decide_eq_true (List.mem_filter.mp he).2
  have hstatus : (p.row e).bankResponseStatus = some (p.code e) := by
    rw [BankReply.row, if_pos hbatch]
  have hcode : p.code e =
      (statusByPayload (parseOkResponse p.content).results (submitted e)).getD "??" := by
    simp only [BankReply.code, codeOf, parseNokResponse, ite_self]
  refine ⟨row_id e, row_payload e, ?_⟩
  rw [hstatus, hcode]
  by_cases hlisted : ∃ row ∈ (parseOkResponse p.content).results,
      row.settlementPayloadHex = submitted e
  · obtain ⟨row, hrow, hpayload, hfound⟩ := statusByPayload_listed hlisted
    exact Or.inl ⟨row, hrow, hpayload, by rw [hfound, Option.getD_some]⟩
  · have hnone : ∀ row ∈ (parseOkResponse p.content).results,
        row.settlementPayloadHex ≠ submitted e :=
      fun row hrow hpayload => hlisted ⟨row, hrow, hpayload⟩
    exact Or.inr ⟨hnone, by rw [statusByPayload_unlisted hnone, Option.getD_none]⟩

theorem Polled.matches (h : Polled settings s s' ps) (hp : p ∈ ps)
    (hext : p.ext = "OK" ∨ p.ext = "NOK") (hr : r.id = p.settlement.id) :
    Matches s s' (p.record (verdict p.ext ((s.rows p.settlement.id).map p.code)) r)
      p.ext p.content := by
  have hid : (p.record (verdict p.ext ((s.rows p.settlement.id).map p.code)) r).id =
      p.settlement.id := (record_id _ _).trans hr
  have hstatus : (p.record (verdict p.ext ((s.rows p.settlement.id).map p.code)) r).status =
      verdict p.ext ((s.rows p.settlement.id).map p.code) := by
    rw [BankReply.record, if_pos hr]
  have hrows := h.rows_answered hp rfl
  have hcode : ∀ e ∈ s.rows p.settlement.id,
      (p.row e).bankResponseStatus = some (p.code e) := by
    intro e he
    rw [BankReply.row, if_pos (of_decide_eq_true (List.mem_filter.mp he).2)]
  have hall : (∀ c ∈ (s.rows p.settlement.id).map p.code, c = "00") ↔
      ∀ e ∈ s'.rows p.settlement.id, e.bankResponseStatus = some "00" := by
    rw [hrows, List.forall_mem_map, List.forall_mem_map]
    exact forall₂_congr fun e he => by rw [hcode e he, Option.some.injEq]
  have hnone : (∀ c ∈ (s.rows p.settlement.id).map p.code, c ≠ "00") ↔
      ∀ e ∈ s'.rows p.settlement.id, e.bankResponseStatus ≠ some "00" := by
    rw [hrows, List.forall_mem_map, List.forall_mem_map]
    exact forall₂_congr fun e he => by rw [hcode e he, ne_eq, ne_eq, Option.some.injEq]
  have hempty : (s.rows p.settlement.id).map p.code ≠ [] ↔ s'.rows p.settlement.id ≠ [] := by
    rw [hrows, ne_eq, ne_eq, List.map_eq_nil_iff, List.map_eq_nil_iff]
  have hok : p.ext ≠ "NOK" ↔ p.ext = "OK" := by
    rcases hext with h | h <;> rw [h] <;> decide
  refine ⟨hext, ?_, ?_, ?_, ?_⟩
  · rw [hid, hrows, List.forall₂_map_right_iff]
    exact List.forall₂_same.mpr fun e he => told_row he
  · rw [hid, hstatus, verdict_ok_iff, hall, hempty, hok]
  · rw [hid, hstatus, verdict_nok_iff, hnone]
  · rw [hstatus]
    exact verdict_cases

/-- The settlement has not been processed: it and its rows are as they were. -/
def Untouched (s s' : Site) (i : Id) : Prop :=
  s'.settlement i = s.settlement i ∧ s'.rows i = s.rows i

theorem Polled.untouched (h : Polled settings s s' ps) (hi : ∀ p ∈ ps, p.settlement.id ≠ i) :
    Untouched s s' i :=
  ⟨h.settlement_unanswered hi, h.rows_unanswered hi⟩

/-- Only settlements that await an answer are processed. -/
theorem poll_untouched (hids : (s.desk.world.db.emoney.map (·.id)).Nodup)
    (hkeys : (s.desk.world.db.settlements.map (·.id)).Nodup)
    (h : poll settings trouble s = (out, s')) (hr : s.settlement i = some r)
    (hdone : r.status ≠ "UPLOADED") : Untouched s s' i := by
  obtain ⟨ps, hps⟩ := poll_polled hids hkeys h
  refine hps.untouched fun p hp hid => hdone ?_
  have hsame : p.settlement = r := List.inj_on_of_nodup_map hkeys (hps.awaited p hp).1
    (List.mem_of_find?_eq_some hr) (hid.trans (Site.settlement_id hr).symm)
  exact hsame ▸ (hps.awaited p hp).2

end Matching
end ParkIt.Upload
