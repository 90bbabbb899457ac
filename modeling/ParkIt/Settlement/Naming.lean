import ParkIt.Settlement.Orderly

/-! Names, batch numbers and contents of the files of one day. -/
namespace ParkIt.Settlement

open Sessions Transition

section Filename
variable {t t' : DateTime} {mid mid' tid tid' : String} {n n' : Nat}

/-- MID and TID as they stand in the name. -/
def pad (mid tid : String) : String := zfill 16 mid ++ zfill 8 tid

theorem datePart_congr (h : t.date = t'.date) : datePart t.localTime = datePart t'.localTime := by
  simp only [datePart, DateTime.localTime, h]

/-- The time of day takes six places. -/
theorem length_clock (t : DateTime) :
    (padded 2 t.localTime.hour).length = 2 ∧ (padded 2 t.localTime.minute).length = 2 ∧
      (padded 2 t.localTime.second).length = 2 := by
  have hlow := Int.emod_nonneg (t.instant + t.offset) (b := DateTime.microsPerDay) (by decide)
  have hhigh := Int.emod_lt_of_pos (t.instant + t.offset) (b := DateTime.microsPerDay) (by decide)
  have hday : DateTime.microsPerDay = 86400000000 := by decide
  rw [hday] at hlow hhigh
  refine ⟨length_padded ?_ (by decide), length_padded ?_ (by decide),
    length_padded ?_ (by decide)⟩ <;>
    simp only [DateTime.localTime, hday] <;> omega

/-- The time of day and what follows it can be told apart in a name of the day. -/
theorem filename_split (hdate : t.date = t'.date)
    (h : generateFilename t.localTime mid tid n = generateFilename t'.localTime mid' tid' n') :
    (t.localTime.hour = t'.localTime.hour ∧ t.localTime.minute = t'.localTime.minute ∧
        t.localTime.second = t'.localTime.second) ∧
      (pad mid tid).toList ++ ("01".toList ++ ((padded 3 n).toList ++ ".txt".toList)) =
        (pad mid' tid').toList ++ ("01".toList ++ ((padded 3 n').toList ++ ".txt".toList)) := by
  obtain ⟨hhour, hminute, hsecond⟩ := length_clock t
  obtain ⟨hhour', hminute', hsecond'⟩ := length_clock t'
  have hlist := congrArg String.toList h
  simp only [generateFilename, datePart_congr hdate, String.toList_append, List.append_assoc]
    at hlist
  have hlist := List.append_cancel_left hlist
  obtain ⟨h₁, hlist⟩ := List.append_inj hlist (by simp only [String.length_toList, hhour, hhour'])
  obtain ⟨h₂, hlist⟩ := List.append_inj hlist
    (by simp only [String.length_toList, hminute, hminute'])
  obtain ⟨h₃, hlist⟩ := List.append_inj hlist
    (by simp only [String.length_toList, hsecond, hsecond'])
  refine ⟨⟨padded_injective (String.toList_inj.mp h₁), padded_injective (String.toList_inj.mp h₂),
    padded_injective (String.toList_inj.mp h₃)⟩, ?_⟩
  simpa only [pad, String.toList_append, List.append_assoc] using hlist

/-- A name shows the second. -/
theorem localTime_of_filename (hdate : t.date = t'.date)
    (h : generateFilename t.localTime mid tid n = generateFilename t'.localTime mid' tid' n') :
    t.localTime = t'.localTime := by
  obtain ⟨⟨hhour, hminute, hsecond⟩, -⟩ := filename_split hdate h
  have hdays : t.localTime.year = t'.localTime.year ∧ t.localTime.month = t'.localTime.month ∧
      t.localTime.day = t'.localTime.day := by
    simp only [DateTime.localTime, hdate, and_self]
  obtain ⟨hyear, hmonth, hday⟩ := hdays
  rcases ht : t.localTime with ⟨y, m, d, hh, mm, ss⟩
  rcases ht' : t'.localTime with ⟨y', m', d', hh', mm', ss'⟩
  simp only [ht, ht'] at hyear hmonth hday hhour hminute hsecond
  rw [hyear, hmonth, hday, hhour, hminute, hsecond]

/-- A name shows MID and TID and the batch number, where these keep to their places. -/
theorem generateFilename_inj (hdate : t.date = t'.date)
    (hplaces : (pad mid tid).length = (pad mid' tid').length ∨ n ≤ 999 ∧ n' ≤ 999)
    (h : generateFilename t.localTime mid tid n = generateFilename t'.localTime mid' tid' n') :
    pad mid tid = pad mid' tid' ∧ n = n' := by
  obtain ⟨-, hlist⟩ := filename_split hdate h
  have hsame : (pad mid tid).length = (pad mid' tid').length := by
    rcases hplaces with hsame | ⟨hn, hn'⟩
    · exact hsame
    · have htotal := congrArg List.length hlist
      have hthree : (padded 3 n).length = 3 := length_padded (by omega) (by decide)
      have hthree' : (padded 3 n').length = 3 := length_padded (by omega) (by decide)
      simp only [List.length_append, String.length_toList, hthree, hthree'] at htotal
      omega
  have hlength : (pad mid tid).toList.length = (pad mid' tid').toList.length := by
    rw [String.length_toList, String.length_toList, hsame]
  obtain ⟨hpad, hrest⟩ := List.append_inj hlist hlength
  have hnumber := List.append_cancel_right (List.append_cancel_left hrest)
  exact ⟨String.toList_inj.mp hpad, padded_injective (String.toList_inj.mp hnumber)⟩

end Filename
/-- The clock of Jakarta shows the day. -/
def OnDay (day : Int) (s : State) : Prop := (DateTime.mk s.world.now jakartaOffset).date = day

/-- The first instant after the day. -/
def dayEnd (day : Int) : Int := (day + 1) * DateTime.microsPerDay - jakartaOffset

/-- A batch counter of the day. -/
def CounterOf (day : Int) (key : String) : Prop :=
  ∃ (r : Id) (now : DateTime), now.date = day ∧ key = batchKey r (isoDate now.localTime)

/-- The counters of the day do not expire within it. -/
def Lasting (day : Int) (s : State) : Prop :=
  ∀ key n deadline, CounterOf day key → s.batches key = some (n, some deadline) →
    dayEnd day ≤ deadline

/-- The last number that the counter has issued. -/
def State.issuedUpTo (s : State) (key : String) : Nat := (s.batches key).elim 0 Prod.fst

section Counters
variable {day : Int} {key : String} {s s' : State} {ws ws' : List Write}

theorem lt_dayEnd (h : OnDay day s) : s.world.now < dayEnd day := by
  have hlt := Int.lt_ediv_add_one_mul_self (s.world.now + jakartaOffset)
    (b := DateTime.microsPerDay) (by decide)
  have hday : (s.world.now + jakartaOffset) / DateTime.microsPerDay = day := h
  rw [hday] at hlt
  exact lt_sub_iff_add_lt.mpr hlt

/-- Two days from any moment of the day is after it. -/
theorem dayEnd_le_expiry (h : OnDay day s) : dayEnd day ≤ s.world.expiry 172800 := by
  have hle := Int.ediv_mul_le (s.world.now + jakartaOffset) (b := DateTime.microsPerDay) (by decide)
  have hday : (s.world.now + jakartaOffset) / DateTime.microsPerDay = day := h
  rw [hday] at hle
  have hmicros : DateTime.microsPerDay = 86400000000 := by decide
  have hoffset : jakartaOffset = 25200000000 := by decide
  unfold dayEnd World.expiry microsPerSecond
  rw [hmicros, hoffset]
  rw [hmicros, hoffset] at hle
  omega

theorem batch_eq_issuedUpTo (hday : OnDay day s) (hlast : Lasting day s) (hkey : CounterOf day key) :
    s.batch key = s.issuedUpTo key := by
  unfold State.batch State.issuedUpTo
  rcases hb : s.batches key with _ | ⟨n, _ | deadline⟩
  · rfl
  · rfl
  · exact if_pos (lt_of_lt_of_le (lt_dayEnd hday) (hlast key n deadline hkey hb))

theorem exec_incr {a : Option Nat} {c : Conn}
    (h : exec (.incrBatch key) (s.conn ws) = (.ok a, c)) :
    c.committed.batches = s.batches ∧ a = none ∨
      ∃ deadline, c.committed.batches = setKey s.batches key (some (s.batch key + 1, deadline)) ∧
        (∀ d ∈ deadline, ∃ n, s.batches key = some (n, some d)) ∧ ∀ n ∈ a, n = s.batch key + 1 := by
  simp only [exec] at h
  split at h <;> cases h
  · exact Or.inl ⟨rfl, rfl⟩
  · refine Or.inr ⟨_, rfl, fun d hd => ?_, fun n hn => (Option.some.inj hn).symm⟩
    split at hd
    · cases hd
    · obtain ⟨b, hb, hd⟩ := Option.bind_eq_some_iff.mp hd
      exact ⟨b.1, hb.trans (congrArg some (Prod.ext rfl hd))⟩

theorem acts_now {a : DateTime} (h : Acts .now s ws a s' ws') :
    a = ⟨s.world.now, jakartaOffset⟩ := by
  cases h with
  | done h =>
    cases h
    rfl

/-- INCR takes the next number, whether or not its answer gets through. -/
theorem acts_incr {a : Option Nat} (h : Acts (.incrBatch key) s ws a s' ws') :
    s'.batches = s.batches ∧ a = none ∨
      ∃ deadline, s'.batches = setKey s.batches key (some (s.batch key + 1, deadline)) ∧
        (∀ d ∈ deadline, ∃ n, s.batches key = some (n, some d)) ∧ ∀ n ∈ a, n = s.batch key + 1 := by
  cases h with
  | done h => exact exec_incr h
  | numberLost h =>
    rcases exec_incr h with ⟨hbatches, -⟩ | ⟨deadline, hbatches, hdeadline, -⟩
    · exact Or.inl ⟨hbatches, rfl⟩
    · exact Or.inr ⟨deadline, hbatches, hdeadline, nofun⟩

theorem acts_expire {a : Unit} (h : Acts (.expireBatch key) s ws a s' ws') :
    s'.batches = s.batches ∨ s'.batches = setKey s.batches key
      ((s.batches key).map fun b => (b.1, some (s.world.expiry 172800))) := by
  rw [h.exec]
  by_cases hdown : s.world.redisDown = true
  · refine Or.inl ?_
    have hsame : (exec (.expireBatch key) (s.conn ws)).2 = s.conn ws := if_pos hdown
    rw [hsame]
    rfl
  · refine Or.inr ?_
    have hset : (exec (.expireBatch key) (s.conn ws)).2 = _ := if_neg hdown
    rw [hset]
    rfl

theorem Lasting.same (h : Lasting day s) (hsame : s'.batches = s.batches) : Lasting day s' := by
  unfold Lasting
  rw [hsame]
  exact h

theorem lasting_act {o : JobOp} {a : o.Ans} (hday : OnDay day s) (hlast : Lasting day s)
    (h : Acts o s ws a s' ws') : Lasting day s' := by
  by_cases hincr : ∃ key, o = .incrBatch key
  · obtain ⟨key, rfl⟩ := hincr
    rcases acts_incr h with ⟨hsame, -⟩ | ⟨deadline, hset, hkept, -⟩
    · exact hlast.same hsame
    · intro k n d hk hb
      rw [hset, setKey] at hb
      split at hb
      · rename_i heq
        obtain ⟨m, hm⟩ := hkept d (congrArg Prod.snd (Option.some.inj hb))
        exact hlast k m d hk (heq ▸ hm)
      · exact hlast k n d hk hb
  · by_cases hexpire : ∃ key, o = .expireBatch key
    · obtain ⟨key, rfl⟩ := hexpire
      rcases acts_expire h with hsame | hset
      · exact hlast.same hsame
      · intro k n d hk hb
        rw [hset, setKey] at hb
        split at hb
        · obtain ⟨b, -, heq⟩ := Option.map_eq_some_iff.mp hb
          cases heq
          exact dayEnd_le_expiry hday
        · exact hlast k n d hk hb
    · exact hlast.same (h.batches (fun key hkey => hincr ⟨key, hkey⟩)
        fun key hkey => hexpire ⟨key, hkey⟩)

/-- No counter of the day goes back. -/
theorem issuedUpTo_mono {o : JobOp} {a : o.Ans} (hday : OnDay day s) (hlast : Lasting day s)
    (hkey : ∀ key, o = .incrBatch key → CounterOf day key) (h : Acts o s ws a s' ws') (k : String) :
    s.issuedUpTo k ≤ s'.issuedUpTo k := by
  by_cases hincr : ∃ key, o = .incrBatch key
  · obtain ⟨key, rfl⟩ := hincr
    rcases acts_incr h with ⟨hsame, -⟩ | ⟨deadline, hset, -, -⟩
    · rw [State.issuedUpTo, State.issuedUpTo, hsame]
    · rw [State.issuedUpTo, State.issuedUpTo, hset, setKey]
      split
      · rename_i heq
        have hbatch := batch_eq_issuedUpTo hday hlast (hkey key rfl)
        rw [heq, hbatch]
        exact Nat.le_succ _
      · exact le_rfl
  · by_cases hexpire : ∃ key, o = .expireBatch key
    · obtain ⟨key, rfl⟩ := hexpire
      rcases acts_expire h with hsame | hset
      · rw [State.issuedUpTo, State.issuedUpTo, hsame]
      · rw [State.issuedUpTo, State.issuedUpTo, hset, setKey]
        split
        · rename_i heq
          rw [heq]
          rcases s.batches key with _ | b <;> exact le_rfl
        · exact le_rfl
    · rw [State.issuedUpTo, State.issuedUpTo, h.batches (fun key hkey => hincr ⟨key, hkey⟩)
        fun key hkey => hexpire ⟨key, hkey⟩]

/-- A number that is answered is the next one. -/
theorem incr_answer {n : Nat} (hday : OnDay day s) (hlast : Lasting day s)
    (hkey : CounterOf day key) (h : Acts (.incrBatch key) s ws (some n) s' ws') :
    s.issuedUpTo key < n ∧ n ≤ s'.issuedUpTo key := by
  rcases acts_incr h with ⟨-, hnone⟩ | ⟨deadline, hset, -, hn⟩
  · cases hnone
  · rw [hn n rfl, State.issuedUpTo, State.issuedUpTo, hset, setKey, if_pos rfl,
      batch_eq_issuedUpTo hday hlast hkey]
    exact ⟨Nat.lt_succ_self _, le_rfl⟩

end Counters

/-- The counter and the number that Redis gave the file. -/
def Draft.claim (d : Draft) : Option (String × Nat) := d.issued.map fun n => (d.key, n)

/-- Jobs and files are of the day. -/
structure Dated {ι : Type} (day : Int) (s : JobSys ι) : Prop where
  jobs : ∀ j x, s.session j = some x → x.note.dated = true → x.note.now.date = day
  files : ∀ d ∈ written s.log, d.now.date = day

/-- Every number is given once, to a job and then to its file. -/
structure Claimed {ι : Type} (s : JobSys ι) : Prop where
  counted : ∀ d ∈ written s.log, ∀ c ∈ d.claim, c.2 ≤ s.shared.issuedUpTo c.1
  held : ∀ j x, s.session j = some x → ∀ c ∈ x.note.draft.claim, c.2 ≤ s.shared.issuedUpTo c.1
  once : ((written s.log).filterMap Draft.claim).Nodup
  filedOnce : ((filed s.log).filterMap fun p => p.1.claim).Nodup
  filedWritten : ∀ p ∈ filed s.log, p.1 ∈ written s.log
  begun : ∀ j x, s.session j = some x → x.note.written = true → x.note.draft ∈ written s.log
  unwritten : ∀ j x, s.session j = some x → x.note.written = false →
    ∀ c ∈ x.note.draft.claim, c ∉ (written s.log).filterMap Draft.claim
  unfiled : ∀ j x, s.session j = some x → ∀ c ∈ x.note.draft.claim,
    c ∉ (filed s.log).filterMap fun p => p.1.claim
  apart : ∀ j k x y, s.session j = some x → s.session k = some y → j ≠ k →
    ∀ c ∈ x.note.draft.claim, c ∉ y.note.draft.claim

/-- How many files have been begun under the name of this one. -/
def begun (log : List Entry) (d : Draft) : Nat := (written log).countP fun w => decide (w.path = d.path)

/-- A file is as it was written, unless its name has been used again. -/
def Kept {ι : Type} (s : JobSys ι) (d : Draft) : Prop :=
  begun s.log d ≤ 1 → s.shared.files d.path = some d.content

structure Intact {ι : Type} (s : JobSys ι) : Prop where
  filed : ∀ p ∈ filed s.log, Kept s p.1
  begun : ∀ j x, s.session j = some x → x.note.written = true → Kept s x.note.draft

section Log
variable {log : List Entry} {g : Note} {o : JobOp} {a : Option o.Ans}

theorem written_entries (ho : ∀ path content, o ≠ .writeFile path content) :
    written (log ++ entries g o a) = written log := by
  have hnone : written (entries g o a) = [] := by
    cases o with
    | writeFile path content => exact absurd rfl (ho path content)
    | commit =>
      cases a with
      | none => rfl
      | some a =>
        simp only [entries]
        rcases g.record with _ | i <;> rfl
    | _ => rfl
  rw [written, List.filterMap_append]
  exact (congrArg (written log ++ ·) hnone).trans (List.append_nil _)

theorem written_write {path content : String} {a : Option Unit} :
    written (log ++ entries g (.writeFile path content) a) = written log ++ [g.draft] := by
  rw [written, List.filterMap_append]
  rfl

theorem filed_entries (ho : o ≠ .commit) : filed (log ++ entries g o a) = filed log := by
  have hnone : filed (entries g o a) = [] := by
    cases o with
    | commit => exact absurd rfl ho
    | _ => rfl
  rw [filed, List.filterMap_append]
  exact (congrArg (filed log ++ ·) hnone).trans (List.append_nil _)

theorem filed_failed : filed (log ++ entries g o none) = filed log := by
  have hnone : filed (entries g o none) = [] := by
    cases o <;> rfl
  rw [filed, List.filterMap_append]
  exact (congrArg (filed log ++ ·) hnone).trans (List.append_nil _)

theorem filed_commit {i : Id} {a : Unit} (h : g.record = some i) :
    filed (log ++ entries g .commit (some a)) = filed log ++ [(g.draft, i)] := by
  have hentry : entries g .commit (some a) = [.filed g.draft i] := by
    simp only [entries, h]
  rw [filed, List.filterMap_append, hentry]
  rfl

theorem Note.Clear.unclaimed (h : g.Clear) : g.draft.claim = none ∧ g.written = false :=
  ⟨congrArg (Option.map fun n => (g.draft.key, n)) h.1, h.2.1⟩

/-- The next file of a job is settled step by step. -/
theorem next_draft {sha256 : String → String} {a : o.Ans} (hallow : (protocol sha256).allow g o)
    (hincr : ∀ key, o ≠ .incrBatch key) (hwrite : ∀ path content, o ≠ .writeFile path content)
    (hcommit : o ≠ .commit) :
    (((protocol sha256).next g o a).draft.claim = none ∧
      ((protocol sha256).next g o a).written = false) ∨
    ((protocol sha256).next g o a).draft = g.draft ∧
      ((protocol sha256).next g o a).written = g.written := by
  cases o with
  | incrBatch key => exact absurd rfl (hincr key)
  | writeFile path content => exact absurd rfl (hwrite path content)
  | commit => exact absurd rfl hcommit
  | now =>
    have hclear : Note.Clear { g with now := a, dated := true } := hallow.2
    exact Or.inl hclear.unclaimed
  | reader i =>
    have hclear : ((protocol sha256).next g (.reader i) a).Clear := hallow.2
    exact Or.inl hclear.unclaimed
  | unsettled r =>
    have hclear : Note.Clear { g with rows := a } := hallow.1.2
    exact Or.inl hclear.unclaimed
  | _ => exact Or.inr ⟨rfl, rfl⟩

end Log

section Claims
variable {ι : Type} {sha256 : String → String} {s₀ : State} {s t : JobSys ι}
  {l : Label ι JobOp} {j : ι} {ws : List Write} {day : Int}
  {x : Session JobOp JobOp.Ans JobExc Outcome (List Write) Note}

theorem dated_step [DecidableEq ι] (h : Step (jobs sha256) s l t) (hkeep : InProtocol (jobs sha256) s)
    (hday : OnDay day s.shared) (hs : Dated day s) : Dated day t := by
  have hfile : ∀ {g : Note}, (g.dated = true → g.now.date = day) → g.dated = true →
      ∀ d ∈ written s.log ++ [g.draft], d.now.date = day := by
    intro g hg hdated d hd
    rcases List.mem_append.mp hd with hd | hd
    · exact hs.files d hd
    · rw [List.mem_singleton.mp hd]
      exact hg hdated
  cases move_of_step h hkeep with
  | idle _ hlog hafter =>
    refine ⟨fun k y hy hdated => ?_, hlog ▸ hs.files⟩
    rcases hafter k y hy with hy | hy
    · exact hs.jobs k y hy hdated
    · rw [hy] at hdated
      cases hdated
  | outside _ hlog hsession => exact ⟨hsession ▸ hs.jobs, hlog ▸ hs.files⟩
  | @failed t j x o hf =>
    refine ⟨fun k y hy => hs.jobs k y (hf.after k y hy).2, ?_⟩
    rw [hf.log]
    by_cases hwrite : ∃ path content, o = .writeFile path content
    · obtain ⟨path, content, rfl⟩ := hwrite
      rw [written_write]
      exact hfile (hs.jobs j x hf.session) hf.allow.1.1
    · rw [written_entries fun path content ho => hwrite ⟨path, content, ho⟩]
      exact hs.files
  | @went t j x o a ws hw =>
    refine ⟨fun k y hy hdated => ?_, ?_⟩
    · rcases hw.after k y hy with ⟨rfl, hy⟩ | ⟨-, hy⟩
      · rw [hy] at hdated ⊢
        have hold := hs.jobs _ _ hw.session
        cases o with
        | now =>
          rw [acts_now hw.act]
          exact hday
        | _ => exact hold hdated
      · exact hs.jobs k y hy hdated
    · rw [hw.log]
      by_cases hwrite : ∃ path content, o = .writeFile path content
      · obtain ⟨path, content, rfl⟩ := hwrite
        rw [written_write]
        exact hfile (hs.jobs j x hw.session) hw.allow.1.1
      · rw [written_entries fun path content ho => hwrite ⟨path, content, ho⟩]
        exact hs.files

theorem claimed_inherits (hs : Claimed s)
    (hmono : ∀ k, s.shared.issuedUpTo k ≤ t.shared.issuedUpTo k)
    (hwritten : written t.log = written s.log) (hfiled : filed t.log = filed s.log)
    (hafter : ∀ k y, t.session k = some y →
      (y.note.draft.claim = none ∧ y.note.written = false) ∨
        ∃ x, s.session k = some x ∧ y.note.draft = x.note.draft ∧
          y.note.written = x.note.written) : Claimed t := by
  have hclaim : ∀ k y, t.session k = some y → ∀ c ∈ y.note.draft.claim,
      ∃ x, s.session k = some x ∧ y.note.draft = x.note.draft ∧
        y.note.written = x.note.written := by
    intro k y hy c hc
    rcases hafter k y hy with ⟨hnone, -⟩ | h
    · rw [hnone] at hc
      cases hc
    · exact h
  refine ⟨fun d hd c hc => ?_, fun k y hy c hc => ?_, hwritten ▸ hs.once, hfiled ▸ hs.filedOnce,
    ?_, fun k y hy hw => ?_, fun k y hy hw c hc => ?_, fun k y hy c hc => ?_,
    fun k k' y y' hy hy' hne c hc hc' => ?_⟩
  · exact (hs.counted d (hwritten ▸ hd) c hc).trans (hmono _)
  · obtain ⟨x, hx, hdraft, -⟩ := hclaim k y hy c hc
    exact (hs.held k x hx c (hdraft ▸ hc)).trans (hmono _)
  · rw [hwritten, hfiled]
    exact hs.filedWritten
  · rw [hwritten]
    rcases hafter k y hy with ⟨-, hnot⟩ | ⟨x, hx, hdraft, hsame⟩
    · exact absurd (hnot.symm.trans hw) nofun
    · rw [hdraft]
      exact hs.begun k x hx (hsame.symm.trans hw)
  · rw [hwritten]
    obtain ⟨x, hx, hdraft, hsame⟩ := hclaim k y hy c hc
    exact hs.unwritten k x hx (hsame.symm.trans hw) c (hdraft ▸ hc)
  · rw [hfiled]
    obtain ⟨x, hx, hdraft, -⟩ := hclaim k y hy c hc
    exact hs.unfiled k x hx c (hdraft ▸ hc)
  · obtain ⟨x, hx, hdraft, -⟩ := hclaim k y hy c hc
    obtain ⟨x', hx', hdraft', -⟩ := hclaim k' y' hy' c hc'
    exact hs.apart k k' x x' hx hx' hne c (hdraft ▸ hc) (hdraft' ▸ hc')

theorem counterOf_draft (hs : Dated day s) (hx : s.session j = some x)
    (hdated : x.note.dated = true) : CounterOf day x.note.draft.key :=
  ⟨x.note.readerId, x.note.now, hs.jobs j x hx hdated, rfl⟩

/-- The number that a job is given is above all that were given before. -/
theorem claimed_incr {key : String} {a : Option Nat} (hs : Claimed s) (hday : OnDay day s.shared)
    (hlast : Lasting day s.shared) (hdate : Dated day s)
    (hw : Went sha256 s t j x (.incrBatch key) a ws) : Claimed t := by
  obtain ⟨⟨hdated, hclear⟩, rfl⟩ := hw.allow
  have hkey := counterOf_draft hdate hw.session hdated
  have hmono : ∀ k, s.shared.issuedUpTo k ≤ t.shared.issuedUpTo k := by
    refine issuedUpTo_mono hday hlast (fun k hk => ?_) hw.act
    cases hk
    exact hkey
  have hwritten : written t.log = written s.log := by
    rw [hw.log]
    exact written_entries fun _ _ h => JobOp.noConfusion h
  have hfiled : filed t.log = filed s.log := by
    rw [hw.log]
    exact filed_entries fun h => JobOp.noConfusion h
  cases a with
  | none =>
    refine claimed_inherits hs hmono hwritten hfiled fun k y hy => ?_
    rcases hw.after k y hy with ⟨-, hy⟩ | ⟨-, hy⟩
    · rw [hy]
      exact Or.inl ⟨rfl, hclear.2.1⟩
    · exact Or.inr ⟨y, hy, rfl, rfl⟩
  | some n =>
    obtain ⟨hlt, hle⟩ := incr_answer hday hlast hkey hw.act
    have hcases : ∀ k y, t.session k = some y → ∀ c ∈ y.note.draft.claim,
        (k = j ∧ c = (x.note.draft.key, n) ∧ y.note.written = false) ∨
          k ≠ j ∧ s.session k = some y := by
      intro k y hy c hc
      rcases hw.after k y hy with ⟨hk, hy⟩ | hy
      · rw [hy] at hc ⊢
        exact Or.inl ⟨hk, (Option.some.inj hc).symm, hclear.2.1⟩
      · exact Or.inr hy
    have hnew : ∀ c : String × Nat, c.2 ≤ s.shared.issuedUpTo c.1 → c ≠ (x.note.draft.key, n) := by
      rintro c hc rfl
      exact absurd hlt (not_lt.mpr hc)
    have hfresh : (x.note.draft.key, n) ∉ (written s.log).filterMap Draft.claim := by
      intro hmem
      obtain ⟨d, hd, hc⟩ := List.mem_filterMap.mp hmem
      exact hnew _ (hs.counted d hd _ hc) rfl
    refine ⟨fun d hd c hc => ?_, fun k y hy c hc => ?_, hwritten ▸ hs.once, hfiled ▸ hs.filedOnce,
      ?_, fun k y hy hw' => ?_, fun k y hy hw' c hc => ?_, fun k y hy c hc => ?_,
      fun k k' y y' hy hy' hne c hc hc' => ?_⟩
    · exact (hs.counted d (hwritten ▸ hd) c hc).trans (hmono _)
    · rcases hcases k y hy c hc with ⟨-, rfl, -⟩ | ⟨-, hy⟩
      · exact hle
      · exact (hs.held k y hy c hc).trans (hmono _)
    · rw [hwritten, hfiled]
      exact hs.filedWritten
    · rw [hwritten]
      rcases hw.after k y hy with ⟨-, hy⟩ | ⟨-, hy⟩
      · rw [hy] at hw'
        exact absurd (hclear.2.1.symm.trans hw') nofun
      · exact hs.begun k y hy hw'
    · rw [hwritten]
      rcases hcases k y hy c hc with ⟨-, rfl, -⟩ | ⟨-, hy⟩
      · exact hfresh
      · exact hs.unwritten k y hy hw' c hc
    · rw [hfiled]
      rcases hcases k y hy c hc with ⟨-, rfl, -⟩ | ⟨-, hy⟩
      · intro hmem
        obtain ⟨p, hp, hc⟩ := List.mem_filterMap.mp hmem
        exact hnew _ (hs.counted p.1 (hs.filedWritten p hp) _ hc) rfl
      · exact hs.unfiled k y hy c hc
    · rcases hcases k y hy c hc with ⟨hk, hc, -⟩ | ⟨hk, hy⟩ <;>
        rcases hcases k' y' hy' c hc' with ⟨hk', hc', -⟩ | ⟨hk', hy'⟩
      · exact hne (hk.trans hk'.symm)
      · exact hnew c (hs.held k' y' hy' c ‹_›) hc
      · exact hnew c (hs.held k y hy c ‹_›) hc'
      · exact hs.apart k k' y y' hy hy' hne c ‹_› ‹_›

/-- A file takes its number along, also when it cannot be written to its end. -/
theorem claimed_write (hs : Claimed s) (hx : s.session j = some x)
    (hnot : x.note.written = false)
    (hmono : ∀ k, s.shared.issuedUpTo k ≤ t.shared.issuedUpTo k)
    (hwritten : written t.log = written s.log ++ [x.note.draft]) (hfiled : filed t.log = filed s.log)
    (hafter : ∀ k y, t.session k = some y →
      (k = j ∧ y.note.draft = x.note.draft ∧ y.note.written = true) ∨
        k ≠ j ∧ s.session k = some y) : Claimed t := by
  have hdraft : ∀ k y, t.session k = some y →
      ∃ z, s.session k = some z ∧ y.note.draft = z.note.draft := by
    intro k y hy
    rcases hafter k y hy with ⟨rfl, hsame, -⟩ | ⟨-, hy⟩
    · exact ⟨x, hx, hsame⟩
    · exact ⟨y, hy, rfl⟩
  refine ⟨fun d hd c hc => ?_, fun k y hy c hc => ?_, ?_, hfiled ▸ hs.filedOnce,
    fun p hp => ?_, fun k y hy hw => ?_, fun k y hy hw c hc hmem => ?_, fun k y hy c hc => ?_,
    fun k k' y y' hy hy' hne c hc hc' => ?_⟩
  · rw [hwritten] at hd
    refine le_trans ?_ (hmono _)
    rcases List.mem_append.mp hd with hd | hd
    · exact hs.counted d hd c hc
    · rw [List.mem_singleton.mp hd] at hc
      exact hs.held j x hx c hc
  · obtain ⟨z, hz, hsame⟩ := hdraft k y hy
    exact (hs.held k z hz c (hsame ▸ hc)).trans (hmono _)
  · rw [hwritten, List.filterMap_append]
    refine List.nodup_append.mpr ⟨hs.once, ?_, fun c hc c' hc' heq => ?_⟩
    · rcases hclaim : x.note.draft.claim with _ | c <;> simp [hclaim]
    · obtain ⟨d, hd, hc'⟩ := List.mem_filterMap.mp hc'
      rw [List.mem_singleton.mp hd] at hc'
      exact hs.unwritten j x hx hnot c' hc' (heq ▸ hc)
  · rw [hfiled] at hp
    rw [hwritten]
    exact List.mem_append_left _ (hs.filedWritten p hp)
  · rw [hwritten]
    rcases hafter k y hy with ⟨-, hsame, -⟩ | ⟨-, hy⟩
    · rw [hsame]
      exact List.mem_append_right _ List.mem_cons_self
    · exact List.mem_append_left _ (hs.begun k y hy hw)
  · rcases hafter k y hy with ⟨-, -, hyes⟩ | ⟨hk, hy⟩
    · exact absurd (hw.symm.trans hyes) nofun
    · rw [hwritten, List.filterMap_append] at hmem
      rcases List.mem_append.mp hmem with hmem | hmem
      · exact hs.unwritten k y hy hw c hc hmem
      · obtain ⟨d, hd, hc'⟩ := List.mem_filterMap.mp hmem
        rw [List.mem_singleton.mp hd] at hc'
        exact hs.apart k j y x hy hx hk c hc hc'
  · rw [hfiled]
    obtain ⟨z, hz, hsame⟩ := hdraft k y hy
    exact hs.unfiled k z hz c (hsame ▸ hc)
  · obtain ⟨z, hz, hsame⟩ := hdraft k y hy
    obtain ⟨z', hz', hsame'⟩ := hdraft k' y' hy'
    exact hs.apart k k' z z' hz hz' hne c (hsame ▸ hc) (hsame' ▸ hc')

theorem claimed_commit {a : Unit} (hs : Claimed s) (horder : InOrder sha256 x.own x.note)
    (hw : Went sha256 s t j x .commit a ws) : Claimed t := by
  have hlinked : x.note.linked = true := hw.allow
  obtain ⟨i, hi⟩ := Option.ne_none_iff_exists'.mp (horder.record hlinked)
  have hdone : x.note.written = true := horder.written (by rw [hi]; exact Option.some_ne_none i)
  have hbatches : t.shared.batches = s.shared.batches := hw.act.batches nofun nofun
  have hwritten : written t.log = written s.log := by
    rw [hw.log]
    exact written_entries fun _ _ h => JobOp.noConfusion h
  have hfiled : filed t.log = filed s.log ++ [(x.note.draft, i)] := by
    rw [hw.log, filed_commit hi]
  have hcounts : ∀ k, t.shared.issuedUpTo k = s.shared.issuedUpTo k := by
    intro k
    rw [State.issuedUpTo, State.issuedUpTo, hbatches]
  have hothers : ∀ k y, t.session k = some y →
      (y.note.draft.claim = none ∧ y.note.written = false) ∨ k ≠ j ∧ s.session k = some y := by
    intro k y hy
    rcases hw.after k y hy with ⟨-, hy⟩ | hy
    · rw [hy]
      exact Or.inl ⟨rfl, rfl⟩
    · exact Or.inr hy
  have hclaim : ∀ k y, t.session k = some y → ∀ c ∈ y.note.draft.claim,
      k ≠ j ∧ s.session k = some y := by
    intro k y hy c hc
    rcases hothers k y hy with ⟨hnone, -⟩ | hy
    · rw [hnone] at hc
      cases hc
    · exact hy
  refine ⟨fun d hd c hc => ?_, fun k y hy c hc => ?_, hwritten ▸ hs.once, ?_, fun p hp => ?_,
    fun k y hy hw' => ?_, fun k y hy hw' c hc => ?_, fun k y hy c hc hmem => ?_,
    fun k k' y y' hy hy' hne c hc hc' => ?_⟩
  · rw [hcounts]
    exact hs.counted d (hwritten ▸ hd) c hc
  · rw [hcounts]
    exact hs.held k y (hclaim k y hy c hc).2 c hc
  · rw [hfiled, List.filterMap_append]
    refine List.nodup_append.mpr ⟨hs.filedOnce, ?_, fun c hc c' hc' heq => ?_⟩
    · rcases hclaim : x.note.draft.claim with _ | c <;> simp [hclaim]
    · obtain ⟨p, hp, hc'⟩ := List.mem_filterMap.mp hc'
      rw [List.mem_singleton.mp hp] at hc'
      exact hs.unfiled j x hw.session c' hc' (heq ▸ hc)
  · rw [hfiled] at hp
    rw [hwritten]
    rcases List.mem_append.mp hp with hp | hp
    · exact hs.filedWritten p hp
    · rw [List.mem_singleton.mp hp]
      exact hs.begun j x hw.session hdone
  · rw [hwritten]
    rcases hothers k y hy with ⟨-, hnot⟩ | ⟨-, hy⟩
    · exact absurd (hnot.symm.trans hw') nofun
    · exact hs.begun k y hy hw'
  · rw [hwritten]
    exact hs.unwritten k y (hclaim k y hy c hc).2 hw' c hc
  · obtain ⟨hk, hy⟩ := hclaim k y hy c hc
    rw [hfiled, List.filterMap_append] at hmem
    rcases List.mem_append.mp hmem with hmem | hmem
    · exact hs.unfiled k y hy c hc hmem
    · obtain ⟨p, hp, hc'⟩ := List.mem_filterMap.mp hmem
      rw [List.mem_singleton.mp hp] at hc'
      exact hs.apart k j y x hy hw.session hk c hc hc'
  · exact hs.apart k k' y y' (hclaim k y hy c hc).2 (hclaim k' y' hy' c hc').2 hne c hc hc'

theorem issuedUpTo_congr {s s' : State} (h : s'.batches = s.batches) (k : String) :
    s'.issuedUpTo k = s.issuedUpTo k := by
  rw [State.issuedUpTo, State.issuedUpTo, h]

theorem claimed_step [DecidableEq ι] (h : Step (jobs sha256) s l t)
    (hkeep : InProtocol (jobs sha256) s) (horder : Each (InOrder sha256) s) (hday : OnDay day s.shared)
    (hlast : Lasting day s.shared) (hdate : Dated day s) (hs : Claimed s) : Claimed t := by
  cases move_of_step h hkeep with
  | idle hshared hlog hafter =>
    refine claimed_inherits hs (fun k => by rw [hshared]) (by rw [hlog]) (by rw [hlog])
      fun k y hy => ?_
    rcases hafter k y hy with hy | hy
    · exact Or.inr ⟨y, hy, rfl, rfl⟩
    · rw [hy]
      exact Or.inl ⟨rfl, rfl⟩
  | outside ho hlog hsession =>
    exact claimed_inherits hs (fun k => (issuedUpTo_congr ho.batches k).ge) (by rw [hlog])
      (by rw [hlog]) fun k y hy => Or.inr ⟨y, hsession ▸ hy, rfl, rfl⟩
  | @failed t j x o hf =>
    have hmono := fun k => (issuedUpTo_congr hf.fails.batches k).ge
    have hfiled : filed t.log = filed s.log := by rw [hf.log, filed_failed]
    by_cases hwrite : ∃ path content, o = .writeFile path content
    · obtain ⟨path, content, rfl⟩ := hwrite
      exact claimed_write hs hf.session hf.allow.1.2.2.1 hmono (by rw [hf.log, written_write]) hfiled
        fun k y hy => Or.inr (hf.after k y hy)
    · have hwritten : written t.log = written s.log := by
        rw [hf.log, written_entries fun path content ho => hwrite ⟨path, content, ho⟩]
      exact claimed_inherits hs hmono hwritten hfiled
        fun k y hy => Or.inr ⟨y, (hf.after k y hy).2, rfl, rfl⟩
  | @went t j x o a ws hw =>
    by_cases hincr : ∃ key, o = .incrBatch key
    · obtain ⟨key, rfl⟩ := hincr
      exact claimed_incr hs hday hlast hdate hw
    by_cases hcommit : o = .commit
    · subst hcommit
      exact claimed_commit hs (horder j x hw.session) hw
    have hmono := issuedUpTo_mono hday hlast (fun key hkey => absurd ⟨key, hkey⟩ hincr) hw.act
    have hfiled : filed t.log = filed s.log := by rw [hw.log, filed_entries hcommit]
    by_cases hwrite : ∃ path content, o = .writeFile path content
    · obtain ⟨path, content, rfl⟩ := hwrite
      refine claimed_write hs hw.session hw.allow.1.2.2.1 hmono (by rw [hw.log, written_write])
        hfiled fun k y hy => ?_
      rcases hw.after k y hy with ⟨hk, hy⟩ | hy
      · rw [hy]
        exact Or.inl ⟨hk, rfl, rfl⟩
      · exact Or.inr hy
    · have hwrite : ∀ path content, o ≠ .writeFile path content :=
        fun path content ho => hwrite ⟨path, content, ho⟩
      refine claimed_inherits hs hmono (by rw [hw.log, written_entries hwrite]) hfiled
        fun k y hy => ?_
      rcases hw.after k y hy with ⟨rfl, hy⟩ | ⟨-, hy⟩
      · rw [hy]
        rcases next_draft hw.allow (fun key hkey => hincr ⟨key, hkey⟩) hwrite hcommit with hnone | hsame
        · exact Or.inl hnone
        · exact Or.inr ⟨x, hw.session, hsame.1, hsame.2⟩
      · exact Or.inr ⟨y, hy, rfl, rfl⟩

theorem lasting_step [DecidableEq ι] (h : Step (jobs sha256) s l t)
    (hkeep : InProtocol (jobs sha256) s) (hday : OnDay day s.shared) (hs : Lasting day s.shared) :
    Lasting day t.shared := by
  cases move_of_step h hkeep with
  | idle hshared _ _ => exact hshared ▸ hs
  | outside ho _ _ => exact hs.same ho.batches
  | failed hf => exact hs.same hf.fails.batches
  | went hw => exact lasting_act hday hs hw.act

theorem kept_same {d : Draft} (h : Kept s d) (hwritten : written t.log = written s.log)
    (hfiles : t.shared.files = s.shared.files) : Kept t d := by
  unfold Kept begun
  rw [hwritten, hfiles]
  exact h

/-- A new file does not touch the files of other names. -/
theorem kept_write {d : Draft} (h : Kept s d) (hd : d ∈ written s.log)
    (hwritten : written t.log = written s.log ++ [x.note.draft])
    (hfiles : ∀ path, path ≠ x.note.draft.path → t.shared.files path = s.shared.files path) :
    Kept t d := by
  intro honce
  rw [begun, hwritten, List.countP_append] at honce
  have hold : 0 < begun s.log d := List.countP_pos_iff.mpr ⟨d, hd, decide_eq_true rfl⟩
  have hne : d.path ≠ x.note.draft.path := by
    intro heq
    have hnew : [x.note.draft].countP (fun w => decide (w.path = d.path)) = 1 := by simp [heq]
    rw [hnew] at honce
    exact absurd hold (not_lt.mpr (Nat.le_of_succ_le_succ honce))
  rw [hfiles _ hne]
  exact h ((Nat.le_add_right _ _).trans honce)

theorem intact_step [DecidableEq ι] (h : Step (jobs sha256) s l t)
    (hkeep : InProtocol (jobs sha256) s) (horder : Each (InOrder sha256) s) (hclaimed : Claimed s)
    (hs : Intact s) : Intact t := by
  cases move_of_step h hkeep with
  | idle hshared hlog hafter =>
    have hkept : ∀ {d}, Kept s d → Kept t d := fun h => kept_same h (by rw [hlog]) (by rw [hshared])
    refine ⟨fun p hp => hkept (hs.filed p (hlog ▸ hp)), fun k y hy hw => ?_⟩
    rcases hafter k y hy with hy | hy
    · exact hkept (hs.begun k y hy hw)
    · rw [hy] at hw
      cases hw
  | outside ho hlog hsession =>
    have hkept : ∀ {d}, Kept s d → Kept t d := fun h => kept_same h (by rw [hlog]) ho.files
    exact ⟨fun p hp => hkept (hs.filed p (hlog ▸ hp)),
      fun k y hy hw => hkept (hs.begun k y (hsession ▸ hy) hw)⟩
  | @failed t j x o hf =>
    have hfiled : filed t.log = filed s.log := by rw [hf.log, filed_failed]
    have hkept : ∀ {d}, d ∈ written s.log → Kept s d → Kept t d := by
      intro d hd hkept
      by_cases hwrite : ∃ path content, o = .writeFile path content
      · obtain ⟨path, content, rfl⟩ := hwrite
        refine kept_write hkept hd (by rw [hf.log, written_write]) ?_
        rw [← hf.allow.2.1]
        exact hf.fails.spoils
      · have hwrite : ∀ path content, o ≠ .writeFile path content :=
          fun path content ho => hwrite ⟨path, content, ho⟩
        exact kept_same hkept (by rw [hf.log, written_entries hwrite]) (hf.fails.files hwrite)
    refine ⟨fun p hp => ?_, fun k y hy hw => ?_⟩
    · rw [hfiled] at hp
      exact hkept (hclaimed.filedWritten p hp) (hs.filed p hp)
    · have hy := (hf.after k y hy).2
      exact hkept (hclaimed.begun k y hy hw) (hs.begun k y hy hw)
  | @went t j x o a ws hw =>
    by_cases hwrite : ∃ path content, o = .writeFile path content
    · obtain ⟨path, content, rfl⟩ := hwrite
      obtain ⟨⟨hdated, hrows, hnot, hnone⟩, rfl, rfl⟩ := hw.allow
      have hfiles : t.shared.files =
          setKey s.shared.files x.note.draft.path (some x.note.draft.content) := hw.act.writes
      have hkept : ∀ {d}, d ∈ written s.log → Kept s d → Kept t d := fun hd h =>
        kept_write h hd (by rw [hw.log, written_write])
          fun path hne => by rw [hfiles]; exact if_neg hne
      refine ⟨fun p hp => ?_, fun k y hy hdone => ?_⟩
      · rw [hw.log, filed_entries fun h => JobOp.noConfusion h] at hp
        exact hkept (hclaimed.filedWritten p hp) (hs.filed p hp)
      · rcases hw.after k y hy with ⟨-, hy⟩ | ⟨-, hy⟩
        · rw [hy]
          intro _
          rw [hfiles]
          exact if_pos rfl
        · exact hkept (hclaimed.begun k y hy hdone) (hs.begun k y hy hdone)
    have hwrite : ∀ path content, o ≠ .writeFile path content :=
      fun path content ho => hwrite ⟨path, content, ho⟩
    have hkept : ∀ {d}, Kept s d → Kept t d := fun h =>
      kept_same h (by rw [hw.log, written_entries hwrite]) (hw.act.files hwrite)
    have hdraft : ∀ k y, t.session k = some y → y.note.written = true →
        ∃ z, s.session k = some z ∧ y.note.draft = z.note.draft ∧ z.note.written = true := by
      intro k y hy hdone
      rcases hw.after k y hy with ⟨rfl, hy⟩ | ⟨-, hy⟩
      · rw [hy] at hdone ⊢
        by_cases hincr : ∃ key, o = .incrBatch key
        · obtain ⟨key, rfl⟩ := hincr
          exact absurd (hw.allow.1.2.2.1.symm.trans hdone) nofun
        by_cases hcommit : o = .commit
        · subst hcommit
          cases hdone
        rcases next_draft hw.allow (fun key hkey => hincr ⟨key, hkey⟩) hwrite hcommit with
          ⟨-, hnot⟩ | ⟨hsame, hdone'⟩
        · exact absurd (hnot.symm.trans hdone) nofun
        · exact ⟨x, hw.session, hsame, hdone'.symm.trans hdone⟩
      · exact ⟨y, hy, rfl, hdone⟩
    refine ⟨fun p hp => ?_, fun k y hy hdone => ?_⟩
    · rw [hw.log] at hp
      by_cases hcommit : o = .commit
      · subst hcommit
        have hlinked : x.note.linked = true := hw.allow
        have hin := horder j x hw.session
        obtain ⟨i, hi⟩ := Option.ne_none_iff_exists'.mp (hin.record hlinked)
        rw [filed_commit hi] at hp
        rcases List.mem_append.mp hp with hp | hp
        · exact hkept (hs.filed p hp)
        · rw [List.mem_singleton.mp hp]
          exact hkept (hs.begun j x hw.session (hin.written (hin.record hlinked)))
      · rw [filed_entries hcommit] at hp
        exact hkept (hs.filed p hp)
    · obtain ⟨z, hz, hsame, hdone⟩ := hdraft k y hy hdone
      rw [hsame]
      exact hkept (hs.begun k z hz hdone)

/-- What holds on the day in every state of a run. -/
structure Numbered {ι : Type} (sha256 : String → String) (day : Int) (s₀ : State) (s : JobSys ι) :
    Prop where
  inProtocol : InProtocol (jobs sha256) s
  orderly : Orderly sha256 s₀ s
  onDay : OnDay day s.shared
  lasting : Lasting day s.shared
  dated : Dated day s
  claimed : Claimed s
  intact : Intact s

theorem numbered_step [DecidableEq ι] (h : Step (jobs sha256) s l t ∧ OnDay day t.shared)
    (hs : Numbered sha256 day s₀ s) : Numbered sha256 day s₀ t :=
  ⟨inProtocol_jobs h.1 hs.inProtocol, orderly_step h.1 hs.inProtocol hs.orderly, h.2,
    lasting_step h.1 hs.inProtocol hs.onDay hs.lasting, dated_step h.1 hs.inProtocol hs.onDay hs.dated,
    claimed_step h.1 hs.inProtocol hs.orderly.each hs.onDay hs.lasting hs.dated hs.claimed,
    intact_step h.1 hs.inProtocol hs.orderly.each hs.claimed hs.intact⟩

theorem quiet_numbered (h : s.Quiet) (hstored : Stored s.shared) (hday : OnDay day s.shared)
    (hlast : Lasting day s.shared) : Numbered sha256 day s.shared s := by
  have hnone : ∀ {j x}, s.session j ≠ some x := fun hj => by simp [h.1] at hj
  have hwritten : written s.log = [] := by rw [h.2]; rfl
  have hfiled : filed s.log = [] := by rw [h.2]; rfl
  refine ⟨h.inProtocol, quiet_orderly h hstored, hday, hlast, ⟨fun _ _ hj => absurd hj hnone, ?_⟩,
    ⟨?_, fun _ _ hj => absurd hj hnone, ?_, ?_, ?_, fun _ _ hj => absurd hj hnone,
      fun _ _ hj => absurd hj hnone, fun _ _ hj => absurd hj hnone,
      fun _ _ _ _ hj => absurd hj hnone⟩, ⟨?_, fun _ _ hj => absurd hj hnone⟩⟩
  · rw [hwritten]
    exact fun d hd => absurd hd List.not_mem_nil
  · rw [hwritten]
    exact fun d hd => absurd hd List.not_mem_nil
  · rw [hwritten]
    exact List.nodup_nil
  · rw [hfiled]
    exact List.nodup_nil
  · rw [hfiled]
    exact fun p hp => absurd hp List.not_mem_nil
  · rw [hfiled]
    exact fun p hp => absurd hp List.not_mem_nil

end Claims

/-- Redis numbered both files by the counter of one reader. -/
def OneCounter (d d' : Draft) : Prop :=
  d.readerId = d'.readerId ∧ d.issued ≠ none ∧ d'.issued ≠ none

/-- What stands in the two names keeps to its places. -/
def Placed (d d' : Draft) : Prop :=
  (pad d.mid d.tid).length = (pad d'.mid d'.tid).length ∨ d.number ≤ 999 ∧ d'.number ≤ 999

/-- What tells two names apart: the second, MID and TID, the batch number, or a counter. -/
def Distinct (d d' : Draft) : Prop :=
  d.now.localTime ≠ d'.now.localTime ∨
    Placed d d' ∧ (pad d.mid d.tid ≠ pad d'.mid d'.tid ∨ d.number ≠ d'.number ∨ OneCounter d d')

section Names
variable {ι : Type} {sha256 : String → String} {s : JobSys ι} {day : Int} {d d' : Draft}

/-- Files of one counter and day that have the same number have it from the same answer. -/
theorem claim_congr (hdate : d.now.date = d'.now.date) (h : OneCounter d d')
    (hnumber : d.number = d'.number) : ∃ c, d.claim = some c ∧ d'.claim = some c := by
  obtain ⟨hreader, hissued, hissued'⟩ := h
  obtain ⟨n, hn⟩ := Option.ne_none_iff_exists'.mp hissued
  obtain ⟨n', hn'⟩ := Option.ne_none_iff_exists'.mp hissued'
  have hkey : d.key = d'.key := by
    simp only [Draft.key, hreader, isoDate, DateTime.localTime, hdate]
  have hsame : n = n' := by
    rw [Draft.number, Draft.number, hn, hn'] at hnumber
    exact hnumber
  refine ⟨(d'.key, n'), ?_, ?_⟩
  · rw [Draft.claim, hn, hkey, hsame]
    rfl
  · rw [Draft.claim, hn']
    rfl

/-- Equal names come of equal times, and of the same answer where one counter gave the numbers. -/
theorem claim_of_filename (hdate : d.now.date = d'.now.date) (h : Distinct d d')
    (hname : d.filename = d'.filename) :
    OneCounter d d' ∧ ∃ c, d.claim = some c ∧ d'.claim = some c := by
  rcases h with hclock | ⟨hplaces, h⟩
  · exact absurd (localTime_of_filename hdate hname) hclock
  · obtain ⟨hpad, hnumber⟩ := generateFilename_inj hdate hplaces hname
    have hone := (h.resolve_left fun hne => hne hpad).resolve_left fun hne => hne hnumber
    exact ⟨hone, claim_congr hdate hone hnumber⟩

theorem countP_le_one {α β : Type} {f : α → Option β} {p : α → Bool} {l : List α} {c : β}
    (h : (l.filterMap f).Nodup) (hp : ∀ a ∈ l, p a = true → f a = some c) : l.countP p ≤ 1 := by
  have hsame : (l.filter p).filterMap f = List.replicate (l.filter p).length c := by
    have hconst : (l.filter p).filterMap f = (l.filter p).filterMap fun _ => some c :=
      List.filterMap_congr fun a ha =>
        hp a (List.mem_of_mem_filter ha) (List.mem_filter.mp ha).2
    rw [hconst, List.filterMap_eq_map', List.map_const']
  have honce : ((l.filter p).filterMap f).Nodup := h.sublist (List.filter_sublist.filterMap f)
  rw [hsame, List.nodup_replicate] at honce
  rw [List.countP_eq_length_filter]
  exact honce

theorem Numbered.names {s₀ : State} (hs : Numbered sha256 day s₀ s) :
    (filed s.log).Pairwise fun p q =>
      (Distinct p.1 q.1 → p.1.filename ≠ q.1.filename) ∧
        (OneCounter p.1 q.1 → p.1.number ≠ q.1.number) := by
  have hdate : ∀ p ∈ filed s.log, p.1.now.date = day := fun p hp =>
    hs.dated.files p.1 (hs.claimed.filedWritten p hp)
  refine (List.pairwise_filterMap.mp hs.claimed.filedOnce).imp_of_mem ?_
  intro p q hp hq hne
  have hsame : p.1.now.date = q.1.now.date := (hdate p hp).trans (hdate q hq).symm
  refine ⟨fun hdistinct hname => ?_, fun hone hnumber => ?_⟩
  · obtain ⟨-, c, hpc, hqc⟩ := claim_of_filename hsame hdistinct hname
    exact hne c hpc c hqc rfl
  · obtain ⟨c, hpc, hqc⟩ := claim_congr hsame hone hnumber
    exact hne c hpc c hqc rfl

theorem Numbered.begun_once {s₀ : State} (hs : Numbered sha256 day s₀ s) {p : Draft × Id}
    (hp : p ∈ filed s.log)
    (hall : ∀ w ∈ written s.log, w.path = p.1.path → OneCounter w p.1 ∧ Placed w p.1) :
    begun s.log p.1 ≤ 1 := by
  have hmem := hs.claimed.filedWritten p hp
  have hclaim : ∀ w ∈ written s.log, w.path = p.1.path →
      ∃ c, w.claim = some c ∧ p.1.claim = some c := by
    intro w hw hpath
    have hname : w.filename = p.1.filename := by
      have hlist := congrArg String.toList hpath
      simp only [Draft.path, String.toList_append] at hlist
      exact String.toList_inj.mp (List.append_cancel_left hlist)
    have hsame : w.now.date = p.1.now.date :=
      (hs.dated.files w hw).trans (hs.dated.files p.1 hmem).symm
    obtain ⟨hone, hplaces⟩ := hall w hw hpath
    exact (claim_of_filename hsame (Or.inr ⟨hplaces, Or.inr (Or.inr hone)⟩) hname).2
  obtain ⟨c, -, hc⟩ := hclaim p.1 hmem rfl
  refine countP_le_one hs.claimed.once (c := c) fun w hw hpath => ?_
  obtain ⟨c', hwc, hpc⟩ := hclaim w hw (of_decide_eq_true hpath)
  rw [hwc, ← hpc, hc]

/-- On one day no two files have one name, unless they were drawn up in one second, for the same
MID and TID and with the same number, not both from one counter; and a file stays as it was written
until another one is begun under its name. -/
theorem files_kept_apart [DecidableEq ι] {xs : List (Label ι JobOp × JobSys ι)}
    (hquiet : s.Quiet) (hstored : Stored s.shared) (hday : OnDay day s.shared)
    (hlast : Lasting day s.shared)
    (h : Path (fun s l t => Step (jobs sha256) s l t ∧ OnDay day t.shared) s xs) :
    (finish s xs).shared.world.db.settlements.map EmoneySettlement.sealed =
        (s.shared.world.db.settlements ++
          (filed (finish s xs).log).map fun p => p.1.record sha256 p.2).map
          EmoneySettlement.sealed ∧
      (filed (finish s xs).log).Pairwise (fun p q =>
        (Distinct p.1 q.1 →
          (p.1.record sha256 p.2).filename ≠ (q.1.record sha256 q.2).filename) ∧
        (OneCounter p.1 q.1 →
          (p.1.record sha256 p.2).batchNumber ≠ (q.1.record sha256 q.2).batchNumber)) ∧
      ∀ p ∈ filed (finish s xs).log,
        (begun (finish s xs).log p.1 = 1 ∨ ∀ w ∈ written (finish s xs).log,
          w.path = p.1.path → OneCounter w p.1 ∧ Placed w p.1) →
        ∃ content, (finish s xs).shared.files (p.1.record sha256 p.2).filePath = some content ∧
          sha256 content = (p.1.record sha256 p.2).fileContentHash := by
  have hend := h.invariant (fun _ _ _ => numbered_step) (quiet_numbered hquiet hstored hday hlast)
  refine ⟨?_, hend.names.imp ?_, fun p hp hname => ⟨p.1.content, ?_, rfl⟩⟩
  · have hrecords := hend.orderly.settlements
    rw [batches, List.map_map] at hrecords
    exact hrecords
  · rintro p q ⟨hname, hnumber⟩
    exact ⟨hname, fun hone heq => hnumber hone (Int.ofNat_inj.mp heq)⟩
  · refine hend.intact.filed p hp ?_
    rcases hname with hname | hname
    · exact hname.le
    · exact hend.begun_once hp hname

end Names

section Night

instance (day : Int) (s : State) : Decidable (OnDay day s) := inferInstanceAs (Decidable (_ = _))

theorem night_day : OnDay 0 nightDesk := by decide

theorem night_lasting : Lasting 0 nightDesk := fun _ _ _ _ h => nomatch h

theorem files_kept_apart_night :
    (finish (night Unit) aloneRun).shared.world.db.settlements.map EmoneySettlement.sealed =
        (nightDesk.world.db.settlements ++
          (filed (finish (night Unit) aloneRun).log).map fun p => p.1.record id p.2).map
          EmoneySettlement.sealed ∧
      (filed (finish (night Unit) aloneRun).log).Pairwise (fun p q =>
        (Distinct p.1 q.1 → (p.1.record id p.2).filename ≠ (q.1.record id q.2).filename) ∧
        (OneCounter p.1 q.1 →
          (p.1.record id p.2).batchNumber ≠ (q.1.record id q.2).batchNumber)) ∧
      ∀ p ∈ filed (finish (night Unit) aloneRun).log,
        (begun (finish (night Unit) aloneRun).log p.1 = 1 ∨
          ∀ w ∈ written (finish (night Unit) aloneRun).log,
            w.path = p.1.path → OneCounter w p.1 ∧ Placed w p.1) →
        ∃ content,
          (finish (night Unit) aloneRun).shared.files (p.1.record id p.2).filePath = some content ∧
          id content = (p.1.record id p.2).fileContentHash := by
  have hday : Path (fun _ _ t => OnDay 0 t.shared) (night Unit) aloneRun := by decide
  exact files_kept_apart ⟨fun _ => rfl, rfl⟩ night_stored night_day night_lasting
    (alone_night_path.and hday)

/-- Two readers with one MID and TID. -/
def twinDesk : State :=
  { nightDesk with
    world.db.readers :=
      [{ id := 4, mid := some "1234", tid := some "56" },
       { id := 5, mid := some "1234", tid := some "56" }] }

def twinRun : List (Label Unit JobOp × JobSys Unit) :=
  takeTurns (jobs id) perform { shared := twinDesk }
    (JobTurn.job id () ⟨true⟩ :: List.replicate 24 (.go ()))

/-- A deduct of the reader that comes in after the first manual run. -/
def lateRow : EmoneyTransaction :=
  { id := 5, emoneyReaderId := some 4, cardNumber := "6013500400", createdAt := 30
    amountDeducted := 7000, status := .success }

def manualRun (s : JobSys Bool) (j : Bool) : List (Label Bool JobOp × JobSys Bool) :=
  takeTurns (jobs id) perform s (JobTurn.job id j ⟨false⟩ :: List.replicate 16 (.go j))

def afterManual : JobSys Bool :=
  let t := finish (night Bool) (manualRun (night Bool) false)
  { t with shared := { t.shared with world.db := t.shared.world.db.addEmoney lateRow } }

def manualRuns : List (Label Bool JobOp × JobSys Bool) :=
  manualRun (night Bool) false ++ (.outside, afterManual) :: manualRun afterManual true

theorem manualRun_path (s : JobSys Bool) (j : Bool) :
    Path (Step (jobs id)) s (manualRun s j) := by
  refine perform_path (fun k p ws g h => ?_) fun f h => ?_
  · simp [JobTurn.job] at h
    obtain ⟨-, rfl, rfl, rfl⟩ := h
    exact ⟨⟨_, rfl⟩, rfl, rfl⟩
  · simp [JobTurn.job] at h

theorem manualRuns_path : Path (Step (jobs id)) (night Bool) manualRuns := by
  refine path_append.mpr ⟨manualRun_path _ _, .outside ⟨⟨[5], ?_⟩, ?_, rfl, le_rfl, rfl, rfl⟩,
    manualRun_path _ _⟩ <;> decide

theorem twinRun_path : Path (Step (jobs id)) { shared := twinDesk } twinRun := by
  refine perform_path (fun j p ws g h => ?_) fun f h => ?_
  · simp [JobTurn.job] at h
    obtain ⟨rfl, rfl, rfl⟩ := h
    exact ⟨⟨_, rfl⟩, rfl, rfl⟩
  · simp [JobTurn.job] at h

/-- Two records share their name and their number, and the file of the first one is gone. -/
def Collides (s : State) : Prop :=
  ∃ r ∈ s.world.db.settlements, ∃ r' ∈ s.world.db.settlements, r.id ≠ r'.id ∧
    r.filename = r'.filename ∧ r.batchDate = r'.batchDate ∧ r.batchNumber = r'.batchNumber ∧
    s.files r.filePath ≠ some r.fileContentHash

instance (s : State) : Decidable (Collides s) := inferInstanceAs (Decidable (∃ r ∈ _, _))

set_option maxRecDepth 8192 in
/-- It comes of readers with one MID and TID, and of runs without Redis in one second. -/
theorem names_collide :
    (Path (fun s l t => Step (jobs id) s l t ∧ OnDay 0 t.shared) { shared := twinDesk } twinRun ∧
        Collides (finish { shared := twinDesk } twinRun).shared) ∧
      Path (fun s l t => Step (jobs id) s l t ∧ OnDay 0 t.shared) (night Bool) manualRuns ∧
        Collides (finish (night Bool) manualRuns).shared := by
  obtain ⟨htwin, hcollides⟩ : Path (fun _ _ t => OnDay 0 t.shared) { shared := twinDesk } twinRun ∧
      Collides (finish { shared := twinDesk } twinRun).shared := by decide +kernel
  obtain ⟨hmanual, hcollides'⟩ : Path (fun _ _ t => OnDay 0 t.shared) (night Bool) manualRuns ∧
      Collides (finish (night Bool) manualRuns).shared := by decide +kernel
  exact ⟨⟨twinRun_path.and htwin, hcollides⟩, manualRuns_path.and hmanual, hcollides'⟩

end Night

end ParkIt.Settlement
