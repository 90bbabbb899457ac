import ParkIt.Upload.Delivery

/-! Uploads that are tried again, and jobs for one settlement that overlap. -/
namespace ParkIt.Upload

open Effects Sessions Transition

/-- The job has found its settlement due and has not come to its end. -/
def Errand.Busy (g : Errand) : Prop := g.record ≠ none ∧ g.point ≠ .over

instance (g : Errand) : Decidable g.Busy := inferInstanceAs (Decidable (_ ∧ _))

/-- The job reads the status while no other job is busy with the settlement. -/
def ReadsAlone {ι : Type} (s : UploadSys ι) : Label ι UploadOp → Prop
  | .go j (.getSettlement i) =>
    ∀ k x, s.session k = some x → k ≠ j → x.note.id = i → ¬ x.note.Busy
  | _ => True

/-- When the file has been renamed, the job is told so, the connection is closed without an
exception, and the job does not end before its commit takes effect. -/
structure Lands {ι : Type} (s : UploadSys ι) (l : Label ι UploadOp) (t : UploadSys ι) : Prop where
  answered : ∀ j x, t.session j = some x → x.note.landed = true →
    x.note.point ≠ .unwinding ∧ x.note.point ≠ .marking
  commits : ∀ j x, s.session j = some x → x.note.landed = true → x.note.Busy →
    t.session j = none → ∃ i u, l = .go j (.commit i u) ∧ t.shared = s.shared.update i u

/-- Where a job can stand once the file has been renamed and nothing has gone wrong. -/
def Point.Late : Point → Prop
  | .closing | .stamping | .recording _ | .over => True
  | _ => False

/-- What such a job has left to do. -/
def Point.left : Point → Nat
  | .closing => 3
  | .stamping => 2
  | .recording _ => 1
  | _ => 0

/-- It is recorded that the settlement's file has been uploaded. -/
def Site.Recorded (s : Site) (i : Id) : Prop := ∃ r, s.settlement i = some r ∧ r.Recorded

section Records
variable {r : EmoneySettlement} {s : Site}

theorem due_not_recorded (h : r.Due) : ¬ r.Recorded := by
  rintro (hr | hr | hr | hr) <;> rcases h with h | h <;> rw [h] at hr <;>
    exact absurd hr (by decide)

theorem settlement_update_ne {i k : Id} (hne : k ≠ i) (u : SettlementUpdate) :
    (s.update i u).settlement k = s.settlement k := by
  rw [Site.settlement_update]
  rcases hr : s.settlement k with _ | r
  · rfl
  · have hid : r.id ≠ i := fun h => hne ((Site.settlement_id hr).symm.trans h)
    rw [Option.map_some, if_neg hid]

theorem serve_commit {replaces : Bool} {x : Fate} {i : Id} {u : SettlementUpdate} {a : Unit}
    {s' : Site} (h : serve replaces x (.commit i u) s = (.ok a, s')) : s' = s.update i u := by
  simp only [serve] at h
  split at h
  · exact (Prod.mk.inj h).2.symm
  all_goals cases (Prod.mk.inj h).1

/-- Only a commit touches the settlements. -/
theorem Effect.settlement {o : UploadOp} {s' : Site} (h : Effect s o s')
    (hcommit : ∀ i u, o ≠ .commit i u) (i : Id) : s'.settlement i = s.settlement i := by
  cases h with
  | nothing | tick | removed | put _ _ | renamed _ => rfl
  | updated => exact absurd rfl (hcommit _ _)

/-- The commit of a job that has found its settlement due records the upload. -/
theorem recorded_update {q : EmoneySettlement} {now : Int} (hdue : q.Due)
    (hr : s.settlement q.id = some r) :
    (s.update q.id (q.changes "UPLOADED" (some now))).Recorded q.id := by
  have hstatus : q.status ≠ "UPLOADED" := by
    rcases hdue with h | h <;> rw [h] <;> decide
  have hafter : (s.update q.id (q.changes "UPLOADED" (some now))).settlement q.id =
      some ((q.changes "UPLOADED" (some now)).apply r) := by
    rw [Site.settlement_update, hr, Option.map_some, if_pos (Site.settlement_id hr)]
  refine ⟨_, hafter, Or.inl ?_⟩
  simp only [SettlementUpdate.apply, EmoneySettlement.changes, if_neg hstatus, Option.getD_some]

theorem Around.recorded {s' : Site} {i : Id} (h : Around s s') (hi : s.Recorded i) :
    s'.Recorded i := by
  obtain ⟨r, hr, hrec⟩ := hi
  obtain ⟨r', hr', -, hstatus | ⟨-, hacked⟩⟩ := h.kept i r hr
  · refine ⟨r', hr', ?_⟩
    unfold EmoneySettlement.Recorded EmoneySettlement.Acked at hrec ⊢
    rw [hstatus]
    exact hrec
  · exact ⟨r', hr', Or.inr hacked⟩

end Records

section Next
variable {settings : SftpSettings} {g : Errand} {r : EmoneySettlement} {o : UploadOp} {a : o.Ans}

theorem next_commit {i : Id} {u : SettlementUpdate} (h : g.next settings = some (.commit i u)) :
    ∃ r, g.record = some r ∧ i = r.id ∧ (g.point = .marking ∨
      ∃ now, g.point = .recording now ∧ u = r.changes "UPLOADED" (some now)) := by
  unfold Errand.next at h
  split at h <;> simp only [Option.some.injEq, UploadOp.commit.injEq, reduceCtorEq] at h
  · exact ⟨_, ‹_›, h.1.symm, Or.inl ‹_›⟩
  · exact ⟨_, ‹_›, h.1.symm, Or.inr ⟨_, ‹_›, h.2.symm⟩⟩

theorem next_getSettlement {i : Id} (h : g.next settings = some (.getSettlement i)) :
    g.point = .reading ∧ i = g.id := by
  unfold Errand.next at h
  split at h <;> simp only [Option.some.injEq, UploadOp.getSettlement.injEq, reduceCtorEq] at h
  exact ⟨‹_›, h.symm⟩

theorem busy_of_next (h : g.next settings = some o) (hget : ∀ i, o ≠ .getSettlement i) :
    g.Busy := by
  refine ⟨fun hnone => ?_, fun hover => ?_⟩
  · rcases hp : g.point <;>
      simp only [Errand.next, hp, hnone, Option.some.injEq, reduceCtorEq] at h
    exact hget _ h.symm
  · simp only [Errand.next, hover, reduceCtorEq] at h

@[simp] theorem next_id : ((protocol settings).next g o a).id = g.id := by
  cases o with
  | getSettlement i =>
    simp only [protocol]
    split <;> rfl
  | isFile path => rcases a with e | found <;> rfl
  | haveAsyncssh | connect _ | remove _ | put _ _ | rename _ _ | close | now | commit _ _ => rfl

theorem next_record (hget : ∀ i, o ≠ .getSettlement i) :
    ((protocol settings).next g o a).record = g.record := by
  cases o with
  | getSettlement i => exact absurd rfl (hget i)
  | isFile path => rcases a with e | found <;> rfl
  | haveAsyncssh | connect _ | remove _ | put _ _ | rename _ _ | close | now | commit _ _ => rfl

theorem next_landed (hrename : ∀ source target, o ≠ .rename source target) :
    ((protocol settings).next g o a).landed = g.landed := by
  cases o with
  | getSettlement i =>
    simp only [protocol]
    split <;> rfl
  | rename source target => exact absurd rfl (hrename source target)
  | isFile path => rcases a with e | found <;> rfl
  | haveAsyncssh | connect _ | remove _ | put _ _ | close | now | commit _ _ => rfl

/-- The job goes on with a due settlement only. -/
theorem next_read {i : Id} (a : Option EmoneySettlement) :
    (∃ r, a = some r ∧ r.Due ∧ (protocol settings).next g (.getSettlement i) a =
      { g with record := some r, point := .checking }) ∨
    (protocol settings).next g (.getSettlement i) a = { g with point := .over } := by
  simp only [protocol]
  split
  · rename_i r hr
    obtain ⟨hr, hdue⟩ := Option.filter_eq_some_iff.mp hr
    exact Or.inl ⟨r, hr, of_decide_eq_true hdue, rfl⟩
  · exact Or.inr rfl

theorem entries_eq_nil {a : Option o.Ans} (hrename : ∀ source target, o ≠ .rename source target) :
    entries g o a = [] := by
  cases o with
  | rename source target => exact absurd rfl (hrename source target)
  | getSettlement _ | isFile _ | haveAsyncssh | connect _ | remove _ | put _ _ | close | now
  | commit _ _ => rfl

theorem left_pos (hb : g.Busy) (hlate : g.point.Late) : 0 < g.point.left := by
  have hover := hb.2
  rcases hp : g.point <;> rw [hp] at hlate hover
  case closing | stamping | recording => exact Nat.succ_pos _
  all_goals first | exact hlate.elim | exact absurd rfl hover

theorem left_le (p : Point) : p.left ≤ 3 := by
  cases p <;> simp [Point.left]

theorem commit_of_over (hget : ∀ i, o ≠ .getSettlement i)
    (h : ((protocol settings).next g o a).point = .over) : ∃ i u, o = .commit i u := by
  cases o with
  | getSettlement i => exact absurd rfl (hget i)
  | isFile path =>
    rcases a with e | _ | _ <;> cases h
  | haveAsyncssh => cases a <;> cases h
  | connect _ | put _ _ | rename _ _ => cases a <;> cases h
  | remove _ | now => cases h
  | close =>
    rcases a with e | _
    · cases h
    · simp only [protocol, Errand.goTo] at h
      split at h <;> cases h
  | commit i u => exact ⟨i, u, rfl⟩

/-- After the rename a job comes closer to its end, unless the connection fails to close. -/
theorem late_next (h : g.next settings = some o) (hlate : g.point.Late) :
    (((protocol settings).next g o a).point.Late ∧
        ((protocol settings).next g o a).point.left + 1 = g.point.left) ∨
      ((protocol settings).next g o a).point = .marking := by
  rcases hr : g.record with _ | r
  · rcases hp : g.point <;> rw [hp] at hlate <;>
      simp only [Errand.next, hp, hr, reduceCtorEq] at h
    all_goals exact hlate.elim
  rcases hp : g.point <;> rw [hp] at hlate <;>
    simp only [Errand.next, hp, hr, Option.some.injEq, reduceCtorEq] at h
  case closing =>
    subst h
    rcases a with e | _
    · exact Or.inr rfl
    · refine Or.inl ?_
      simp only [protocol, Errand.goTo, hp, if_true]
      exact ⟨trivial, rfl⟩
  case stamping =>
    subst h
    exact Or.inl ⟨trivial, rfl⟩
  case recording =>
    subst h
    exact Or.inl ⟨trivial, rfl⟩
  all_goals exact hlate.elim

end Next

section Retries
variable {ι : Type} {settings : SftpSettings} {replaces : Bool} {s t : UploadSys ι}
  {l : Label ι UploadOp}

/-- What a job can rely on: while it is busy, its settlement is due. -/
structure Sound (s : Site) (g : Errand) : Prop where
  record : ∀ r, g.record = some r → r.id = g.id ∧ r.Due
  late : g.landed = true → g.point.Late
  due : g.Busy → ∃ r, s.settlement g.id = some r ∧ r.Due

/-- One busy job a settlement at most, one rename a settlement at most, and after it the upload
is recorded or about to be. -/
structure Safe (settings : SftpSettings) (replaces : Bool) (s : UploadSys ι) : Prop where
  inProtocol : InProtocol (uploads settings replaces) s
  sound : ∀ j x, s.session j = some x → Sound s.shared x.note
  single : ∀ j k x y, s.session j = some x → s.session k = some y → x.note.Busy → y.note.Busy →
    x.note.id = y.note.id → j = k
  clean : ∀ j x, s.session j = some x → x.note.Busy → x.note.landed = false →
    ∀ e ∈ s.log, e.id ≠ x.note.id
  done : ∀ e ∈ s.log, s.shared.Recorded e.id ∨ ∃ j x, s.session j = some x ∧ x.note.Busy ∧
    x.note.landed = true ∧ x.note.id = e.id
  once : (s.log.map Entry.id).Nodup

/-- A step of one job. `n` is what the job is then about; it touches no other settlement, and its
own only while it is busy. -/
theorem safe_moves {j : ι} {x : Session UploadOp UploadOp.Ans UploadExc UploadOutcome Unit Errand}
    {n : Option Errand} (hs : Safe settings replaces s) (hj : s.session j = some x)
    (hin : InProtocol (uploads settings replaces) t)
    (hafter : ∀ k y, t.session k = some y →
      k = j ∧ n = some y.note ∨ k ≠ j ∧ s.session k = some y)
    (hothers : ∀ k y, k ≠ j → s.session k = some y → t.session k = some y)
    (hframe : ∀ i, i ≠ x.note.id ∨ ¬ x.note.Busy →
      t.shared.settlement i = s.shared.settlement i)
    (hsound : ∀ g ∈ n, g.id = x.note.id ∧ Sound t.shared g)
    (hbusy : ∀ g ∈ n, g.Busy → x.note.Busy ∨ ∀ k y, k ≠ j → s.session k = some y →
      y.note.id = x.note.id → ¬ y.note.Busy)
    (hclean : ∀ g ∈ n, g.Busy → g.landed = false → ∀ e ∈ t.log, e.id ≠ g.id)
    (hlog : ∀ e ∈ t.log, e ∈ s.log ∨ e.id = x.note.id ∧ x.note.Busy)
    (hdone : ∀ e ∈ t.log, e.id = x.note.id → t.shared.Recorded e.id ∨
      (∃ y, t.session j = some y ∧ y.note.Busy ∧ y.note.landed = true ∧ y.note.id = e.id) ∨
      ∃ k y, k ≠ j ∧ s.session k = some y ∧ y.note.Busy ∧ y.note.landed = true ∧
        y.note.id = e.id)
    (honce : (t.log.map Entry.id).Nodup) : Safe settings replaces t := by
  -- two busy jobs of one settlement are the same, the one that moves included
  have hsame : ∀ k y g, s.session k = some y → k ≠ j → y.note.Busy → g ∈ n → g.Busy →
      y.note.id ≠ g.id := by
    intro k y g hy hk hyb hg hgb hid
    have hgid := (hsound g hg).1
    rcases hbusy g hg hgb with hx | hfree
    · exact hk (hs.single k j y x hy hj hyb hx (hid.trans hgid))
    · exact hfree k y hk hy (hid.trans hgid) hyb
  have hdue : ∀ k y, k ≠ j → s.session k = some y → y.note.Busy →
      t.shared.settlement y.note.id = s.shared.settlement y.note.id := by
    intro k y hk hy hyb
    refine hframe _ ?_
    by_cases hx : x.note.Busy
    · exact Or.inl fun hid => hk (hs.single k j y x hy hj hyb hx hid)
    · exact Or.inr hx
  refine ⟨hin, fun k y hy => ?_, fun a b y z hy hz hyb hzb hid => ?_, fun k y hy hyb hyl e he => ?_,
    fun e he => ?_, honce⟩
  · rcases hafter k y hy with ⟨-, hn⟩ | ⟨hk, hy⟩
    · exact (hsound _ hn).2
    · have hold := hs.sound k y hy
      exact ⟨hold.record, hold.late, fun hyb => hdue k y hk hy hyb ▸ hold.due hyb⟩
  · rcases hafter a y hy with ⟨ha, hn⟩ | ⟨ha, hy⟩ <;> rcases hafter b z hz with ⟨hb, hm⟩ | ⟨hb, hz⟩
    · exact ha.trans hb.symm
    · exact absurd hid.symm (hsame b z _ hz hb hzb hn hyb)
    · exact absurd hid (hsame a y _ hy ha hyb hm hzb)
    · exact hs.single a b y z hy hz hyb hzb hid
  · rcases hafter k y hy with ⟨-, hn⟩ | ⟨hk, hy⟩
    · exact hclean _ hn hyb hyl e he
    · rcases hlog e he with he | ⟨hid, hx⟩
      · exact hs.clean k y hy hyb hyl e he
      · rw [hid]
        exact fun h => hk (hs.single k j y x hy hj hyb hx h.symm)
  · by_cases hid : e.id = x.note.id
    · rcases hdone e he hid with hrec | ⟨y, hy, hyb⟩ | ⟨k, y, hk, hy, hyb⟩
      · exact Or.inl hrec
      · exact Or.inr ⟨j, y, hy, hyb⟩
      · exact Or.inr ⟨k, y, hothers k y hk hy, hyb⟩
    · have hold : e ∈ s.log := (hlog e he).resolve_right fun h => hid h.1
      rcases hs.done e hold with ⟨r, hr, hrec⟩ | ⟨k, y, hy, hyb, hyl, hyid⟩
      · exact Or.inl ⟨r, (hframe _ (Or.inl hid)).trans hr, hrec⟩
      · refine Or.inr ⟨k, y, hothers k y (fun hk => hid ?_) hy, hyb, hyl, hyid⟩
        subst hk
        rw [← hyid, Option.some.inj (hy.symm.trans hj)]

/-- A step that leaves the busy jobs and the renames alone. -/
theorem safe_beside (hs : Safe settings replaces s) (hin : InProtocol (uploads settings replaces) t)
    (hafter : ∀ k y, t.session k = some y → s.session k = some y ∨ ∃ i, y.note = { id := i })
    (hothers : ∀ k y, s.session k = some y → t.session k = some y)
    (hdue : ∀ i r, s.shared.settlement i = some r → r.Due →
      ∃ r', t.shared.settlement i = some r' ∧ r'.Due)
    (hrec : ∀ i, s.shared.Recorded i → t.shared.Recorded i) (hlog : t.log = s.log) :
    Safe settings replaces t := by
  have hbusy : ∀ k y, t.session k = some y → y.note.Busy → s.session k = some y := by
    intro k y hy hyb
    rcases hafter k y hy with hy | ⟨i, hi⟩
    · exact hy
    · rw [hi] at hyb
      exact absurd rfl hyb.1
  refine ⟨hin, fun k y hy => ?_, fun a b y z hy hz hyb hzb hid => ?_, fun k y hy hyb hyl e he => ?_,
    fun e he => ?_, hlog ▸ hs.once⟩
  · rcases hafter k y hy with hy | ⟨i, hi⟩
    · have hold := hs.sound k y hy
      refine ⟨hold.record, hold.late, fun hyb => ?_⟩
      obtain ⟨r, hr, hdue'⟩ := hold.due hyb
      exact hdue _ r hr hdue'
    · rw [hi]
      have hrecord : ∀ r : EmoneySettlement, none = some r → r.id = i ∧ r.Due := by
        intro r h
        cases h
      exact ⟨hrecord, Bool.noConfusion, fun hb => absurd rfl hb.1⟩
  · exact hs.single a b y z (hbusy a y hy hyb) (hbusy b z hz hzb) hyb hzb hid
  · exact hs.clean k y (hbusy k y hy hyb) hyb hyl e (hlog ▸ he)
  · rcases hs.done e (hlog ▸ he) with hdone | ⟨k, y, hy, hyb⟩
    · exact Or.inl (hrec _ hdone)
    · exact Or.inr ⟨k, y, hothers k y hy, hyb⟩

theorem Sound.not_landed {s : Site} {g : Errand} (h : Sound s g) (hlate : ¬ g.point.Late) :
    g.landed = false := by
  by_contra hlanded
  exact hlate (h.late (by simpa using hlanded))

/-- A busy job's settlement is due, so its upload is not recorded. -/
theorem Sound.not_recorded {s : Site} {g : Errand} (h : Sound s g) (hg : g.Busy) :
    ¬ s.Recorded g.id := by
  rintro ⟨r, hr, hrec⟩
  obtain ⟨q, hq, hdue⟩ := h.due hg
  cases hr.symm.trans hq
  exact due_not_recorded hdue hrec

/-- An operation touches no settlement but that of its job. -/
theorem Sound.frame {s s' : Site} {g : Errand} {o : UploadOp} {i : Id} (h : Sound s g)
    (hnext : g.next settings = some o) (heffect : Effect s o s') (hi : i ≠ g.id ∨ ¬ g.Busy) :
    s'.settlement i = s.settlement i := by
  cases heffect with
  | nothing | tick | removed | put _ _ | renamed _ => rfl
  | updated =>
    obtain ⟨r, hr, rfl, -⟩ := next_commit hnext
    refine settlement_update_ne (fun hid => ?_) _
    rcases hi with hi | hi
    · exact hi (hid.trans (h.record r hr).1)
    · exact hi (busy_of_next hnext nofun)

/-- When a job whose file has been renamed commits, the upload is recorded. -/
theorem Sound.commit_recorded {s : Site} {g : Errand} {i : Id} {u : SettlementUpdate}
    (h : Sound s g) (hnext : g.next settings = some (.commit i u)) (hg : g.Busy)
    (hlanded : g.landed = true) : (s.update i u).Recorded g.id := by
  have hlate := h.late hlanded
  obtain ⟨r, hr, rfl, hpoint | ⟨now, hpoint, rfl⟩⟩ := next_commit hnext
  · rw [hpoint] at hlate
    exact hlate.elim
  · obtain ⟨hid, hdue⟩ := h.record r hr
    obtain ⟨q, hq, -⟩ := h.due hg
    rw [← hid] at hq ⊢
    exact recorded_update hdue hq

/-- Reading the status makes a job busy only when no entry and no other job is there. -/
theorem safe_read {j : ι} {x : Session UploadOp UploadOp.Ans UploadExc UploadOutcome Unit Errand}
    {i : Id} {a : Option EmoneySettlement} (hs : Safe settings replaces s)
    (hin : InProtocol (uploads settings replaces) t)
    (h : Went settings replaces s t j x (.getSettlement i) a)
    (halone : ∀ k y, s.session k = some y → k ≠ j → y.note.id = i → ¬ y.note.Busy) :
    Safe settings replaces t := by
  have hx := hs.sound j x h.session
  obtain ⟨hpoint, rfl⟩ := next_getSettlement h.allow
  have hlog : t.log = s.log := by
    rw [h.log, entries_eq_nil (o := .getSettlement _) (fun _ _ heq => by cases heq),
      List.append_nil]
  have hlanded : x.note.landed = false := by
    refine hx.not_landed ?_
    rw [hpoint]
    exact id
  obtain ⟨hshared, rfl⟩ : t.shared = s.shared ∧ a = s.shared.settlement x.note.id := by
    obtain ⟨f, hf⟩ := h.served
    simp only [serve] at hf
    obtain ⟨ha, ht⟩ := Prod.mk.inj hf
    split at ha
    · exact ⟨ht.symm, (Except.ok.inj ha).symm⟩
    · cases ha
  have hothers : ∀ e ∈ s.log, e.id = x.note.id → s.shared.Recorded e.id ∨
      ∃ k y, k ≠ j ∧ s.session k = some y ∧ y.note.Busy ∧ y.note.landed = true ∧
        y.note.id = e.id := by
    intro e he _
    rcases hs.done e he with hrec | ⟨k, y, hy, hyb, hyl, hyid⟩
    · exact Or.inl hrec
    · refine Or.inr ⟨k, y, ?_, hy, hyb, hyl, hyid⟩
      rintro rfl
      rw [Option.some.inj (hy.symm.trans h.session), hlanded] at hyl
      exact Bool.false_ne_true hyl
  have hnext : (∃ r, s.shared.settlement x.note.id = some r ∧ r.Due ∧
      (protocol settings).next x.note (.getSettlement x.note.id)
        (s.shared.settlement x.note.id) = { x.note with record := some r, point := .checking }) ∨
      (protocol settings).next x.note (.getSettlement x.note.id)
        (s.shared.settlement x.note.id) = { x.note with point := .over } := next_read _
  refine safe_moves (n := some ((protocol settings).next x.note (.getSettlement x.note.id)
    (s.shared.settlement x.note.id))) hs h.session hin
    (fun k y hy => (h.after k y hy).imp_left fun hk => ⟨hk.1, by rw [hk.2]⟩) h.others
    (fun i _ => by rw [hshared]) ?_ ?_ ?_ (fun e he => Or.inl (hlog ▸ he)) ?_ (hlog ▸ hs.once)
  · rintro g ⟨⟩
    refine ⟨next_id, ?_⟩
    rcases hnext with ⟨r, hr, hdue, hnext⟩ | hnext
    · rw [hnext]
      refine ⟨?_, fun hl => ?_, fun _ => ⟨r, hshared ▸ hr, hdue⟩⟩
      · rintro r' ⟨⟩
        exact ⟨Site.settlement_id hr, hdue⟩
      · exact absurd (hlanded.symm.trans hl) Bool.false_ne_true
    · rw [hnext]
      exact ⟨hx.record, fun _ => trivial, fun hb => absurd rfl hb.2⟩
  · exact fun g _ _ => Or.inr fun k y hk hy => halone k y hy hk
  · rintro g ⟨⟩ hb - e he hid
    rw [hlog] at he
    rw [next_id] at hid
    obtain ⟨r, hr, hdue, -⟩ := hnext.resolve_right fun hover => hb.2 (by rw [hover])
    rcases hothers e he hid with ⟨q, hq, hrec⟩ | ⟨k, y, hk, hy, hyb, -, hyid⟩
    · rw [hid, hr] at hq
      cases hq
      exact due_not_recorded hdue hrec
    · exact halone k y hy hk (hyid.trans hid) hyb
  · intro e he hid
    rw [hlog] at he
    rw [hshared]
    exact (hothers e he hid).imp_right Or.inr

/-- The first rename of a settlement; the job that has asked for it is at work. -/
theorem safe_rename {j : ι} {x : Session UploadOp UploadOp.Ans UploadExc UploadOutcome Unit Errand}
    {source target : String} {a : Except UploadExc Unit} (hs : Safe settings replaces s)
    (hin : InProtocol (uploads settings replaces) t) (hlands : Lands s l t)
    (h : Went settings replaces s t j x (.rename source target) a) : Safe settings replaces t := by
  have hx := hs.sound j x h.session
  have hbusy : x.note.Busy := busy_of_next h.allow nofun
  obtain ⟨f, hf⟩ := h.served
  have hsettlement : ∀ i, t.shared.settlement i = s.shared.settlement i := by
    exact fun i => (serve_effect_of hf).settlement nofun i
  have hlanded : x.note.landed = false := by
    obtain ⟨r, hat, -⟩ := next_rename h.allow
    refine hx.not_landed ?_
    rw [hat.2]
    exact id
  have hfree := hs.clean j x h.session hbusy hlanded
  obtain ⟨y, hy, hnext⟩ := h.self
  -- when the server has carried it out, the job is told so
  have hlate : carriedOut a = true → y.note.point = .closing := by
    intro ha
    have hpoint := (hlands.answered j y hy (by rw [hnext]; exact ha)).1
    rw [hnext] at hpoint ⊢
    rcases a with e | _
    · exact absurd rfl hpoint
    · rfl
  have hrecord : y.note.record = x.note.record := hnext ▸ next_record nofun
  have hid : y.note.id = x.note.id := hnext ▸ next_id
  have hyl : y.note.landed = carriedOut a := by rw [hnext]; rfl
  have hlog : carriedOut a = true ∧ t.log = s.log ++ [⟨x.note.id, target⟩] ∨
      carriedOut a = false ∧ t.log = s.log := by
    rw [h.log, entries]
    rcases ha : carriedOut a
    · exact Or.inr ⟨rfl, by simp⟩
    · exact Or.inl ⟨rfl, by simp⟩
  refine safe_moves (n := some y.note) hs h.session hin
    (fun k z hz => (h.after k z hz).imp_left fun ⟨hk, hn⟩ => ⟨hk, by rw [hn, hnext]⟩) h.others
    (fun i _ => hsettlement i) ?_ ?_ ?_ ?_ ?_ ?_
  · rintro g ⟨⟩
    refine ⟨hid, fun r hr => hid ▸ hx.record r (hrecord ▸ hr), fun hl => ?_, fun _ => ?_⟩
    · rw [hlate (hyl ▸ hl)]
      trivial
    · rw [hid, hsettlement]
      exact hx.due hbusy
  · exact fun _ _ _ => Or.inl hbusy
  · rintro g ⟨⟩ - hl e he
    rcases hlog with ⟨ha, -⟩ | ⟨-, hlog⟩
    · rw [hyl, ha] at hl
      cases hl
    · rw [hid]
      exact hfree e (hlog ▸ he)
  · intro e he
    rcases hlog with ⟨-, hlog⟩ | ⟨-, hlog⟩
    · rcases List.mem_append.mp (hlog ▸ he) with he | he
      · exact Or.inl he
      · rw [List.mem_singleton.mp he]
        exact Or.inr ⟨rfl, hbusy⟩
    · exact Or.inl (hlog ▸ he)
  · intro e he heid
    rcases hlog with ⟨ha, -⟩ | ⟨-, hlog⟩
    · refine Or.inr (Or.inl ⟨y, hy, ⟨hrecord ▸ hbusy.1, ?_⟩, hyl.trans ha, hid.trans heid.symm⟩)
      rw [hlate ha]
      decide
    · exact absurd heid (hfree e (hlog ▸ he))
  · rcases hlog with ⟨-, hlog⟩ | ⟨-, hlog⟩
    · rw [hlog, List.map_append]
      refine List.Nodup.append hs.once (List.nodup_singleton _) ?_
      simp only [List.map_cons, List.map_nil, List.disjoint_singleton, List.mem_map, not_exists,
        not_and]
      exact hfree
    · exact hlog ▸ hs.once

/-- The job ends with its commit. -/
theorem safe_commit {j : ι} {x : Session UploadOp UploadOp.Ans UploadExc UploadOutcome Unit Errand}
    {i : Id} {u : SettlementUpdate} {a : Unit} (hs : Safe settings replaces s)
    (hin : InProtocol (uploads settings replaces) t)
    (h : Went settings replaces s t j x (.commit i u) a) : Safe settings replaces t := by
  have hx := hs.sound j x h.session
  have hbusy : x.note.Busy := busy_of_next h.allow nofun
  have hlog : t.log = s.log := by
    rw [h.log, entries_eq_nil (o := .commit _ _) nofun, List.append_nil]
  have hshared : t.shared = s.shared.update i u := by
    obtain ⟨f, hf⟩ := h.served
    exact serve_commit hf
  obtain ⟨y, hy, hnext⟩ := h.self
  have hover : y.note.point = .over := by rw [hnext]; rfl
  refine safe_moves (n := some y.note) hs h.session hin
    (fun k z hz => (h.after k z hz).imp_left fun ⟨hk, hn⟩ => ⟨hk, by rw [hn, hnext]⟩) h.others
    (fun i hi => hx.frame h.allow (hshared ▸ .updated) hi) ?_ ?_ ?_ (fun e he => Or.inl (hlog ▸ he))
    ?_ (hlog ▸ hs.once)
  · rintro g ⟨⟩
    have hid : y.note.id = x.note.id := hnext ▸ next_id
    refine ⟨hid, fun r hr => hid ▸ hx.record r ?_, fun _ => ?_, fun hb => absurd hover hb.2⟩
    · rw [hnext, next_record (o := .commit _ _) nofun] at hr
      exact hr
    · rw [hover]
      trivial
  · exact fun _ _ _ => Or.inl hbusy
  · rintro g ⟨⟩ hb
    exact absurd hover hb.2
  · intro e he hid
    refine Or.inl ?_
    rw [hid, hshared]
    refine hx.commit_recorded h.allow hbusy ?_
    by_contra hl
    exact hs.clean j x h.session hbusy (by simpa using hl) e (hlog ▸ he) hid

/-- Any other operation of a busy job. -/
theorem safe_on {j : ι} {x : Session UploadOp UploadOp.Ans UploadExc UploadOutcome Unit Errand}
    {o : UploadOp} {a : o.Ans} (hs : Safe settings replaces s)
    (hin : InProtocol (uploads settings replaces) t) (hlands : Lands s l t)
    (h : Went settings replaces s t j x o a) (hget : ∀ i, o ≠ .getSettlement i)
    (hrename : ∀ source target, o ≠ .rename source target) (hcommit : ∀ i u, o ≠ .commit i u) :
    Safe settings replaces t := by
  have hx := hs.sound j x h.session
  have hbusy : x.note.Busy := busy_of_next h.allow hget
  have hlog : t.log = s.log := by rw [h.log, entries_eq_nil hrename, List.append_nil]
  obtain ⟨f, hf⟩ := h.served
  have hsettlement : ∀ i, t.shared.settlement i = s.shared.settlement i := by
    exact fun i => (serve_effect_of hf).settlement hcommit i
  obtain ⟨y, hy, hnext⟩ := h.self
  have hid : y.note.id = x.note.id := hnext ▸ next_id
  have hrecord : y.note.record = x.note.record := hnext ▸ next_record hget
  have hyl : y.note.landed = x.note.landed := hnext ▸ next_landed hrename
  have hyb : y.note.Busy := by
    refine ⟨hrecord ▸ hbusy.1, fun hover => ?_⟩
    obtain ⟨i, u, rfl⟩ := commit_of_over hget (hnext ▸ hover)
    exact hcommit i u rfl
  refine safe_moves (n := some y.note) hs h.session hin
    (fun k z hz => (h.after k z hz).imp_left fun ⟨hk, hn⟩ => ⟨hk, by rw [hn, hnext]⟩) h.others
    (fun i _ => hsettlement i) ?_ ?_ ?_ (fun e he => Or.inl (hlog ▸ he)) ?_ (hlog ▸ hs.once)
  · rintro g ⟨⟩
    refine ⟨hid, fun r hr => hid ▸ hx.record r (hrecord ▸ hr), fun hl => ?_, fun _ => ?_⟩
    · have hmarking := (hlands.answered j y hy hl).2
      rw [hnext] at hmarking ⊢
      exact ((late_next h.allow (hx.late (hyl ▸ hl))).resolve_right hmarking).1
    · rw [hid, hsettlement]
      exact hx.due hbusy
  · exact fun _ _ _ => Or.inl hbusy
  · rintro g ⟨⟩ - hl e he
    rw [hid]
    exact hs.clean j x h.session hbusy (hyl ▸ hl) e (hlog ▸ he)
  · intro e he heid
    refine Or.inr (Or.inl ⟨y, hy, hyb, ?_, hid.trans heid.symm⟩)
    rw [hyl]
    by_contra hl
    exact hs.clean j x h.session hbusy (by simpa using hl) e (hlog ▸ he) heid

/-- A job that ends after its file has been renamed has recorded it. -/
theorem safe_ended {j : ι} {x : Session UploadOp UploadOp.Ans UploadExc UploadOutcome Unit Errand}
    (hs : Safe settings replaces s) (hin : InProtocol (uploads settings replaces) t)
    (h : Ended s t j x) (hframe : ∀ i, i ≠ x.note.id ∨ ¬ x.note.Busy →
      t.shared.settlement i = s.shared.settlement i)
    (hrecorded : x.note.Busy → x.note.landed = true → t.shared.Recorded x.note.id) :
    Safe settings replaces t := by
  refine safe_moves (n := none) hs h.session hin (fun k y hy => Or.inr (h.after k y hy)) h.others
    hframe (fun _ hg => nomatch hg) (fun _ hg => nomatch hg) (fun _ hg => nomatch hg)
    (fun e he => Or.inl (h.log ▸ he)) (fun e he hid => ?_) (h.log ▸ hs.once)
  by_cases hb : x.note.Busy
  · rw [hid]
    refine Or.inl (hrecorded hb ?_)
    by_contra hl
    exact hs.clean j x h.session hb (by simpa using hl) e (h.log ▸ he) hid
  · rcases hs.done e (h.log ▸ he) with ⟨r, hr, hrec⟩ | ⟨k, y, hy, hyb, hyl⟩
    · exact Or.inl ⟨r, (hframe _ (Or.inr hb)).trans hr, hrec⟩
    · refine Or.inr (Or.inr ⟨k, y, fun hk => hb ?_, hy, hyb, hyl⟩)
      subst hk
      exact Option.some.inj (hy.symm.trans h.session) ▸ hyb

variable [DecidableEq ι]

theorem safe_step (h : Step (uploads settings replaces) s l t) (hreads : ReadsAlone s l)
    (hlands : Lands s l t) (hs : Safe settings replaces s) : Safe settings replaces t := by
  have hin := inProtocol_uploads h hs.inProtocol
  cases move_of_step h hs.inProtocol with
  | started hl hj hshared hlog hafter hothers =>
    refine safe_beside hs hin (fun k y hy => ?_) hothers (fun i r hr hdue => ⟨r, hshared ▸ hr, hdue⟩)
      (fun i hi => hshared ▸ hi) hlog
    exact (hafter k y hy).symm.imp_right fun hnew => ⟨_, hnew.2⟩
  | @went j x o a hl hwent =>
    subst hl
    cases o with
    | getSettlement i => exact safe_read hs hin hwent hreads
    | rename source target => exact safe_rename hs hin hlands hwent
    | commit i u => exact safe_commit hs hin hwent
    | isFile _ | haveAsyncssh | connect _ | remove _ | put _ _ | close | now =>
      exact safe_on hs hin hlands hwent nofun nofun nofun
  | @failed j x o hl hnext hended heffect =>
    have hx := hs.sound j x hended.session
    refine safe_ended hs hin hended (fun i hi => hx.frame hnext heffect hi) fun hb hlanded => ?_
    obtain ⟨i, u, hcommit, hshared⟩ := hlands.commits j x hended.session hlanded hb hended.none
    obtain ⟨-, rfl⟩ := Label.go.inj (hl.symm.trans hcommit)
    rw [hshared]
    exact hx.commit_recorded hnext hb hlanded
  | part hl hj hnext hfile hpart hshared hsession hlog =>
    exact safe_beside hs hin (fun k y hy => Or.inl (hsession ▸ hy)) (fun k y hy => hsession ▸ hy)
      (fun i r hr hdue => ⟨r, hshared ▸ hr, hdue⟩) (fun i hi => hshared ▸ hi) hlog
  | @stopped j x hl hended hshared =>
    refine safe_ended hs hin hended (fun i _ => by rw [hshared]) fun hb hlanded => ?_
    obtain ⟨i, u, hcommit, -⟩ := hlands.commits j x hended.session hlanded hb hended.none
    cases hl.symm.trans hcommit
  | outside hl hout hsession hlog =>
    refine safe_beside hs hin (fun k y hy => Or.inl (hsession ▸ hy)) (fun k y hy => hsession ▸ hy)
      (fun i r hr hdue => ?_) (fun i hi => hout.recorded hi) hlog
    obtain ⟨r', hr', -, hstatus | ⟨hrec, -⟩⟩ := hout.kept i r hr
    · exact ⟨r', hr', by rw [EmoneySettlement.Due, hstatus]; exact hdue⟩
    · exact absurd hrec (due_not_recorded hdue)

/-- What is recorded, or acknowledged by the bank, stays so. -/
theorem recorded_step (h : Step (uploads settings replaces) s l t) (hs : Safe settings replaces s)
    {i : Id} {r : EmoneySettlement} (hr : s.shared.settlement i = some r) (hrec : r.Recorded) :
    ∃ r', t.shared.settlement i = some r' ∧ r'.Recorded ∧ (r.Acked → r'.Acked) := by
  have hsame (hshared : t.shared.settlement i = s.shared.settlement i) :
      ∃ r', t.shared.settlement i = some r' ∧ r'.Recorded ∧ (r.Acked → r'.Acked) :=
    ⟨r, hshared.trans hr, hrec, id⟩
  have hfree : ∀ j x, s.session j = some x → i ≠ x.note.id ∨ ¬ x.note.Busy := by
    intro j x hx
    by_contra! hb
    exact (hs.sound j x hx).not_recorded hb.2 (hb.1 ▸ ⟨r, hr, hrec⟩)
  cases move_of_step h hs.inProtocol with
  | started hl hj hshared hlog hafter hothers => exact hsame (by rw [hshared])
  | @went j x o a hl hwent =>
    obtain ⟨f, hf⟩ := hwent.served
    exact hsame ((hs.sound j x hwent.session).frame hwent.allow (serve_effect_of hf)
      (hfree j x hwent.session))
  | @failed j x o hl hnext hended heffect =>
    exact hsame ((hs.sound j x hended.session).frame hnext heffect (hfree j x hended.session))
  | part hl hj hnext hfile hpart hshared hsession hlog => exact hsame (by rw [hshared]; rfl)
  | stopped hl hended hshared => exact hsame (by rw [hshared])
  | outside hl hout hsession hlog =>
    obtain ⟨r', hr', -, hstatus | ⟨-, hacked⟩⟩ := hout.kept i r hr
    · refine ⟨r', hr', ?_, ?_⟩ <;> unfold EmoneySettlement.Acked at *
      · unfold EmoneySettlement.Recorded EmoneySettlement.Acked at *
        rw [hstatus]
        exact hrec
      · rw [hstatus]
        exact id
    · exact ⟨r', hr', Or.inr hacked, fun _ => hacked⟩

def goesOn (j : ι) : Label ι UploadOp × UploadSys ι → Bool
  | (.go k _, _) => k = j
  | _ => false

/-- A job whose file has been renamed comes closer to its end with each of its steps. -/
theorem landed_step (h : Step (uploads settings replaces) s l t) (hlands : Lands s l t)
    (hs : Safe settings replaces s) {j : ι}
    {x : Session UploadOp UploadOp.Ans UploadExc UploadOutcome Unit Errand}
    (hj : s.session j = some x) (hb : x.note.Busy) (hl : x.note.landed = true) :
    t.shared.Recorded x.note.id ∨ ∃ y, t.session j = some y ∧ y.note.Busy ∧
      y.note.landed = true ∧ y.note.id = x.note.id ∧
      y.note.point.left + (if goesOn j (l, t) then 1 else 0) ≤ x.note.point.left := by
  have hx := hs.sound j x hj
  have hlate := hx.late hl
  have hstays (hsession : t.session j = some x) (hgoes : goesOn j (l, t) = false) :
      t.shared.Recorded x.note.id ∨ ∃ y, t.session j = some y ∧ y.note.Busy ∧
        y.note.landed = true ∧ y.note.id = x.note.id ∧
        y.note.point.left + (if goesOn j (l, t) then 1 else 0) ≤ x.note.point.left := by
    refine Or.inr ⟨x, hsession, hb, hl, rfl, ?_⟩
    rw [hgoes]
    exact le_rfl
  cases move_of_step h hs.inProtocol with
  | started hstart _ _ _ _ hothers => exact hstays (hothers j x hj) (by rw [hstart]; rfl)
  | @went k y o a hgo hwent =>
    by_cases hk : k = j
    swap
    · exact hstays (hwent.others j x (Ne.symm hk) hj) (by rw [hgo]; exact decide_eq_false hk)
    subst hk
    cases hj.symm.trans hwent.session
    obtain ⟨f, hf⟩ := hwent.served
    have hget : ∀ i, o ≠ .getSettlement i := by
      rintro i rfl
      rw [(next_getSettlement hwent.allow).1] at hlate
      exact hlate
    have hrename : ∀ source target, o ≠ .rename source target := by
      rintro source target rfl
      obtain ⟨r, hr, -⟩ := next_rename hwent.allow
      rw [hr.2] at hlate
      exact hlate
    obtain ⟨y, hy, hnext⟩ := hwent.self
    by_cases hcommit : ∃ i u, o = .commit i u
    · obtain ⟨i, u, rfl⟩ := hcommit
      rw [serve_commit hf]
      exact Or.inl (hx.commit_recorded hwent.allow hb hl)
    · have hyl : y.note.landed = true := by rw [hnext, next_landed hrename, hl]
      have hyr : y.note.record = x.note.record := by rw [hnext, next_record hget]
      have hleft := (late_next (a := a) hwent.allow hlate).resolve_right
        (hnext ▸ (hlands.answered k y hy hyl).2)
      refine Or.inr ⟨y, hy, ⟨hyr ▸ hb.1, fun hover => hcommit ?_⟩, hyl, hnext ▸ next_id, ?_⟩
      · exact commit_of_over hget (hnext ▸ hover)
      · rw [hnext]
        split <;> omega
  | @failed k y o hgo hnext hended heffect =>
    by_cases hk : k = j
    swap
    · exact hstays (hended.others j x (Ne.symm hk) hj) (by rw [hgo]; exact decide_eq_false hk)
    subst hk
    obtain ⟨i, u, hcommit, hshared⟩ := hlands.commits k x hj hl hb hended.none
    cases hj.symm.trans hended.session
    obtain ⟨-, rfl⟩ := Label.go.inj (hgo.symm.trans hcommit)
    rw [hshared]
    exact Or.inl (hx.commit_recorded hnext hb hl)
  | @part k y path target content part hgo hy hnext hfile hpart hshared hsession hlog =>
    refine hstays (hsession ▸ hj) ?_
    rw [hgo]
    refine decide_eq_false fun hk => ?_
    subst hk
    cases hj.symm.trans hy
    obtain ⟨r, hr, -⟩ := next_put hnext
    rw [hr.2] at hlate
    exact hlate
  | @stopped k y hstop hended hshared =>
    by_cases hk : k = j
    · subst hk
      obtain ⟨i, u, hcommit, -⟩ := hlands.commits k x hj hl hb hended.none
      cases hstop.symm.trans hcommit
    · exact hstays (hended.others j x (Ne.symm hk) hj) (by rw [hstop]; rfl)
  | outside hout _ hsession _ => exact hstays (hsession ▸ hj) (by rw [hout]; rfl)

/-- A step that meets the condition. -/
def Kept (settings : SftpSettings) (replaces : Bool) (s : UploadSys ι) (l : Label ι UploadOp)
    (t : UploadSys ι) : Prop :=
  Step (uploads settings replaces) s l t ∧ ReadsAlone s l ∧ Lands s l t

theorem recorded_run {xs : List (Label ι UploadOp × UploadSys ι)}
    (h : Path (Kept settings replaces) s xs) (hs : Safe settings replaces s) {i : Id}
    {r : EmoneySettlement} (hr : s.shared.settlement i = some r) (hrec : r.Recorded) :
    ∃ r', (finish s xs).shared.settlement i = some r' ∧ r'.Recorded ∧ (r.Acked → r'.Acked) := by
  induction xs generalizing s r with
  | nil => exact ⟨r, hr, hrec, id⟩
  | cons x xs ih =>
    obtain ⟨l, t⟩ := x
    obtain ⟨hstep, hpath⟩ := h
    obtain ⟨r', hr', hrec', hacked⟩ := recorded_step hstep.1 hs hr hrec
    obtain ⟨r'', hr'', hrec'', hacked'⟩ :=
      ih hpath (safe_step hstep.1 hstep.2.1 hstep.2.2 hs) hr' hrec'
    exact ⟨r'', hr'', hrec'', hacked' ∘ hacked⟩

theorem landed_run {xs : List (Label ι UploadOp × UploadSys ι)}
    (h : Path (Kept settings replaces) s xs) (hs : Safe settings replaces s) {j : ι}
    {x : Session UploadOp UploadOp.Ans UploadExc UploadOutcome Unit Errand}
    (hj : s.session j = some x) (hb : x.note.Busy) (hl : x.note.landed = true)
    (hturns : x.note.point.left ≤ xs.countP (goesOn j)) :
    (finish s xs).shared.Recorded x.note.id := by
  induction xs generalizing s x with
  | nil => exact absurd hturns (Nat.not_le.mpr (left_pos hb ((hs.sound j x hj).late hl)))
  | cons y xs ih =>
    obtain ⟨l, t⟩ := y
    obtain ⟨hstep, hpath⟩ := h
    have ht := safe_step hstep.1 hstep.2.1 hstep.2.2 hs
    rcases landed_step hstep.1 hstep.2.2 hs hj hb hl with ⟨r, hr, hrec⟩ | ⟨y, hy, hyb, hyl, hid, hleft⟩
    · obtain ⟨r', hr', hrec', -⟩ := recorded_run hpath ht hr hrec
      exact ⟨r', hr', hrec'⟩
    · rw [← hid]
      refine ih hpath ht hy hyb hyl ?_
      rw [List.countP_cons] at hturns
      omega

/-- Once a settlement's file has been renamed, it is recorded as uploaded or the job that has asked
for the rename records it within its next three operations; no file is renamed twice; and what is
recorded or acknowledged stays so. -/
theorem retries_safe {xs : List (Label ι UploadOp × UploadSys ι)} (hquiet : s.Quiet)
    (h : Path (fun s l t => Step (uploads settings replaces) s l t ∧ ReadsAlone s l ∧ Lands s l t)
      s xs) :
    (∀ e ∈ (finish s xs).log, (finish s xs).shared.Recorded e.id ∨
      ∃ j x, (finish s xs).session j = some x ∧ x.note.Busy ∧ x.note.landed = true ∧
        x.note.id = e.id) ∧
    (∀ pre post j x, xs = pre ++ post → (finish s pre).session j = some x → x.note.Busy →
      x.note.landed = true → 3 ≤ post.countP (goesOn j) →
      (finish s xs).shared.Recorded x.note.id) ∧
    ((finish s xs).log.map Entry.id).Nodup ∧
    (∀ pre post i r, xs = pre ++ post → (finish s pre).shared.settlement i = some r → r.Recorded →
      ∃ r', (finish s xs).shared.settlement i = some r' ∧ r'.Recorded ∧ (r.Acked → r'.Acked)) := by
  have hnone : ∀ {j x}, s.session j ≠ some x := fun hj => by simp [hquiet.1] at hj
  have hentry : ∀ {e}, e ∉ s.log := fun he => by simp [hquiet.2] at he
  have hstart : Safe settings replaces s := ⟨hquiet.inProtocol, fun _ _ hj => absurd hj hnone,
    fun _ _ _ _ hj => absurd hj hnone, fun _ _ hj => absurd hj hnone, fun _ he => absurd he hentry,
    by rw [hquiet.2]; exact List.nodup_nil⟩
  have hrun : ∀ {ys}, Path (Kept settings replaces) s ys → Safe settings replaces (finish s ys) :=
    fun hys => hys.invariant (fun _ _ _ h hs => safe_step h.1 h.2.1 h.2.2 hs) hstart
  refine ⟨(hrun h).done, ?_, (hrun h).once, ?_⟩
  · rintro pre post j x rfl hj hb hl hturns
    obtain ⟨hpre, hpost⟩ := path_append.mp h
    rw [finish_append]
    exact landed_run hpost (hrun hpre) hj hb hl ((left_le _).trans hturns)
  · rintro pre post i r rfl hr hrec
    obtain ⟨hpre, hpost⟩ := path_append.mp h
    rw [finish_append]
    exact recorded_run hpost (hrun hpre) hr hrec

end Retries

section Trials

/-- A job that is the only one possible reads alone. -/
theorem readsAlone_of_subsingleton {ι : Type} [Subsingleton ι] {s : UploadSys ι}
    {l : Label ι UploadOp} : ReadsAlone s l := by
  rcases l with j | ⟨j, o⟩ | j | _
  · trivial
  · cases o with
    | getSettlement i => exact fun k _ _ hk => absurd (Subsingleton.elim k j) hk
    | isFile _ | haveAsyncssh | connect _ | remove _ | put _ _ | rename _ _ | close | now
    | commit _ _ => trivial
  · trivial
  · trivial

theorem handover_lands : Path (fun s l t => Lands s l t) handover handoverRun := by
  have hchecked : Path (fun s _ t =>
      ((t.session ()).all fun x => decide (x.note.landed = true →
        x.note.point ≠ .unwinding ∧ x.note.point ≠ .marking)) = true ∧
      ((s.session ()).all fun x => decide (x.note.landed = true → x.note.Busy →
        (t.session ()).isSome = true)) = true) handover handoverRun := by decide
  refine hchecked.mono fun s l t h => ⟨fun j x hx => ?_, fun j x hx hl hb hnone => ?_⟩
  · exact of_decide_eq_true (Option.all_eq_true _ _ |>.mp h.1 x hx)
  · have hsome := of_decide_eq_true (Option.all_eq_true _ _ |>.mp h.2 x hx) hl hb
    rw [show t.session () = none from hnone] at hsome
    cases hsome

theorem retries_safe_handover :
    (∀ e ∈ (finish handover handoverRun).log, (finish handover handoverRun).shared.Recorded e.id ∨
      ∃ j x, (finish handover handoverRun).session j = some x ∧ x.note.Busy ∧
        x.note.landed = true ∧ x.note.id = e.id) ∧
    (∀ pre post j x, handoverRun = pre ++ post → (finish handover pre).session j = some x →
      x.note.Busy → x.note.landed = true → 3 ≤ post.countP (goesOn j) →
      (finish handover handoverRun).shared.Recorded x.note.id) ∧
    ((finish handover handoverRun).log.map Entry.id).Nodup ∧
    (∀ pre post i r, handoverRun = pre ++ post → (finish handover pre).shared.settlement i = some r →
      r.Recorded → ∃ r', (finish handover handoverRun).shared.settlement i = some r' ∧
        r'.Recorded ∧ (r.Acked → r'.Acked)) :=
  retries_safe ⟨fun _ => rfl, rfl⟩ ((handover_path.and handover_lands).mono fun _ _ _ h =>
    ⟨h.1, readsAlone_of_subsingleton, h.2⟩)

/-- The bank's answer to what has been uploaded. -/
def acknowledged (s : Site) : Site :=
  { s with
    desk.world.db.settlements := s.desk.world.db.settlements.map fun r =>
      if r.status = "UPLOADED" then { r with status := "ACKED_OK" } else r }

theorem around_acknowledged (s : Site) : Around s (acknowledged s) := by
  have hid : ∀ r : EmoneySettlement,
      (if r.status = "UPLOADED" then { r with status := "ACKED_OK" } else r).id = r.id := by
    intro r
    split <;> rfl
  have hsettlement : ∀ i, (acknowledged s).settlement i = (s.settlement i).map fun r =>
      if r.status = "UPLOADED" then { r with status := "ACKED_OK" } else r := by
    intro i
    simp only [Site.settlement, acknowledged, List.find?_map, Function.comp_def, hid]
  refine ⟨fun i r hr => ?_, fun i r hnone hr => ?_, fun path _ => Or.inl rfl⟩
  · refine ⟨_, (hsettlement i).trans (by rw [hr, Option.map_some]), ?_⟩
    by_cases hstatus : r.status = "UPLOADED"
    · rw [if_pos hstatus]
      exact ⟨rfl, Or.inr ⟨Or.inl hstatus, Or.inl rfl⟩⟩
    · rw [if_neg hstatus]
      exact ⟨rfl, Or.inl rfl⟩
  · rw [hsettlement, hnone] at hr
    cases hr

/-- As many jobs as a job is tried. -/
def tries : UploadSys (Fin 3) where
  shared := handover.shared

local instance threeTries : NeZero 3 := ⟨by decide⟩

/-- The first try renames the file and its commit fails; two more follow. -/
def lostCommitRun : List (Label (Fin 3) UploadOp × UploadSys (Fin 3)) :=
  let first := takeTurns (uploads bank false)
    (perform false fun
      | .commit _ _ => .refused
      | _ => .done)
    tries (UploadTurn.full bank 0 1)
  first ++ takeTurns (uploads bank false) (perform false fun _ => .done) (finish tries first)
    (UploadTurn.full bank 1 1 ++ UploadTurn.full bank 2 1)

/-- Two jobs find the settlement due, and the second comes to the rename after the bank has
acknowledged the file. -/
def overlapRun : List (Label (Fin 3) UploadOp × UploadSys (Fin 3)) :=
  takeTurns (uploads bank false) (perform false fun _ => .done) tries
    ([UploadTurn.job bank 0 1, UploadTurn.job bank 1 1, .go 0, .go 1] ++
      List.replicate 9 (.go 0) ++ [.outside acknowledged] ++ List.replicate 10 (.go 1))

theorem lost_commit_path : Path (Step (uploads bank false)) tries lostCommitRun := by
  refine path_append.mpr ⟨perform_path (fun j p u g h => ?_) fun f h => ?_,
    perform_path (fun j p u g h => ?_) fun f h => ?_⟩ <;>
    simp [UploadTurn.full, UploadTurn.job] at h
  · obtain ⟨-, rfl, rfl⟩ := h
    exact ⟨1, rfl, rfl⟩
  · rcases h with ⟨-, rfl, rfl⟩ | ⟨-, rfl, rfl⟩ <;> exact ⟨1, rfl, rfl⟩

theorem overlap_path : Path (Step (uploads bank false)) tries overlapRun := by
  refine perform_path (fun j p u g h => ?_) fun f h => ?_ <;>
    simp [UploadTurn.job] at h
  · rcases h with ⟨-, rfl, rfl⟩ | ⟨-, rfl, rfl⟩ <;> exact ⟨1, rfl, rfl⟩
  · rw [h]
    exact around_acknowledged

/-- A settlement whose file the bank has is left FAILED when all tries are used, and one that the
bank has acknowledged goes back to FAILED. -/
theorem renamed_left_failed :
    (Path (Step (uploads bank false)) tries lostCommitRun ∧
      (∀ j, ((finish tries lostCommitRun).session j).isNone) ∧
      (finish tries lostCommitRun).log.map Entry.id = [1] ∧
      ((finish tries lostCommitRun).shared.settlement 1).map (·.status) = some "FAILED") ∧
    (Path (Step (uploads bank false)) tries overlapRun ∧
      ((finish tries (overlapRun.take 14)).shared.settlement 1).map (·.status) = some "ACKED_OK" ∧
      ((finish tries overlapRun).shared.settlement 1).map (·.status) = some "FAILED") :=
  ⟨⟨lost_commit_path, by decide, by decide, by decide⟩, overlap_path, by decide, by decide⟩

end Trials
end ParkIt.Upload
