import ParkIt.Settlement.Handover
import ParkIt.Upload.Attempt
import ParkIt.Upload.Jobs
import ParkIt.Upload.Poll

/-! The scheduled jobs one after the other: which settlements come to the upload job again. -/
namespace ParkIt.Upload

open Effects Settlement Transition

/-- The ids of the records come from the sequence. -/
def Sequenced (s : Site) : Prop :=
  ∀ r ∈ s.desk.world.db.settlements, r.id < s.desk.nextSettlement

/-- A cron run or a manual run, a try of an upload, a poll, and whatever else happens. -/
inductive Task where
  | generate (ctx : Ctx)
  | upload (settings : SftpSettings) (settlementId : Id) (replaces : Bool) (fate : UploadOp → Fate)
  | poll (settings : SftpSettings) (trouble : Nat → Option (PollExc × Bool))
  | other

/-- Other changes are free, runs that die on the way included, as long as ids come from the
sequence. -/
def TaskStep (sha256 : String → String) (s : Site) (task : Task) (s' : Site) : Prop :=
  match task with
  | .generate ctx => s' = { s with desk := (Settlement.generate sha256 ctx s.desk).2 }
  | .upload settings i replaces fate => s' = (Upload.upload replaces fate settings i s).2.site
  | .poll settings trouble => s' = (Upload.poll settings trouble s).2
  | .other => Sequenced s → Sequenced s'

/-- Every settlement that is still to be uploaded has an upload that was enqueued between the two
states. -/
def Resumed (s s' : Site) : Prop :=
  ∃ new, s'.desk.uploads = s.desk.uploads ++ new ∧
    ∀ r ∈ s'.desk.world.db.settlements, r.Due → r.id ∈ new

section Sequence
variable {sha256 : String → String}

/-- What the tables show to a run and what it has committed. -/
def SequencedConn (c : Settlement.Conn) : Prop :=
  (∀ r ∈ c.state.world.db.settlements, r.id < c.state.nextSettlement) ∧
    ∀ r ∈ c.saved.settlements, r.id < c.state.nextSettlement

theorem sequenced_exec (o : JobOp) (c : Settlement.Conn) (h : SequencedConn c) :
    SequencedConn (Settlement.exec o c).2 := by
  obtain ⟨hdb, hsaved⟩ := h
  cases o with
  | insertSettlement row =>
    have hlater : ∀ {i : Id}, i < c.state.nextSettlement → i < c.state.nextSettlement + 1 :=
      fun hi => hi.trans (Int.lt_succ _)
    simp only [Settlement.exec]
    by_cases hrow : EmoneySettlement.accepted { row with id := c.state.nextSettlement } = true
    · rw [if_pos hrow]
      refine ⟨fun r hr => ?_, fun r hr => hlater (hsaved r hr)⟩
      rcases List.mem_append.mp hr with hr | hr
      · exact hlater (hdb r hr)
      · rw [List.mem_singleton.mp hr]
        exact Int.lt_succ _
    · rw [if_neg hrow]
      exact ⟨fun r hr => hlater (hdb r hr), fun r hr => hlater (hsaved r hr)⟩
  | commit => exact ⟨hdb, hdb⟩
  | setLock _ | writeFile _ _ =>
    simp only [Settlement.exec]
    split
    · exact ⟨hdb, hsaved⟩
    · split <;> exact ⟨hdb, hsaved⟩
  | makedirs | incrBatch _ | expireBatch _ | enqueueUpload _ =>
    simp only [Settlement.exec]
    split <;> exact ⟨hdb, hsaved⟩
  | now | unsettledReaders | reader _ | unsettled _ | link _ _ => exact ⟨hdb, hsaved⟩

theorem sequenced_generate {ctx : Ctx} {s : Site} (h : Sequenced s) :
    Sequenced { s with desk := (Settlement.generate sha256 ctx s.desk).2 } := by
  have hensures : ∀ c, Prog.Ensures Settlement.exec (generateSettlementFile sha256 ctx) c
      (fun _ c' => SequencedConn c → SequencedConn c')
      fun _ c' => SequencedConn c → SequencedConn c' :=
    (only_any _).ensures (fun _ h => h) (fun _ _ _ h h' => h' ∘ h) fun o c _ => sequenced_exec o c
  have hrun := hensures { state := s.desk, saved := s.desk.world.db }
  unfold Sequenced Settlement.generate
  unfold Prog.Ensures at hrun
  rcases hr : (generateSettlementFile sha256 ctx).run Settlement.exec
    { state := s.desk, saved := s.desk.world.db } with ⟨e | a, c'⟩ <;> rw [hr] at hrun <;>
    exact (hrun ⟨h, h⟩).2

/-- The ids of the records and the sequence stay as they are. -/
structure SameIds (s s' : Site) : Prop where
  ids : s'.desk.world.db.settlements.map (·.id) = s.desk.world.db.settlements.map (·.id)
  next : s'.desk.nextSettlement = s.desk.nextSettlement

theorem SameIds.sequenced {s s' : Site} (h : SameIds s s') (hs : Sequenced s) : Sequenced s' := by
  intro r hr
  have hid : r.id ∈ s.desk.world.db.settlements.map (·.id) := h.ids ▸ List.mem_map_of_mem hr
  obtain ⟨r', hr', heq⟩ := List.mem_map.mp hid
  rw [h.next, ← heq]
  exact hs r' hr'

theorem SameIds.trans {s s' s'' : Site} (h : SameIds s s') (h' : SameIds s' s'') : SameIds s s'' :=
  ⟨h'.ids.trans h.ids, h'.next.trans h.next⟩

theorem Effect.sameIds {s s' : Site} {o : UploadOp} (h : Effect s o s') : SameIds s s' := by
  cases h with
  | nothing | tick | removed | put _ _ | renamed _ => exact ⟨rfl, rfl⟩
  | updated =>
    refine ⟨?_, rfl⟩
    simp only [Site.update, List.map_map]
    refine List.map_congr_left fun r _ => ?_
    simp only [Function.comp_apply]
    split <;> rfl

theorem sameIds_upload (settings : SftpSettings) (i : Id) (replaces : Bool) (fate : UploadOp → Fate)
    (s : Site) : SameIds s (upload replaces fate settings i s).2.site := by
  have hexec : ∀ (o : UploadOp) (c : Attempt), SameIds c.site (exec replaces fate o c).2.site := by
    intro o c
    have hserve := (serve_effect replaces (fate o) o c.site).sameIds
    unfold exec
    split
    · rename_i a s' h
      rw [h] at hserve
      exact hserve
    · rename_i e s' h
      rw [h] at hserve
      exact hserve
  have hensures : ∀ c, Prog.Ensures (exec replaces fate) (uploadSettlementJob settings i) c
      (fun _ c' => SameIds c.site c'.site) fun _ c' => SameIds c.site c'.site :=
    (only_any _).ensures (fun _ => ⟨rfl, rfl⟩) (fun _ _ _ h h' => SameIds.trans h h')
      fun o c _ => hexec o c
  have hrun := hensures ⟨s, []⟩
  unfold Upload.upload
  unfold Prog.Ensures at hrun
  rcases hr : (uploadSettlementJob settings i).run (exec replaces fate) ⟨s, []⟩ with ⟨e | a, c'⟩ <;>
    rw [hr] at hrun <;> exact hrun

theorem sameIds_poll (settings : SftpSettings) (trouble : Nat → Option (PollExc × Bool)) (s : Site) :
    SameIds s (poll settings trouble s).2 := by
  have hanswer : ∀ (o : PollOp) (s : Site), SameIds s (answer o s).2 := by
    intro o s
    cases o with
    | get _ _ =>
      simp only [answer]
      split <;> exact ⟨rfl, rfl⟩
    | read _ =>
      simp only [answer]
      split
      · exact ⟨rfl, rfl⟩
      · split <;> exact ⟨rfl, rfl⟩
    | commit answers now i status ext =>
      simp only [answer]
      split
      · refine ⟨?_, rfl⟩
        simp only [Site.respond, Db.respond, List.map_map]
        refine List.map_congr_left fun r _ => ?_
        simp only [Function.comp_apply]
        split <;> rfl
      · exact ⟨rfl, rfl⟩
    | now | pending _ | importAsyncssh | connect _ | removeLocal _ | close | rows _ =>
      exact ⟨rfl, rfl⟩
  have hexec : ∀ (o : PollOp) (c : PollConn), SameIds c.site (execPoll trouble o c).2.site := by
    intro o c
    unfold execPoll
    dsimp only
    split
    · exact hanswer o c.site
    · split
      · exact hanswer o c.site
      · exact ⟨rfl, rfl⟩
  have hensures : ∀ c, Prog.Ensures (execPoll trouble) (pollSettlementResponses settings) c
      (fun _ c' => SameIds c.site c'.site) fun _ c' => SameIds c.site c'.site :=
    (only_any _).ensures (fun _ => ⟨rfl, rfl⟩) (fun _ _ _ h h' => SameIds.trans h h')
      fun o c _ => hexec o c
  have hrun := hensures ⟨s, 0⟩
  unfold Upload.poll
  unfold Prog.Ensures at hrun
  rcases hr : (pollSettlementResponses settings).run (execPoll trouble) ⟨s, 0⟩ with ⟨e | a, c'⟩ <;>
    rw [hr] at hrun <;> exact hrun

theorem sequenced_step {s s' : Site} {task : Task} (h : TaskStep sha256 s task s')
    (hs : Sequenced s) : Sequenced s' := by
  cases task with
  | generate ctx => exact h ▸ sequenced_generate hs
  | upload settings i replaces fate => exact h ▸ (sameIds_upload settings i replaces fate s).sequenced hs
  | poll settings trouble => exact h ▸ (sameIds_poll settings trouble s).sequenced hs
  | other => exact h hs

end Sequence

section Resumed
variable {sha256 : String → String} {s t : Site}

/-- In every history of the jobs, a cron run that ends without an exception leaves every settlement
that is still to be uploaded with a new upload exactly when there was none of these before it. -/
theorem resumed_iff {pre post : List (Task × Site)} {out : Outcome} (hs : Sequenced s)
    (h : Path (TaskStep sha256) s (pre ++ (.generate ⟨true⟩, t) :: post))
    (hout : (Settlement.generate sha256 ⟨true⟩ (finish s pre).desk).1 = .ok out) :
    Resumed (finish s pre) t ↔
      ∀ r ∈ (finish s pre).desk.world.db.settlements, ¬ r.Due := by
  obtain ⟨hpre, hstep⟩ := h.at_step (fun _ _ _ h hs => sequenced_step h hs) hs rfl
  obtain ⟨rs, hsaved, huploads, hfresh⟩ := generate_handed (Prod.ext hout rfl)
  have ht : t = { finish s pre with
      desk := (Settlement.generate sha256 ⟨true⟩ (finish s pre).desk).2 } := hstep
  constructor
  · rintro ⟨new, hnew, hall⟩ r hr hdue
    have hsame : new = rs.map (·.id) := by
      have happend : (finish s pre).desk.uploads ++ new =
          (finish s pre).desk.uploads ++ rs.map (·.id) := by
        rw [← hnew, ht]
        exact huploads
      exact List.append_cancel_left happend
    have hmem : r ∈ t.desk.world.db.settlements := by
      rw [ht, hsaved]
      exact List.mem_append_left _ hr
    have hid := hall r hmem hdue
    rw [hsame] at hid
    obtain ⟨r', hr', heq⟩ := List.mem_map.mp hid
    have hlow := hpre r hr
    have hhigh := hfresh r' hr'
    rw [heq] at hhigh
    exact absurd hlow (not_lt.mpr hhigh)
  · intro hnone
    refine ⟨rs.map (·.id), by rw [ht]; exact huploads, fun r hr hdue => ?_⟩
    rw [ht, hsaved] at hr
    rcases List.mem_append.mp hr with hr | hr
    · exact absurd hdue (hnone r hr)
    · exact List.mem_map_of_mem hr

/-- The first night at the desk. -/
def night : Site := { desk := nightDesk }

theorem resumed_iff_night :
    Resumed night { night with desk := (Settlement.generate id ⟨true⟩ nightDesk).2 } ↔
      ∀ r ∈ night.desk.world.db.settlements, ¬ r.Due := by
  have hout : (Settlement.generate id ⟨true⟩ nightDesk).1 = .ok (.success 1 2) := by
    decide +kernel
  have hnone : Sequenced night := fun _ h => absurd h List.not_mem_nil
  exact @resumed_iff id night _ [] [] _ hnone ⟨rfl, trivial⟩ hout

/-- A manual run has no Redis to enqueue with, and the cron run after it finds nothing to do. -/
theorem manual_run_stranded :
    let s := { night with desk := (Settlement.generate id ⟨false⟩ nightDesk).2 }
    let t := { s with desk := (Settlement.generate id ⟨true⟩ s.desk).2 }
    (Settlement.generate id ⟨true⟩ s.desk).1 = .ok (.success 0 0) ∧ ¬ Resumed s t := by
  intro s t
  have hempty : s.desk.uploads = [] ∧ t.desk.uploads = [] := by decide +kernel
  have hdue : ∃ r ∈ t.desk.world.db.settlements, r.Due := by decide +kernel
  refine ⟨by decide +kernel, fun ⟨new, hnew, hall⟩ => ?_⟩
  obtain ⟨r, hr, hr'⟩ := hdue
  rw [hempty.1, hempty.2, List.nil_append] at hnew
  have hmem := hall r hr hr'
  rw [← hnew] at hmem
  cases hmem

end Resumed
end ParkIt.Upload
