import ParkIt.Upload.Worker

/-! Single runs of the upload job: when a settlement that becomes UPLOADED has been delivered. -/
namespace ParkIt.Upload

open Effects

/-- What the server has carried out for the job. -/
inductive Event where
  | put (target content : String)
  | renamed (source target : String)
deriving DecidableEq, Repr

structure Attempt where
  site : Site
  events : List Event := []

def eventsOf : (o : UploadOp) → Site → o.Ans → List Event
  | .put path target, s, .ok () => (s.files path).toList.map (.put target)
  | .rename source target, _, .ok () => [.renamed source target]
  | _, _, _ => []

section Run
variable (replaces : Bool) (fate : UploadOp → Fate)

/-- No operation is issued twice in a run, so its fate need not depend on the moment. -/
def exec (o : UploadOp) (c : Attempt) : Except UploadExc o.Ans × Attempt :=
  match serve replaces (fate o) o c.site with
  | (.ok a, s) => (.ok a, ⟨s, c.events ++ eventsOf o c.site a⟩)
  | (.error e, s) => (.error e, { c with site := s })

def upload (settings : SftpSettings) (i : Id) (s : Site) :
    Except UploadExc UploadOutcome × Attempt :=
  (uploadSettlementJob settings i).run (exec replaces fate) ⟨s, []⟩

end Run

/-- The operations of `upload_settlement_file`. -/
def OffDesk : UploadOp → Prop
  | .getSettlement _ | .commit _ _ | .now => False
  | _ => True

section Ensures
variable {replaces : Bool} {fate : UploadOp → Fate} {c : Attempt} {filePath remoteDir : String}
  {conn : Connection} {err : UploadExc → Attempt → Prop}

theorem ensures_ask {o : UploadOp} {ok : o.Ans → Attempt → Prop} :
    Prog.Ensures (exec replaces fate) (ask o) c ok err ↔
      match exec replaces fate o c with
      | (.ok a, c') => ok a c'
      | (.error e, c') => err e c' := by
  rw [Prog.Ensures, ask, Prog.run_perform]
  rcases exec replaces fate o c with ⟨e | a, c'⟩ <;> rfl

@[simp] theorem ensures_orRaise {α : Type} {a : Except UploadExc α} {ok : α → Attempt → Prop} :
    Prog.Ensures (exec replaces fate) (orRaise a) c ok err ↔
      match a with
      | .ok a => ok a c
      | .error e => err e c := by
  cases a <;> rfl

theorem request_desk {x : Fate} {s s' : Site} (h : s'.desk = s.desk) :
    (request x s s').2.desk = s.desk := by
  unfold request
  split <;> first | rfl | exact h

/-- An operation off the desk leaves the desk alone, and what it raises is its answer. -/
theorem serve_offDesk {o : UploadOp} (ho : OffDesk o) (replaces : Bool) (x : Fate) (s : Site) :
    (∃ a, (serve replaces x o s).1 = .ok a) ∧ (serve replaces x o s).2.desk = s.desk := by
  cases o with
  | getSettlement _ | commit _ _ | now => exact ho.elim
  | isFile _ | haveAsyncssh => exact ⟨⟨_, rfl⟩, rfl⟩
  | connect _ | close | remove _ | rename _ _ => exact ⟨⟨_, rfl⟩, request_desk rfl⟩
  | put path target =>
    simp only [serve]
    split
    · exact ⟨⟨_, rfl⟩, rfl⟩
    · exact ⟨⟨_, rfl⟩, rfl⟩
    · exact ⟨⟨_, rfl⟩, request_desk rfl⟩

theorem exec_offDesk {o : UploadOp} (ho : OffDesk o) (c : Attempt) :
    ∃ a, (exec replaces fate o c).1 = .ok a := by
  obtain ⟨a, ha⟩ := (serve_offDesk ho replaces (fate o) c.site).1
  refine ⟨a, ?_⟩
  unfold exec
  split
  · rename_i a' s h
    rw [h] at ha
    exact ha
  · rename_i e s h
    rw [h] at ha
    cases ha

theorem only_orRaise {α : Type} (a : Except UploadExc α) :
    Only OffDesk (fun _ => True) (orRaise a) := by
  cases a <;> trivial

theorem only_try (o : UploadOp) {f : o.Ans → UploadJob Unit} (ho : OffDesk o)
    (hf : ∀ a, Only OffDesk (fun _ => True) (f a)) :
    Only OffDesk (fun _ => True) (ask o >>= f) := (only_perform ho).bind hf

/-- A request is answered as it should be, or it raises and may have been carried out. -/
theorem request_cases (x : Fate) (s s' : Site) :
    (x = .done ∧ request x s s' = (.ok (), s')) ∨
      x ≠ .done ∧ ∃ e t, request x s s' = (.error e, t) ∧ (t = s ∨ t = s') := by
  rcases x with _ | _ | served | n
  · exact Or.inl ⟨rfl, rfl⟩
  · exact Or.inr ⟨nofun, _, _, rfl, Or.inl rfl⟩
  · cases served
    · exact Or.inr ⟨nofun, _, _, rfl, Or.inl rfl⟩
    · exact Or.inr ⟨nofun, _, _, rfl, Or.inr rfl⟩
  · exact Or.inr ⟨nofun, _, _, rfl, Or.inl rfl⟩

/-- The name is free on the server, or it does not have to be. -/
def Free (replaces : Bool) (s : Site) (target : String) : Prop :=
  replaces = true ∨ s.remote target = none

/-- The stale file is gone or it is still there: nothing else changes. -/
theorem remove_ensures {tmp : String} :
    Prog.Ensures (exec replaces fate)
      (Prog.handle (do orRaise (← ask (.remove tmp))) fun _ => pure ()) c
      (fun _ c' => (c'.site = c.site ∨ c'.site = c.site.place tmp none) ∧ c'.events = c.events)
      fun _ _ => False := by
  have honly : Only OffDesk (fun _ => True)
      (do orRaise (← ask (.remove tmp)) : UploadJob Unit) := only_try _ trivial only_orRaise
  rw [ensures_handle honly (fun _ c ho => exec_offDesk ho c), Prog.ensures_bind, ensures_ask]
  simp only [exec, serve]
  rcases request_cases (if (c.site.remote tmp).isSome then fate (.remove tmp) else .refused)
    c.site (c.site.place tmp none) with ⟨-, h⟩ | ⟨-, e, t, h, ht⟩ <;> rw [h]
  · exact ⟨Or.inr rfl, List.append_nil _⟩
  · exact ⟨ht, List.append_nil _⟩

theorem put_ensures {path tmp content : String} (hfile : c.site.files path = some content) :
    Prog.Ensures (exec replaces fate) (do orRaise (← ask (.put path tmp))) c
      (fun _ c' => fate (.put path tmp) = .done ∧ c'.site = c.site.place tmp (some content) ∧
        c'.events = c.events ++ [.put tmp content])
      fun _ _ => fate (.put path tmp) ≠ .done := by
  rw [Prog.ensures_bind, ensures_ask]
  have hevents : eventsOf (.put path tmp) c.site (.ok ()) = [.put tmp content] := by
    simp only [eventsOf, hfile, Option.toList_some, List.map_cons, List.map_nil]
  simp only [exec, serve, hfile]
  rcases hx : fate (.put path tmp) with _ | _ | served | n
  · exact ⟨rfl, rfl, congrArg (c.events ++ ·) hevents⟩
  · exact nofun
  · cases served <;> exact nofun
  · exact nofun

theorem rename_ensures {tmp target content : String} (htmp : c.site.remote tmp = some content) :
    Prog.Ensures (exec replaces fate) (do orRaise (← ask (.rename tmp target))) c
      (fun _ c' => (fate (.rename tmp target) = .done ∧ Free replaces c.site target) ∧
        c'.events = c.events ++ [.renamed tmp target])
      fun _ _ => ¬ (fate (.rename tmp target) = .done ∧ Free replaces c.site target) := by
  rw [Prog.ensures_bind, ensures_ask]
  simp only [exec, serve, htmp, Option.isSome_some, Bool.true_and]
  have hfree : (replaces || (c.site.remote target).isNone) = true ↔ Free replaces c.site target := by
    simp [Free]
  rw [← hfree]
  generalize (replaces || (c.site.remote target).isNone) = free
  cases free
  · exact fun h => Bool.noConfusion h.2
  · rcases request_cases (fate (.rename tmp target)) c.site
      ((c.site.place tmp none).place target (some content)) with ⟨hx, h⟩ | ⟨hx, e, t, h, -⟩
    · simp only [if_true, h]
      exact ⟨⟨hx, trivial⟩, rfl⟩
    · simp only [if_true, h]
      exact fun h => hx h.1

theorem only_transfer {path tmp target : String} :
    Only OffDesk (fun _ => True) (do
      Prog.handle (do orRaise (← ask (.remove tmp))) fun _ => pure ()
      orRaise (← ask (.put path tmp))
      orRaise (← ask (.rename tmp target))) := by
  refine ((only_try (.remove tmp) trivial only_orRaise).handle fun _ _ => only_pure).bind
    fun _ => ?_
  exact (only_try (.put path tmp) trivial only_orRaise).bind fun _ =>
    only_try (.rename tmp target) trivial only_orRaise

/-- What a transfer that meets no exception takes. -/
def Transfers (replaces : Bool) (fate : UploadOp → Fate) (s : Site) (path tmp target : String) :
    Prop :=
  fate (.put path tmp) = .done ∧ fate (.rename tmp target) = .done ∧ Free replaces s target

/-- Whatever becomes of the stale file, the file is put whole and then renamed. -/
theorem transfer_ensures {path tmp target content : String} (hne : target ≠ tmp)
    (hfile : c.site.files path = some content) :
    Prog.Ensures (exec replaces fate) (do
        Prog.handle (do orRaise (← ask (.remove tmp))) fun _ => pure ()
        orRaise (← ask (.put path tmp))
        orRaise (← ask (.rename tmp target))) c
      (fun _ c' => Transfers replaces fate c.site path tmp target ∧
        c'.events = c.events ++ [.put tmp content, .renamed tmp target])
      fun _ _ => ¬ Transfers replaces fate c.site path tmp target := by
  refine remove_ensures.bind (fun _ _ h => h.elim) fun _ c₁ h₁ => ?_
  obtain ⟨hsite, hevents⟩ := h₁
  have hfile₁ : c₁.site.files path = some content := by
    rcases hsite with h | h <;> rw [h] <;> exact hfile
  have htarget : c₁.site.remote target = c.site.remote target := by
    rcases hsite with h | h <;> rw [h]
    exact if_neg hne
  refine (put_ensures hfile₁).bind (fun _ _ h hall => h hall.1) fun _ c₂ h₂ => ?_
  obtain ⟨hput, hsite₂, hevents₂⟩ := h₂
  have htmp : c₂.site.remote tmp = some content := by
    rw [hsite₂]
    exact if_pos rfl
  have hfree : Free replaces c₂.site target ↔ Free replaces c.site target := by
    have hsame : c₂.site.remote target = c.site.remote target := by
      rw [hsite₂, ← htarget]
      exact if_neg hne
    rw [Free, Free, hsame]
  refine (rename_ensures htmp).mono (fun _ c₃ h₃ => ?_) fun _ _ h hall => ?_
  · refine ⟨⟨hput, h₃.1.1, hfree.mp h₃.1.2⟩, ?_⟩
    rw [h₃.2, hevents₂, hevents, List.append_assoc]
    rfl
  · exact h ⟨hall.2.1, hfree.mpr hall.2.2⟩

theorem connect_ensures {conn : Connection} :
    Prog.Ensures (exec replaces fate) (do orRaise (← ask (.connect conn))) c
      (fun _ c' => fate (.connect conn) = .done ∧ c' = c) fun _ _ => fate (.connect conn) ≠ .done := by
  rw [Prog.ensures_bind, ensures_ask]
  simp only [exec, serve]
  rcases request_cases (fate (.connect conn)) c.site c.site with ⟨hx, h⟩ | ⟨hx, e, t, h, -⟩ <;>
    rw [h]
  · exact ⟨hx, congrArg (Attempt.mk c.site) (List.append_nil _)⟩
  · exact hx

theorem close_ensures :
    Prog.Ensures (exec replaces fate) (do orRaise (← ask .close)) c
      (fun _ c' => fate .close = .done ∧ c' = c) fun _ _ => fate .close ≠ .done := by
  rw [Prog.ensures_bind, ensures_ask]
  simp only [exec, serve]
  rcases request_cases (fate .close) c.site c.site with ⟨hx, h⟩ | ⟨hx, e, t, h, -⟩ <;> rw [h]
  · exact ⟨hx, congrArg (Attempt.mk c.site) (List.append_nil _)⟩
  · exact hx

/-- What an upload that meets no exception takes once the file has been found. -/
structure Serves (replaces : Bool) (fate : UploadOp → Fate) (conn : Connection) (s : Site)
    (path tmp target : String) : Prop where
  asyncssh : s.asyncssh = true
  connect : fate (.connect conn) = .done
  transfer : Transfers replaces fate s path tmp target
  close : fate .close = .done

theorem session_ensures {conn : Connection} {body : UploadJob Unit} {P : Prop} {es : List Event}
    (honly : Only OffDesk (fun _ => True) body)
    (hbody : Prog.Ensures (exec replaces fate) body c (fun _ c' => P ∧ c'.events = es)
      fun _ _ => ¬ P) :
    Prog.Ensures (exec replaces fate) (sftpSession conn body) c
      (fun _ c' => (fate (.connect conn) = .done ∧ P ∧ fate .close = .done) ∧ c'.events = es)
      fun _ _ => ¬ (fate (.connect conn) = .done ∧ P ∧ fate .close = .done) := by
  unfold sftpSession
  refine connect_ensures.bind (fun _ _ h hall => h hall.1) ?_
  rintro _ _ ⟨hconnect, rfl⟩
  rw [Prog.ensures_bind, ensures_handle honly fun _ c ho => exec_offDesk ho c]
  refine hbody.mono (fun _ c₁ h₁ => ?_) fun e c₁ h₁ => ?_
  · refine close_ensures.mono ?_ fun _ _ h hall => h hall.2.2
    rintro _ _ ⟨hclose, rfl⟩
    exact ⟨⟨hconnect, h₁.1, hclose⟩, h₁.2⟩
  · exact close_ensures.bind (fun _ _ _ hall => h₁ hall.2.1) fun _ _ _ hall => h₁ hall.2.1

theorem exec_getSettlement {i : Id} (h : fate (.getSettlement i) = .done) :
    exec replaces fate (.getSettlement i) c = (.ok (c.site.settlement i), c) := by
  simp only [exec, serve, if_pos h]
  exact Prod.ext rfl (congrArg (Attempt.mk c.site) (List.append_nil _))

theorem exec_unanswered {i : Id} (h : fate (.getSettlement i) ≠ .done) :
    exec replaces fate (.getSettlement i) c = (.error .db, c) := by
  simp only [exec, serve, if_neg h]

theorem exec_now :
    exec replaces fate .now c = (.ok c.site.desk.world.now, { c with site := c.site.tick }) :=
  Prod.ext rfl (congrArg (Attempt.mk c.site.tick) (List.append_nil _))

theorem exec_isFile {path : String} (h : fate (.isFile path) = .done) :
    exec replaces fate (.isFile path) c = (.ok (.ok (c.site.files path).isSome), c) := by
  simp only [exec, serve, if_pos h]
  exact Prod.ext rfl (congrArg (Attempt.mk c.site) (List.append_nil _))

theorem exec_unreadable {path : String} (h : fate (.isFile path) ≠ .done) :
    exec replaces fate (.isFile path) c = (.ok (.error .os), c) := by
  simp only [exec, serve, if_neg h]
  exact Prod.ext rfl (congrArg (Attempt.mk c.site) (List.append_nil _))

theorem exec_haveAsyncssh :
    exec replaces fate .haveAsyncssh c = (.ok c.site.asyncssh, c) :=
  Prod.ext rfl (congrArg (Attempt.mk c.site) (List.append_nil _))

/-- The upload returns only if the file is not there, or if every call to the server succeeds. -/
theorem file_ensures {conn : Connection} {path dir : String} :
    Prog.Ensures (exec replaces fate) (uploadSettlementFile path conn dir) c
      (fun uploaded c' => fate (.isFile path) = .done ∧
        match uploaded with
        | false => c.site.files path = none ∧ c'.events = c.events
        | true => ∃ content, c.site.files path = some content ∧
          Serves replaces fate conn c.site path (tmpRemote dir path) (finalRemote dir path) ∧
          c'.events = c.events ++ [.put (tmpRemote dir path) content,
            .renamed (tmpRemote dir path) (finalRemote dir path)])
      fun _ _ => fate (.isFile path) = .done → ∃ content, c.site.files path = some content ∧
        ¬ Serves replaces fate conn c.site path (tmpRemote dir path) (finalRemote dir path) := by
  unfold uploadSettlementFile
  rw [Prog.ensures_bind, ensures_ask]
  by_cases hcheck : fate (.isFile path) = .done
  · rw [exec_isFile hcheck]
    dsimp only
    rw [Prog.ensures_bind, ensures_orRaise]
    rcases hfile : c.site.files path with _ | content
    · exact ⟨hcheck, rfl, rfl⟩
    dsimp only [Option.isSome_some]
    rw [if_neg (by decide), Prog.ensures_bind, ensures_ask, exec_haveAsyncssh]
    cases hssh : c.site.asyncssh with
    | false => exact fun _ => ⟨content, rfl, fun h => by rw [h.asyncssh] at hssh; cases hssh⟩
    | true =>
      refine (session_ensures only_transfer
        (transfer_ensures (tmpRemote_ne dir path).symm hfile)).bind
        (fun _ _ hnot _ => ⟨content, rfl, fun h => ?_⟩) fun _ c₁ h₁ => ?_
      · exact hnot ⟨h.connect, h.transfer, h.close⟩
      · obtain ⟨⟨hconnect, htransfer, hclose⟩, hevents⟩ := h₁
        exact ⟨hcheck, content, rfl, ⟨hssh, hconnect, htransfer, hclose⟩, hevents⟩
  · rw [exec_unreadable hcheck]
    exact fun h => absurd h hcheck

theorem exec_desk {o : UploadOp} (ho : OffDesk o) (c : Attempt) :
    (exec replaces fate o c).2.site.desk = c.site.desk := by
  have hdesk := (serve_offDesk ho replaces (fate o) c.site).2
  unfold exec
  split <;> rename_i h <;> rw [h] at hdesk <;> exact hdesk

theorem only_session {conn : Connection} {body : UploadJob Unit}
    (h : Only OffDesk (fun _ => True) body) :
    Only OffDesk (fun _ => True) (sftpSession conn body) := by
  refine only_try (.connect conn) trivial fun a => (only_orRaise a).bind fun _ => ?_
  refine (h.handle fun e _ => ?_).bind fun _ => only_try .close trivial only_orRaise
  exact only_try .close trivial fun a => (only_orRaise a).bind fun _ => trivial

theorem only_file (path : String) (conn : Connection) (dir : String) :
    Only OffDesk (fun _ => True) (uploadSettlementFile path conn dir) := by
  refine Only.bind (only_perform trivial) fun a => (only_orRaise a).bind fun found => ?_
  cases found with
  | false => exact only_pure
  | true =>
    refine Only.bind (only_perform trivial) fun ssh => ?_
    cases ssh with
    | false => trivial
    | true => exact (only_session only_transfer).bind fun _ => only_pure

theorem file_desk (path : String) (conn : Connection) (dir : String) :
    Prog.Ensures (exec replaces fate) (uploadSettlementFile path conn dir) c
      (fun _ c' => c'.site.desk = c.site.desk) fun _ c' => c'.site.desk = c.site.desk := by
  refine (only_file path conn dir).ensures (R := fun c c' => c'.site.desk = c.site.desk)
    (fun _ => rfl) (fun c₁ c₂ c₃ h h' => ?_) (fun _ c ho => exec_desk ho c) c
  exact Eq.trans h' h

/-- The commit takes effect, whether or not the job is told. -/
def Commits (fate : UploadOp → Fate) (o : UploadOp) : Prop := fate o = .done ∨ fate o = .lost true

/-- Where a commit leaves the database. -/
def Committed (fate : UploadOp → Fate) (i : Id) (u : SettlementUpdate) (c c' : Attempt) : Prop :=
  c'.events = c.events ∧ (Commits fate (.commit i u) ∧ c'.site = c.site.update i u ∨
    ¬ Commits fate (.commit i u) ∧ c'.site = c.site)

theorem commit_ensures {i : Id} {u : SettlementUpdate} :
    Prog.Ensures (exec replaces fate) (ask (.commit i u)) c
      (fun _ c' => Committed fate i u c c') fun _ c' => Committed fate i u c c' := by
  rw [ensures_ask]
  simp only [exec, serve]
  rcases hx : fate (.commit i u) with _ | _ | served | n
  · exact ⟨List.append_nil _, Or.inl ⟨Or.inl hx, rfl⟩⟩
  · exact ⟨rfl, Or.inr ⟨fun h => by simp [Commits, hx] at h, rfl⟩⟩
  · cases served
    · exact ⟨rfl, Or.inr ⟨fun h => by simp [Commits, hx] at h, rfl⟩⟩
    · exact ⟨rfl, Or.inl ⟨Or.inr hx, rfl⟩⟩
  · exact ⟨rfl, Or.inr ⟨fun h => by simp [Commits, hx] at h, rfl⟩⟩

end Ensures

section Uploaded
variable {sha256 : String → String} {replaces : Bool} {fate : UploadOp → Fate}
  {settings : SftpSettings} {i : Id} {s : Site} {r : EmoneySettlement}

/-- Its file has been put under the `.partial` name and renamed to its own, with the bytes that
the record gives the hash of. -/
def Delivered (sha256 : String → String) (dir : String) (r : EmoneySettlement)
    (events : List Event) : Prop :=
  ∃ content, sha256 content = r.fileContentHash ∧
    [.put (rootOr dir ++ "/" ++ r.filename ++ ".partial") content,
      .renamed (rootOr dir ++ "/" ++ r.filename ++ ".partial")
        (rootOr dir ++ "/" ++ r.filename)].Sublist events

/-- What becomes UPLOADED in the run has been delivered in it. -/
def UploadedDelivered (sha256 : String → String) (replaces : Bool) (fate : UploadOp → Fate)
    (settings : SftpSettings) (i : Id) (s : Site) : Prop :=
  ∀ k r r', s.settlement k = some r →
    (upload replaces fate settings i s).2.site.settlement k = some r' →
    r.status ≠ "UPLOADED" → r'.status = "UPLOADED" →
    Delivered sha256 settings.remoteDir r (upload replaces fate settings i s).2.events

/-- The job looks for the file, and its commit would take effect. -/
structure Looks (fate : UploadOp → Fate) (settings : SftpSettings) (i : Id) (s : Site)
    (r : EmoneySettlement) : Prop where
  host : settings.host ≠ ""
  get : fate (.getSettlement i) = .done
  record : s.settlement i = some r
  due : r.Due
  check : fate (.isFile r.filePath) = .done
  commit : Commits fate (.commit i (r.changes "UPLOADED" (some s.desk.world.now)))

/-- The file is there, and what a server that serves would get is the recorded file. -/
def FileReady (sha256 : String → String) (replaces : Bool) (fate : UploadOp → Fate)
    (settings : SftpSettings) (s : Site) (r : EmoneySettlement) : Prop :=
  ∃ content, s.files r.filePath = some content ∧
    (Serves replaces fate settings.connection s r.filePath
        (tmpRemote settings.remoteDir r.filePath) (finalRemote settings.remoteDir r.filePath) →
      basename r.filePath = r.filename ∧ sha256 content = r.fileContentHash)

/-- How a run ends: it has marked the record, for want of a file or after an upload, or not. -/
inductive Ends (replaces : Bool) (fate : UploadOp → Fate) (settings : SftpSettings) (i : Id)
    (s : Site) (c : Attempt) : Prop
  | marked {r : EmoneySettlement} : Looks fate settings i s r →
      (s.files r.filePath = none ∧ c.events = [] ∨ ∃ content, s.files r.filePath = some content ∧
        Serves replaces fate settings.connection s r.filePath
          (tmpRemote settings.remoteDir r.filePath) (finalRemote settings.remoteDir r.filePath) ∧
        c.events = [.put (tmpRemote settings.remoteDir r.filePath) content,
          .renamed (tmpRemote settings.remoteDir r.filePath)
            (finalRemote settings.remoteDir r.filePath)]) →
      (∀ k, c.site.settlement k = (s.settlement k).map fun q =>
        if q.id = i then (r.changes "UPLOADED" (some s.desk.world.now)).apply q else q) →
      Ends replaces fate settings i s c
  | unmarked : (∀ r, Looks fate settings i s r → ∃ content, s.files r.filePath = some content ∧
        ¬ Serves replaces fate settings.connection s r.filePath
          (tmpRemote settings.remoteDir r.filePath)
          (finalRemote settings.remoteDir r.filePath)) →
      (∀ k r', c.site.settlement k = some r' → r'.status = "UPLOADED" →
        s.settlement k = some r') →
      Ends replaces fate settings i s c

/-- A record that is not looked at keeps its status, and a failed upload marks it FAILED. -/
theorem job_ensures :
    Prog.Ensures (exec replaces fate) (uploadSettlementJob settings i) ⟨s, []⟩
      (fun _ c => Ends replaces fate settings i s c)
      fun _ c => Ends replaces fate settings i s c := by
  have hidle : ∀ {c : Attempt}, c.site = s → (∀ r, ¬ Looks fate settings i s r) →
      Ends replaces fate settings i s c := by
    intro c hc hnot
    exact .unmarked (fun r hr => absurd hr (hnot r)) fun k r' h _ => hc ▸ h
  unfold uploadSettlementJob
  by_cases hhost : settings.host = ""
  · rw [if_pos hhost]
    exact hidle rfl fun r h => h.host hhost
  rw [if_neg hhost, Prog.ensures_bind, ensures_ask]
  by_cases hget : fate (.getSettlement i) = .done
  swap
  · rw [exec_unanswered hget]
    exact hidle rfl fun r h => hget h.get
  rw [exec_getSettlement hget]
  dsimp only
  rcases hr : s.settlement i with _ | r
  · exact hidle rfl fun r h => by rw [h.record] at hr; cases hr
  have hone : ∀ q, Looks fate settings i s q → q = r := fun q h =>
    Option.some.inj (h.record.symm.trans hr)
  have hid : r.id = i := Site.settlement_id hr
  dsimp only
  by_cases hdue : r.Due
  swap
  · rw [if_neg hdue]
    exact hidle rfl fun q h => hdue (hone q h ▸ h.due)
  rw [if_pos hdue, Prog.ensures_bind,
    ensures_handle (only_file _ _ _) fun _ c ho => exec_offDesk ho c]
  refine (file_ensures.and (file_desk _ _ _)).mono ?_ ?_
  · rintro uploaded c₁ ⟨⟨hcheck, hfile⟩, hdesk⟩
    have hnow : c₁.site.desk.world.now = s.desk.world.now := by rw [hdesk]
    rw [Prog.ensures_bind, ensures_ask, exec_now, hnow, hid]
    have htick : ∀ k, c₁.site.tick.settlement k = s.settlement k := by
      refine Site.settlement_congr ?_
      rw [Site.tick, hdesk]
      rfl
    have hends : ∀ c₃, Committed fate i (r.changes "UPLOADED" (some s.desk.world.now))
        ⟨c₁.site.tick, c₁.events⟩ c₃ → Ends replaces fate settings i s c₃ := by
      rintro c₃ ⟨hevents, ⟨hcommit, hsite⟩ | ⟨hcommit, hsite⟩⟩
      · refine .marked ⟨hhost, hget, hr, hdue, hcheck, hcommit⟩ ?_ fun k => ?_
        · rw [hevents]
          cases uploaded with
          | false => exact Or.inl hfile
          | true => exact Or.inr hfile
        · rw [hsite, Site.settlement_update, htick]
      · refine .unmarked (fun q hq => ?_) fun k r' h _ => ?_
        · exact absurd (hone q hq ▸ hq.commit) hcommit
        · rw [hsite, htick] at h
          exact h
    exact commit_ensures.bind (fun _ c₃ h => hends c₃ h) fun _ c₃ h => hends c₃ h
  · rintro e c₁ ⟨hfile, hdesk⟩
    have hsame : ∀ k, c₁.site.settlement k = s.settlement k :=
      Site.settlement_congr (by rw [hdesk])
    have hends : ∀ c₃, Committed fate r.id (r.changes "FAILED" r.uploadedAt) c₁ c₃ →
        Ends replaces fate settings i s c₃ := by
      rintro c₃ ⟨-, hcommit⟩
      refine .unmarked (fun q hq => ?_) fun k r' h hstatus => ?_
      · exact hone q hq ▸ hfile (hone q hq ▸ hq.check)
      · rcases hcommit with ⟨-, hsite⟩ | ⟨-, hsite⟩ <;> rw [hsite] at h
        · rw [Site.settlement_update, hsame] at h
          obtain ⟨q, hq, rfl⟩ := Option.map_eq_some_iff.mp h
          by_cases hqr : q.id = r.id
          · have hk : k = i := (Site.settlement_id hq).symm.trans (hqr.trans hid)
            have hq' : q = r := Option.some.inj (hq.symm.trans (hk ▸ hr))
            rw [if_pos hqr, hq', EmoneySettlement.apply_changes] at hstatus
            exact absurd (show "FAILED" = "UPLOADED" from hstatus) (by decide)
          · rw [if_neg hqr]
            exact hq
        · rw [hsame] at h
          exact h
    exact commit_ensures.bind (fun _ c₃ h => hends c₃ h) fun _ c₃ h => hends c₃ h

theorem upload_ends : Ends replaces fate settings i s (upload replaces fate settings i s).2 := by
  have h : Prog.Ensures (exec replaces fate) (uploadSettlementJob settings i) ⟨s, []⟩
    (fun _ c => Ends replaces fate settings i s c) fun _ c => Ends replaces fate settings i s c :=
    job_ensures
  unfold upload
  unfold Prog.Ensures at h
  rcases hrun : (uploadSettlementJob settings i).run (exec replaces fate) ⟨s, []⟩ with ⟨e | a, c⟩ <;>
    rw [hrun] at h <;> exact h

/-- A settlement that becomes UPLOADED has been delivered if and only if, whenever the job gets to
look for its file, the file is there and is the recorded one. -/
theorem uploaded_delivered_iff :
    UploadedDelivered sha256 replaces fate settings i s ↔
      ∀ r, Looks fate settings i s r → FileReady sha256 replaces fate settings s r := by
  have hdue : ∀ {r : EmoneySettlement}, r.Due → r.status ≠ "UPLOADED" := by
    rintro r (h | h) <;> rw [h] <;> decide
  have hends : Ends replaces fate settings i s (upload replaces fate settings i s).2 := upload_ends
  rcases hends with @⟨r, hlooks, hfile, hmarked⟩ | ⟨hnot, hsame⟩
  · have hone : ∀ q, s.settlement i = some q → q = r := fun q hq =>
      Option.some.inj (hq.symm.trans hlooks.record)
    have hid : r.id = i := Site.settlement_id hlooks.record
    constructor
    · intro hdelivers q hq
      rw [hone q hq.record]
      have hafter := hmarked i
      rw [hlooks.record, Option.map_some, if_pos hid, EmoneySettlement.apply_changes] at hafter
      obtain ⟨content, hhash, hevents⟩ :=
        hdelivers i r _ hlooks.record hafter (hdue hlooks.due) rfl
      rcases hfile with ⟨-, hnone⟩ | ⟨content', hfile, hserves, hsome⟩
      · rw [hnone] at hevents
        exact absurd (List.sublist_nil.mp hevents) (List.cons_ne_nil _ _)
      · rw [hsome] at hevents
        have hsame := hevents.eq_of_length (by rw [List.length_cons, List.length_cons]; rfl)
        obtain ⟨hput, hrest⟩ := List.cons.inj hsame
        obtain ⟨-, hcontent⟩ := Event.put.inj hput
        obtain ⟨-, hname⟩ := Event.renamed.inj (List.cons.inj hrest).1
        have hbase : basename r.filePath = r.filename := finalRemote_eq.mp hname.symm
        exact ⟨content', hfile, fun _ => ⟨hbase, hcontent ▸ hhash⟩⟩
    · intro hready k q q' hq hq' hbefore hafter
      obtain ⟨content, hcontent, hserved⟩ := hready r hlooks
      rw [hmarked, hq, Option.map_some] at hq'
      by_cases hk : q.id = i
      · have hqr : q = r := hone q ((Site.settlement_id hq).symm.trans hk ▸ hq)
        rcases hfile with ⟨hnone, -⟩ | ⟨content', hfile, hserves, hevents⟩
        · rw [hnone] at hcontent
          cases hcontent
        · obtain ⟨hname, hhash⟩ := hserved hserves
          have hsame : content' = content := Option.some.inj (hfile.symm.trans hcontent)
          refine ⟨content, hqr ▸ hhash, ?_⟩
          rw [hevents, hqr, hsame, tmpRemote, finalRemote, hname]
      · rw [if_neg hk] at hq'
        exact absurd (Option.some.inj hq' ▸ hafter) hbefore
  · constructor
    · intro _ r hr
      obtain ⟨content, hcontent, hserves⟩ := hnot r hr
      exact ⟨content, hcontent, fun h => absurd h hserves⟩
    · intro _ k r r' hr hr' hbefore hafter
      have hsame := hsame k r' hr' hafter
      rw [hr] at hsame
      exact absurd (Option.some.inj hsame ▸ hafter) hbefore

end Uploaded

section Missing

/-- Its file is gone. -/
def missing : Site where
  desk.world := { db := { settlements := [filed] }, nextTx := 1, nextEmoney := 1, now := 0 }

/-- The job asks the server for nothing and marks the settlement UPLOADED. -/
theorem missing_file_uploaded :
    (upload false (fun _ => .done) bank 1 missing).1 = .ok (.success 1) ∧
      (upload false (fun _ => .done) bank 1 missing).2.events = [] ∧
      ¬ UploadedDelivered id false (fun _ => .done) bank 1 missing := by
  have hevents : (upload false (fun _ => .done) bank 1 missing).2.events = [] := by decide
  refine ⟨by decide, hevents, fun h => ?_⟩
  obtain ⟨content, -, hsub⟩ := h 1 filed { filed with status := "UPLOADED", uploadedAt := some 0 }
    rfl (by decide) (by decide) rfl
  rw [hevents] at hsub
  exact List.cons_ne_nil _ _ (List.sublist_nil.mp hsub)

end Missing
end ParkIt.Upload
