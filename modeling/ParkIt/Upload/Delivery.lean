import ParkIt.Upload.Jobs

/-! What can be seen on the bank's server while settlement files are uploaded. -/
namespace ParkIt.Upload

open Effects Sessions Transition

def IsPartial (path : String) : Prop := ".partial".toList <:+ path.toList

def IsTxt (path : String) : Prop := ".txt".toList <:+ path.toList

/-- Jobs run one at a time. -/
def OneAtATime {ι : Type} (s : UploadSys ι) : Label ι UploadOp → Prop
  | .start _ => ∀ k, s.session k = none
  | _ => True

/-- The local files of the settlements do not change. -/
def FilesKept (s s' : Site) : Prop :=
  ∀ i r, s.settlement i = some r → s'.files r.filePath = s.files r.filePath

/-- Beside the `.partial` names and the bank's answers there are only files of settlements, byte for
byte. -/
def Whole (settings : SftpSettings) (s : Site) : Prop :=
  ∀ path content, s.remote path = some content → ¬ IsPartial path → ¬ IsResponse path →
    ∃ i r, s.settlement i = some r ∧ path = finalRemote settings.remoteDir r.filePath ∧
      s.files r.filePath = some content

theorem isPartial_tmpRemote (dir path : String) : IsPartial (tmpRemote dir path) := by
  unfold IsPartial tmpRemote
  rw [String.toList_append]
  exact List.suffix_append _ _

theorem IsTxt.not_isPartial {path : String} (h : IsTxt path) : ¬ IsPartial path := by
  intro hpartial
  exact absurd (List.suffix_of_suffix_length_le h hpartial (by decide)) (by decide)

theorem IsTxt.not_isResponse {path : String} (h : IsTxt path) : ¬ IsResponse path := by
  rintro (hresponse | hresponse)
  · exact absurd (List.suffix_of_suffix_length_le hresponse h (by decide)) (by decide)
  · exact absurd (List.suffix_of_suffix_length_le hresponse h (by decide)) (by decide)

theorem IsPartial.not_isResponse {path : String} (h : IsPartial path) : ¬ IsResponse path := by
  rintro (hresponse | hresponse)
  · exact absurd (List.suffix_of_suffix_length_le hresponse h (by decide)) (by decide)
  · exact absurd (List.suffix_of_suffix_length_le hresponse h (by decide)) (by decide)

section Effect
variable {s s' : Site} {o : UploadOp} {path content : String}

theorem Effect.files (h : Effect s o s') : s'.files = s.files := by
  cases h <;> rfl

theorem Effect.kept (h : Effect s o s') {i : Id} {r : EmoneySettlement}
    (hr : s.settlement i = some r) : ∃ r', s'.settlement i = some r' ∧ r'.sealed = r.sealed := by
  cases h with
  | nothing | tick | removed | put _ _ | renamed _ => exact ⟨r, hr, rfl⟩
  | updated =>
    rw [Site.settlement_update, hr]
    refine ⟨_, rfl, ?_⟩
    dsimp only
    split <;> rfl

/-- What is on the server was there, or is being put there, or has been renamed. -/
theorem Effect.remote (h : Effect s o s') (hs : s'.remote path = some content) :
    s.remote path = some content ∨ (∃ file, o = .put file path) ∨
      ∃ source, o = .rename source path ∧ s.remote source = some content := by
  cases h with
  | nothing | tick | updated => exact Or.inl hs
  | @removed p =>
    by_cases hp : path = p
    · subst hp
      simp [Site.place, setKey] at hs
    · simp only [Site.place, setKey, if_neg hp] at hs
      exact Or.inl hs
  | @put file target _ part _ _ =>
    by_cases hp : path = target
    · exact Or.inr (Or.inl ⟨file, hp ▸ rfl⟩)
    · simp only [Site.place, setKey, if_neg hp] at hs
      exact Or.inl hs
  | @renamed source target full hsource =>
    by_cases hp : path = target
    · subst hp
      simp only [Site.place, setKey, if_true] at hs
      exact Or.inr (Or.inr ⟨source, rfl, hsource.trans hs⟩)
    · simp only [Site.place, setKey, if_neg hp] at hs
      split at hs
      · cases hs
      · exact Or.inl hs

end Effect

section Next
variable {settings : SftpSettings} {g : Errand} {r : EmoneySettlement}

/-- A job that is about to rename has just been told that the whole file is there. -/
theorem put_of_next {o : UploadOp} {a : o.Ans} {replaces : Bool} {x : Fate} {s s' : Site}
    (hallow : g.next settings = some o) (hserve : serve replaces x o s = (.ok a, s'))
    (hr : ((protocol settings).next g o a).At r .renaming) :
    ∃ content, s.files r.filePath = some content ∧
      s' = s.place (tmpRemote settings.remoteDir r.filePath) (some content) := by
  obtain ⟨hrecord, hpoint⟩ := hr
  cases o with
  | put path target =>
    cases a with
    | error e => cases hpoint
    | ok a =>
      obtain ⟨r', hr', rfl, rfl⟩ := next_put hallow
      have hsame : r' = r := Option.some.inj (hr'.1.symm.trans hrecord)
      exact hsame ▸ serve_put hserve
  | getSettlement i =>
    simp only [protocol] at hpoint
    split at hpoint <;> cases hpoint
  | isFile path => rcases a with e | _ | _ <;> cases hpoint
  | haveAsyncssh => cases a <;> cases hpoint
  | connect _ => cases a <;> cases hpoint
  | rename _ _ => cases a <;> cases hpoint
  | close =>
    rcases a with e | a
    · cases hpoint
    · simp only [protocol, Errand.goTo] at hpoint
      split at hpoint <;> cases hpoint
  | remove _ | now | commit _ _ => cases hpoint

/-- The record of a job is the one that it has read. -/
theorem record_of_next {o : UploadOp} {a : o.Ans} {replaces : Bool} {x : Fate} {s s' : Site}
    (hserve : serve replaces x o s = (.ok a, s'))
    (hr : ((protocol settings).next g o a).record = some r) :
    g.record = some r ∨ ∃ i, s.settlement i = some r := by
  cases o with
  | getSettlement i =>
    simp only [serve] at hserve
    split at hserve <;> cases hserve
    simp only [protocol] at hr
    split at hr
    · rename_i found hfound
      have hsame : found = r := Option.some.inj hr
      exact Or.inr ⟨i, hsame ▸ (Option.filter_eq_some_iff.mp hfound).1⟩
    · exact Or.inl hr
  | isFile path => rcases a with e | found <;> exact Or.inl hr
  | haveAsyncssh | connect _ | remove _ | put _ _ | rename _ _ | close | now | commit _ _ =>
    exact Or.inl hr

end Next

section Delivery
variable {ι : Type} {settings : SftpSettings} {replaces : Bool} {s t : UploadSys ι}
  {l : Label ι UploadOp}

/-- The record of a job is known, and when the job is about to rename, its whole file is on the
server, or nothing. -/
structure Ready (settings : SftpSettings) (s : Site) (g : Errand) : Prop where
  known : ∀ r, g.record = some r → ∃ i r', s.settlement i = some r' ∧ r'.sealed = r.sealed
  put : ∀ r content, g.At r .renaming →
    s.remote (tmpRemote settings.remoteDir r.filePath) = some content →
    s.files r.filePath = some content

/-- What holds between any two steps; at most one job is at work. -/
structure Tidy (settings : SftpSettings) (replaces : Bool) (s : UploadSys ι) : Prop where
  inProtocol : InProtocol (uploads settings replaces) s
  alone : ∀ j k x y, s.session j = some x → s.session k = some y → j = k
  ready : ∀ j x, s.session j = some x → Ready settings s.shared x.note
  whole : Whole settings s.shared

theorem known_effect {s s' : Site} {o : UploadOp} {r : EmoneySettlement} (h : Effect s o s')
    (hr : ∃ i r', s.settlement i = some r' ∧ r'.sealed = r.sealed) :
    ∃ i r', s'.settlement i = some r' ∧ r'.sealed = r.sealed := by
  obtain ⟨i, r', hr', hsealed⟩ := hr
  obtain ⟨r'', hr'', hsealed'⟩ := h.kept hr'
  exact ⟨i, r'', hr'', hsealed'.trans hsealed⟩

theorem whole_effect {s s' : Site} {o : UploadOp} {g : Errand} (hs : Whole settings s)
    (hready : Ready settings s g) (hallow : g.next settings = some o) (h : Effect s o s') :
    Whole settings s' := by
  intro path content hpath hpartial hresponse
  rcases h.remote hpath with hold | ⟨file, rfl⟩ | ⟨source, rfl, hsource⟩
  · obtain ⟨i, r, hr, hname, hfile⟩ := hs path content hold hpartial hresponse
    obtain ⟨r', hr', hsealed⟩ := h.kept hr
    have hsame := EmoneySettlement.filePath_of_sealed hsealed
    exact ⟨i, r', hr', hsame ▸ hname, by rw [h.files, hsame, hfile]⟩
  · obtain ⟨r, -, -, rfl⟩ := next_put hallow
    exact absurd (isPartial_tmpRemote _ _) hpartial
  · obtain ⟨r, hat, htmp, rfl⟩ := next_rename hallow
    rw [htmp] at hsource
    obtain ⟨i, r', hr', hsealed⟩ := known_effect h (hready.known r hat.1)
    have hsame := EmoneySettlement.filePath_of_sealed hsealed
    refine ⟨i, r', hr', by rw [hsame], ?_⟩
    rw [h.files, hsame]
    exact hready.put r content hat hsource

/-- The job is as ready after its operation as it was before. -/
theorem ready_go {s s' : Site} {o : UploadOp} {g : Errand} {a : o.Ans} {x : Fate}
    (hready : Ready settings s g) (hallow : g.next settings = some o)
    (hserve : serve replaces x o s = (.ok a, s')) (h : Effect s o s') :
    Ready settings s' ((protocol settings).next g o a) := by
  refine ⟨fun r hr => ?_, fun r content hr hcontent => ?_⟩
  · refine known_effect h ?_
    rcases record_of_next hserve hr with hr | ⟨i, hi⟩
    · exact hready.known r hr
    · exact ⟨i, r, hi, rfl⟩
  · obtain ⟨full, hfile, rfl⟩ := put_of_next hallow hserve hr
    have hfull : some full = some content := by
      simpa [Site.place, setKey] using hcontent
    exact hfile.trans hfull

theorem ready_during {s : Site} {g : Errand} {path target : String} {part : String}
    (hready : Ready settings s g) (hallow : g.next settings = some (.put path target)) :
    Ready settings (s.place target (some part)) g := by
  refine ⟨hready.known, fun r content hr => ?_⟩
  obtain ⟨r', hr', -⟩ := next_put hallow
  exact absurd (hr.2.symm.trans hr'.2) (by decide)

theorem ready_around {s s' : Site} {g : Errand} (hready : Ready settings s g) (h : Around s s')
    (hfiles : FilesKept s s') : Ready settings s' g := by
  refine ⟨fun r hr => ?_, fun r content hr hcontent => ?_⟩
  · obtain ⟨i, r', hr', hsealed⟩ := hready.known r hr
    obtain ⟨r'', hr'', hsealed', -⟩ := h.kept i r' hr'
    exact ⟨i, r'', hr'', hsealed'.trans hsealed⟩
  · obtain ⟨i, r', hr', hsealed⟩ := hready.known r hr.1
    have hsame := EmoneySettlement.filePath_of_sealed hsealed
    have hfile := hfiles i r' hr'
    rw [hsame] at hfile
    have hpartial := isPartial_tmpRemote settings.remoteDir r.filePath
    rcases h.taken _ hpartial.not_isResponse with hkept | hgone
    · exact hfile.trans (hready.put r content hr (hkept ▸ hcontent))
    · rw [hgone] at hcontent
      cases hcontent

theorem whole_around {s s' : Site} (hs : Whole settings s) (h : Around s s')
    (hfiles : FilesKept s s') : Whole settings s' := by
  intro path content hpath hpartial hresponse
  rcases h.taken path hresponse with hkept | hgone
  · obtain ⟨i, r, hr, hname, hfile⟩ := hs path content (hkept ▸ hpath) hpartial hresponse
    obtain ⟨r', hr', hsealed, -⟩ := h.kept i r hr
    have hsame := EmoneySettlement.filePath_of_sealed hsealed
    exact ⟨i, r', hr', hsame ▸ hname, by rw [hsame, hfiles i r hr, hfile]⟩
  · rw [hgone] at hpath
    cases hpath

/-- The job that was at work is not there any more. -/
theorem tidy_ended {j : ι} {x : Session UploadOp UploadOp.Ans UploadExc UploadOutcome Unit Errand}
    (hs : Tidy settings replaces s) (hj : s.session j = some x)
    (hin : InProtocol (uploads settings replaces) t)
    (hsession : ∀ k y, t.session k = some y → k ≠ j ∧ s.session k = some y)
    (hwhole : Whole settings t.shared) : Tidy settings replaces t := by
  have hnone : ∀ {k y}, t.session k ≠ some y := by
    intro k y hy
    obtain ⟨hk, hy⟩ := hsession k y hy
    exact hk (hs.alone k j y x hy hj)
  exact ⟨hin, fun a b x y hx => absurd hx hnone, fun k x hx => absurd hx hnone, hwhole⟩

variable [DecidableEq ι]

theorem tidy_step (h : Step (uploads settings replaces) s l t) (hone : OneAtATime s l)
    (hfiles : FilesKept s.shared t.shared) (hs : Tidy settings replaces s) :
    Tidy settings replaces t := by
  have hin := inProtocol_uploads h hs.inProtocol
  cases h with
  | @start j p own note hj hp =>
    obtain ⟨i, -, rfl⟩ := hp
    have hnew : ∀ {k y}, (s.set j (some ⟨p, own, { id := i }⟩)).session k = some y →
        k = j ∧ y.note = { id := i } := by
      intro k y hy
      rcases session_set hy with ⟨hk, hx⟩ | ⟨-, hy⟩
      · cases hx
        exact ⟨hk, rfl⟩
      · rw [hone k] at hy
        cases hy
    refine ⟨hin, fun a b x y hx hy => (hnew hx).1.trans (hnew hy).1.symm, fun k x hx => ?_,
      hs.whole⟩
    rw [(hnew hx).2]
    exact ⟨fun r hr => (Option.some_ne_none r hr.symm).elim,
      fun r content hr => (Option.some_ne_none r hr.1.symm).elim⟩
  | @go j o k own note a sh own' hj hact =>
    obtain ⟨x, hx⟩ := hact
    have hallow : note.next settings = some o := (hs.inProtocol _ _ hj).1
    have hready := hs.ready _ _ hj
    have heffect := serve_effect_of hx
    have hnew : ∀ {i y}, ({ s with shared := sh, log := s.log ++ entries note o (some a) }.set j
        (some ⟨k a, own', (protocol settings).next note o a⟩)).session i = some y →
        i = j ∧ y.note = (protocol settings).next note o a := by
      intro i y hy
      rcases session_set hy with ⟨hi, hy⟩ | ⟨hi, hy⟩
      · cases hy
        exact ⟨hi, rfl⟩
      · exact absurd (hs.alone i j y _ hy hj) hi
    refine ⟨hin, fun a b x y hx hy => (hnew hx).1.trans (hnew hy).1.symm, fun i y hy => ?_,
      whole_effect hs.whole hready hallow heffect⟩
    rw [(hnew hy).2]
    exact ready_go hready hallow hx heffect
  | @fail j o k own note sh hj hfails =>
    obtain ⟨x, e, hx⟩ := hfails
    exact tidy_ended hs hj hin (fun _ _ hy => session_set_none hy)
      (whole_effect hs.whole (hs.ready _ _ hj) (hs.inProtocol _ _ hj).1 (serve_effect_of hx))
  | @during j o k own note sh hj hduring =>
    obtain ⟨path, target, content, n, rfl, hfile, rfl⟩ := hduring
    have hallow := (hs.inProtocol _ _ hj).1
    refine ⟨hin, hs.alone, fun i y hy => ?_, whole_effect hs.whole (hs.ready _ _ hj) hallow
      (.put hfile (isPrefix_cutOff n content))⟩
    have hi := hs.alone i j y _ hy hj
    subst hi
    have hsame := Option.some.inj (hy.symm.trans hj)
    rw [hsame]
    exact ready_during (hs.ready _ _ hj) hallow
  | @stop j x hj => exact tidy_ended hs hj hin (fun _ _ hy => session_set_none hy) hs.whole
  | @outside sh hout =>
    exact ⟨hin, hs.alone, fun j x hx => ready_around (hs.ready j x hx) hout hfiles,
      whole_around hs.whole hout hfiles⟩

/-- A job that is the only one possible runs alone. -/
theorem oneAtATime_of_subsingleton [Subsingleton ι] (h : Step (uploads settings replaces) s l t) :
    OneAtATime s l := by
  cases h with
  | @start j _ _ _ hj _ => exact fun k => Subsingleton.elim j k ▸ hj
  | go _ _ | fail _ _ | during _ _ | stop _ | outside _ => trivial

/-- The jobs do not touch the local disk. -/
theorem filesKept_inside (h : Step (uploads settings replaces) s l t) (hl : l.inside = true) :
    FilesKept s.shared t.shared := by
  intro i r _
  cases h with
  | start _ _ | stop _ => rfl
  | go _ hact =>
    obtain ⟨x, hx⟩ := hact
    exact congrFun (serve_effect_of hx).files _
  | fail _ hfails =>
    obtain ⟨x, e, hx⟩ := hfails
    exact congrFun (serve_effect_of hx).files _
  | during _ hduring =>
    obtain ⟨_, _, _, _, -, -, rfl⟩ := hduring
    rfl
  | outside _ => cases hl

/-- The record has the name of its file, and no two records have one name. -/
structure Named (s : Site) : Prop where
  path : ∀ i r, s.settlement i = some r → basename r.filePath = r.filename
  distinct : ∀ i i' r r', s.settlement i = some r → s.settlement i' = some r' →
    r.filename = r'.filename → i = i'

/-- At every moment a name in `.txt` on the server shows exactly the file of the one settlement of
that name, and of the settlement files nothing but the whole is seen under any name that is not a
`.partial` one. -/
theorem delivered_whole {xs : List (Label ι UploadOp × UploadSys ι)} (hquiet : s.Quiet)
    (hstart : Whole settings s.shared)
    (h : Path (fun s l t => Step (uploads settings replaces) s l t ∧ OneAtATime s l ∧
      FilesKept s.shared t.shared) s xs) (hnamed : Named (finish s xs).shared) :
    ∀ path content, (finish s xs).shared.remote path = some content →
      (IsTxt path → ∃ i r, (finish s xs).shared.settlement i = some r ∧
        path = rootOr settings.remoteDir ++ "/" ++ r.filename ∧
        (finish s xs).shared.files r.filePath = some content ∧
        ∀ i' r', (finish s xs).shared.settlement i' = some r' →
          path = rootOr settings.remoteDir ++ "/" ++ r'.filename → i' = i) ∧
      (¬ IsPartial path → IsResponse path ∨ ∃ i r, (finish s xs).shared.settlement i = some r ∧
        path = rootOr settings.remoteDir ++ "/" ++ r.filename ∧
        (finish s xs).shared.files r.filePath = some content) := by
  have hnone : ∀ {j x}, s.session j ≠ some x := fun hj => by simp [hquiet.1] at hj
  have hstart : Tidy settings replaces s := ⟨hquiet.inProtocol, fun _ _ _ _ hj => absurd hj hnone,
    fun _ _ hj => absurd hj hnone, hstart⟩
  have hend := h.invariant (fun _ _ _ h hs => tidy_step h.1 h.2.1 h.2.2 hs) hstart
  intro path content hpath
  have hwhole : ¬ IsPartial path → ¬ IsResponse path →
      ∃ i r, (finish s xs).shared.settlement i = some r ∧
        path = rootOr settings.remoteDir ++ "/" ++ r.filename ∧
        (finish s xs).shared.files r.filePath = some content := by
    intro hpartial hresponse
    obtain ⟨i, r, hr, hname, hfile⟩ := hend.whole path content hpath hpartial hresponse
    exact ⟨i, r, hr, by rw [hname, finalRemote, hnamed.path i r hr], hfile⟩
  refine ⟨fun htxt => ?_, fun hpartial => ?_⟩
  · obtain ⟨i, r, hr, hname, hfile⟩ := hwhole htxt.not_isPartial htxt.not_isResponse
    refine ⟨i, r, hr, hname, hfile, fun i' r' hr' hname' => hnamed.distinct i' i r' r hr' hr ?_⟩
    have hlist := congrArg String.toList (hname'.symm.trans hname)
    simp only [String.toList_append] at hlist
    exact String.toList_inj.mp (List.append_cancel_left hlist)
  · by_cases hresponse : IsResponse path
    · exact Or.inl hresponse
    · exact Or.inr (hwhole hpartial hresponse)

end Delivery

/-- The settlement job opens only files whose records have their names. -/
theorem draft_named {d : Settlement.Draft} {s : Settlement.State} {sha256 : String → String} {i : Id}
    (h : s.openable d.path = true) :
    basename (d.record sha256 i).filePath = (d.record sha256 i).filename := by
  have hpath : d.path.toList.drop (Settlement.settlementDir.length + 1) = d.filename.toList := by
    have hdir : (Settlement.settlementDir ++ "/").toList.length =
        Settlement.settlementDir.length + 1 := by decide
    rw [Settlement.Draft.path, String.toList_append, ← hdir, List.drop_left]
  simp only [Settlement.State.openable, hpath, Bool.and_eq_true, Bool.not_eq_true',
    List.contains_eq_mem, decide_eq_false_iff_not] at h
  exact basename_join h.2

section Handover

/-- The file is on the disk, and what an earlier try has left is on the server. -/
def handover : UploadSys Unit where
  shared :=
    { desk.world := { db := { settlements := [filed] }, nextTx := 1, nextEmoney := 1, now := 0 }
      desk.files := setKey (fun _ => none) filed.filePath (some filed.fileContentHash)
      remote := setKey (fun _ => none) (tmpRemote bank.remoteDir filed.filePath) (some "001") }

def handoverRun : List (Label Unit UploadOp × UploadSys Unit) :=
  takeTurns (uploads bank false) (perform false fun _ => .done) handover (UploadTurn.full bank () 1)

theorem handover_path : Path (Step (uploads bank false)) handover handoverRun := by
  refine perform_path (fun j p u g h => ?_) fun f h => ?_
  · simp [UploadTurn.full, UploadTurn.job] at h
    obtain ⟨rfl, rfl⟩ := h
    exact ⟨1, rfl, rfl⟩
  · simp [UploadTurn.full, UploadTurn.job] at h

theorem handover_whole : Whole bank handover.shared := by
  intro path content h hpartial
  by_cases hpath : path = tmpRemote bank.remoteDir filed.filePath
  · exact absurd (hpath ▸ isPartial_tmpRemote _ _) hpartial
  · exact absurd ((if_neg hpath).symm.trans h) nofun

theorem handover_named : Named (finish handover handoverRun).shared := by
  have hlist : (finish handover handoverRun).shared.desk.world.db.settlements =
      [{ filed with status := "UPLOADED", uploadedAt := some 0 }] := by decide
  have hone : ∀ i r, (finish handover handoverRun).shared.settlement i = some r →
      r = { filed with status := "UPLOADED", uploadedAt := some 0 } := by
    intro i r h
    rw [Site.settlement, hlist] at h
    exact List.mem_singleton.mp (List.mem_of_find?_eq_some h)
  refine ⟨fun i r h => ?_, fun i i' r r' h h' _ => ?_⟩
  · rw [hone i r h]
    decide
  · rw [← Site.settlement_id h, ← Site.settlement_id h', hone i r h, hone i' r' h']

/-- The run ends with the file on the server and the settlement recorded as uploaded. -/
theorem delivered_whole_handover :
    (finish handover handoverRun).shared.remote (finalRemote bank.remoteDir filed.filePath) =
        some filed.fileContentHash ∧
      (IsTxt (finalRemote bank.remoteDir filed.filePath) →
        ∃ i r, (finish handover handoverRun).shared.settlement i = some r ∧
          finalRemote bank.remoteDir filed.filePath = rootOr bank.remoteDir ++ "/" ++ r.filename ∧
          (finish handover handoverRun).shared.files r.filePath = some filed.fileContentHash ∧
          ∀ i' r', (finish handover handoverRun).shared.settlement i' = some r' →
            finalRemote bank.remoteDir filed.filePath =
              rootOr bank.remoteDir ++ "/" ++ r'.filename → i' = i) ∧
      (¬ IsPartial (finalRemote bank.remoteDir filed.filePath) →
        IsResponse (finalRemote bank.remoteDir filed.filePath) ∨
        ∃ i r, (finish handover handoverRun).shared.settlement i = some r ∧
          finalRemote bank.remoteDir filed.filePath = rootOr bank.remoteDir ++ "/" ++ r.filename ∧
          (finish handover handoverRun).shared.files r.filePath = some filed.fileContentHash) := by
  have hremote : (finish handover handoverRun).shared.remote
      (finalRemote bank.remoteDir filed.filePath) = some filed.fileContentHash := by decide
  have hinside : Path (fun _ l _ => l.inside = true) handover handoverRun := by decide
  exact ⟨hremote, delivered_whole ⟨fun _ => rfl, rfl⟩ handover_whole
    ((handover_path.and hinside).mono fun _ _ _ h =>
      ⟨h.1, oneAtATime_of_subsingleton h.1, filesKept_inside h.1 h.2⟩) handover_named _ _ hremote⟩

end Handover
end ParkIt.Upload
