import ParkIt.Upload.Worker
import ParkIt.Settlement.Jobs

/-! Upload jobs side by side, over the database, the local disk and the bank's server. -/
namespace ParkIt

namespace EmoneySettlement
variable (r : EmoneySettlement)

def Acked : Prop := r.status = "ACKED_OK" ∨ r.status = "ACKED_NOK" ∨ r.status = "PARTIAL"

instance : Decidable r.Acked := inferInstanceAs (Decidable (_ ∨ _))

/-- It is recorded that the file has been uploaded. -/
def Recorded : Prop := r.status = "UPLOADED" ∨ r.Acked

instance : Decidable r.Recorded := inferInstanceAs (Decidable (_ ∨ _))

theorem filePath_of_sealed {r r' : EmoneySettlement} (h : r'.sealed = r.sealed) :
    r'.filePath = r.filePath := by
  have hpath := congrArg EmoneySettlement.filePath h
  exact hpath

end EmoneySettlement

namespace Upload

open Effects Sessions Transition

/-- The names of the bank's answers. -/
def IsResponse (path : String) : Prop :=
  ".OK".toList <:+ path.toList ∨ ".NOK".toList <:+ path.toList

/-- What the rest of the system does: records come in and keep their data, an uploaded one gets the
bank's answer, the bank takes files away and puts answers, and the local disk changes. -/
structure Around (s s' : Site) : Prop where
  kept : ∀ i r, s.settlement i = some r → ∃ r', s'.settlement i = some r' ∧
    r'.sealed = r.sealed ∧ (r'.status = r.status ∨ r.Recorded ∧ r'.Acked)
  fresh : ∀ i r, s.settlement i = none → s'.settlement i = some r → r.status = "GENERATED"
  taken : ∀ path, ¬ IsResponse path →
    s'.remote path = s.remote path ∨ s'.remote path = none

/-- Where a job stands, by the operation that comes next. -/
inductive Point where
  | reading
  | checking
  | asking
  | connecting
  | clearing
  | putting
  | renaming
  | closing
  | unwinding
  | marking
  | stamping
  | recording (now : Int)
  | over
deriving DecidableEq

/-- The record as the job has read it, if it is due, and whether its file has been renamed. -/
structure Errand where
  id : Id
  record : Option EmoneySettlement := none
  point : Point := .reading
  landed : Bool := false
deriving DecidableEq

namespace Errand

def next (settings : SftpSettings) (g : Errand) : Option UploadOp :=
  match g.point, g.record with
  | .reading, _ => some (.getSettlement g.id)
  | .checking, some r => some (.isFile r.filePath)
  | .asking, some _ => some .haveAsyncssh
  | .connecting, some _ => some (.connect settings.connection)
  | .clearing, some r => some (.remove (tmpRemote settings.remoteDir r.filePath))
  | .putting, some r => some (.put r.filePath (tmpRemote settings.remoteDir r.filePath))
  | .renaming, some r => some (.rename (tmpRemote settings.remoteDir r.filePath)
      (finalRemote settings.remoteDir r.filePath))
  | .closing, some _ | .unwinding, some _ => some .close
  | .marking, some r => some (.commit r.id (r.changes "FAILED" r.uploadedAt))
  | .stamping, some _ => some .now
  | .recording now, some r => some (.commit r.id (r.changes "UPLOADED" (some now)))
  | _, _ => none

def goTo (g : Errand) (a : Except UploadExc Unit) (p q : Point) : Errand :=
  { g with
    point := match a with
      | .ok () => p
      | .error _ => q }

end Errand

/-- A request that the server has carried out, as far as it has come to an answer. -/
def carriedOut : Except UploadExc Unit → Bool
  | .ok () => true
  | .error (.connectionLost served) => served
  | .error _ => false

/-- A job does one thing after the other; what raises leads to FAILED. -/
def protocol (settings : SftpSettings) : Protocol UploadOp UploadOp.Ans Errand where
  allow g o := g.next settings = some o
  expect _ _ _ := True
  next g o a :=
    match o, a with
    | .getSettlement _, a =>
      match a.filter fun r => decide r.Due with
      | some r => { g with record := some r, point := .checking }
      | none => { g with point := .over }
    | .isFile _, .ok found => { g with point := if found then .asking else .stamping }
    | .isFile _, .error _ => { g with point := .marking }
    | .haveAsyncssh, there => { g with point := if there then .connecting else .marking }
    | .connect _, a => g.goTo a .clearing .marking
    | .remove _, _ => { g with point := .putting }
    | .put _ _, a => g.goTo a .renaming .unwinding
    | .rename _ _, a => { g.goTo a .closing .unwinding with landed := carriedOut a }
    | .close, a => g.goTo a (if g.point = .closing then .stamping else .marking) .marking
    | .now, now => { g with point := .recording now }
    | .commit _ _, _ => { g with point := .over }

/-- The renames that the server has carried out, with the settlement whose job has asked for it. -/
structure Entry where
  id : Id
  target : String
deriving DecidableEq

def entries (g : Errand) : (o : UploadOp) → Option o.Ans → List Entry
  | .rename _ target, some a => if carriedOut a then [⟨g.id, target⟩] else []
  | _, _ => []

/-- Jobs for any settlements, as often as they are tried. A cancelled job stops, before or after
its operation has been carried out. -/
def uploads (settings : SftpSettings) (replaces : Bool) :
    Machine UploadOp UploadOp.Ans UploadExc UploadOutcome Site Unit Errand Entry where
  starts p _ g := ∃ i, p = uploadSettlementJob settings i ∧ g = { id := i }
  act o s _ a s' _ := ∃ x, serve replaces x o s = (.ok a, s')
  fails o s _ s' := ∃ x e, serve replaces x o s = (.error e, s')
  during o s _ s' := ∃ path target content n, o = .put path target ∧
    s.files path = some content ∧ s' = s.place target (some (cutOff n content))
  outside := Around
  protocol := protocol settings
  record := entries

abbrev UploadSys (ι : Type) :=
  Sys ι UploadOp UploadOp.Ans UploadExc UploadOutcome Site Unit Errand Entry

section Follows
variable {settings : SftpSettings} {g : Errand} {r : EmoneySettlement}

/-- The job has read the record and comes to a certain point. -/
def Errand.At (r : EmoneySettlement) (p : Point) (g : Errand) : Prop :=
  g.record = some r ∧ g.point = p

theorem transfer_follows (h : g.At r .clearing) :
    Follows (protocol settings) g (do
        Prog.handle (do orRaise (← ask (.remove (tmpRemote settings.remoteDir r.filePath))))
          fun _ => pure ()
        orRaise (← ask (.put r.filePath (tmpRemote settings.remoteDir r.filePath)))
        orRaise (← ask (.rename (tmpRemote settings.remoteDir r.filePath)
          (finalRemote settings.remoteDir r.filePath))))
      (fun g' _ => g'.At r .closing) fun g' _ => g'.At r .unwinding := by
  obtain ⟨hrecord, hpoint⟩ := h
  rw [follows_bind, follows_handle, follows_bind]
  refine ⟨by simp only [protocol, Errand.next, hpoint, hrecord], fun removed _ => ?_⟩
  have hput : Follows (protocol settings) { g with point := .putting } (do
      orRaise (← ask (.put r.filePath (tmpRemote settings.remoteDir r.filePath)))
      orRaise (← ask (.rename (tmpRemote settings.remoteDir r.filePath)
        (finalRemote settings.remoteDir r.filePath))))
      (fun g' _ => g'.At r .closing) fun g' _ => g'.At r .unwinding := by
    refine ⟨by simp only [protocol, Errand.next, hrecord], fun put _ => ?_⟩
    cases put with
    | error e => exact ⟨hrecord, rfl⟩
    | ok _ =>
      refine ⟨by simp only [protocol, Errand.next, Errand.goTo, hrecord], fun renamed _ => ?_⟩
      cases renamed <;> exact ⟨hrecord, rfl⟩
  cases removed <;> exact hput

theorem session_follows {body : UploadJob Unit} (h : g.At r .connecting)
    (hbody : ∀ g, g.At r .clearing → Follows (protocol settings) g body
      (fun g' _ => g'.At r .closing) fun g' _ => g'.At r .unwinding) :
    Follows (protocol settings) g (sftpSession settings.connection body)
      (fun g' _ => g'.At r .stamping) fun g' _ => g'.At r .marking := by
  obtain ⟨hrecord, hpoint⟩ := h
  unfold sftpSession
  refine ⟨by simp only [protocol, Errand.next, hpoint, hrecord], fun connected _ => ?_⟩
  cases connected with
  | error e => exact ⟨hrecord, rfl⟩
  | ok _ =>
    have hclear : Errand.At r .clearing (g.goTo (.ok ()) .clearing .marking) := ⟨hrecord, rfl⟩
    change Follows (protocol settings) (g.goTo (.ok ()) .clearing .marking) (body.handle _ >>= _) _ _
    rw [follows_bind, follows_handle]
    refine (hbody _ hclear).mono ?_ ?_
    · rintro g' _ ⟨hrecord', hpoint'⟩
      refine ⟨by simp only [protocol, Errand.next, hpoint', hrecord'], fun closed _ => ?_⟩
      cases closed with
      | error e => exact ⟨hrecord', rfl⟩
      | ok _ => exact ⟨hrecord', if_pos hpoint'⟩
    · rintro g' e ⟨hrecord', hpoint'⟩
      refine ⟨by simp only [protocol, Errand.next, hpoint', hrecord'], fun closed _ => ?_⟩
      have hne : g'.point ≠ .closing := by rw [hpoint']; decide
      cases closed with
      | error e' => exact ⟨hrecord', rfl⟩
      | ok _ => exact ⟨hrecord', if_neg hne⟩

theorem file_follows (h : g.At r .checking) :
    Follows (protocol settings) g
      (uploadSettlementFile r.filePath settings.connection settings.remoteDir)
      (fun g' _ => g'.At r .stamping) fun g' _ => g'.At r .marking := by
  obtain ⟨hrecord, hpoint⟩ := h
  unfold uploadSettlementFile
  refine ⟨by simp only [protocol, Errand.next, hpoint, hrecord], fun found _ => ?_⟩
  rcases found with e | _ | _
  · exact ⟨hrecord, rfl⟩
  · exact ⟨hrecord, rfl⟩
  refine ⟨by simp only [protocol, Errand.next, hrecord, if_true], fun there _ => ?_⟩
  cases there with
  | false => exact ⟨hrecord, rfl⟩
  | true =>
    have hconnect : Errand.At r .connecting { g with point := .connecting } := ⟨hrecord, rfl⟩
    change Follows (protocol settings) { g with point := .connecting } (sftpSession _ _ >>= _) _ _
    exact (session_follows hconnect fun _ => transfer_follows).bind (fun _ _ h => h) fun _ _ h => h

/-- Whatever a job is answered, it keeps to the protocol. -/
theorem upload_follows (settings : SftpSettings) (i : Id) :
    Follows (protocol settings) { id := i } (uploadSettlementJob settings i) (fun _ _ => True)
      fun _ _ => True := by
  unfold uploadSettlementJob
  split
  · trivial
  refine ⟨rfl, fun found _ => ?_⟩
  rcases found with _ | r
  · trivial
  change Follows (protocol settings) _ (if r.Due then _ else _) _ _
  by_cases hdue : r.Due
  swap
  · rw [if_neg hdue]
    trivial
  rw [if_pos hdue, follows_bind, follows_handle]
  have hstart : Errand.At r .checking
      ((protocol settings).next { id := i } (.getSettlement i) (some r)) := by
    simp only [protocol, Option.filter_some, hdue, decide_true, if_true]
    exact ⟨rfl, rfl⟩
  refine (file_follows hstart).mono ?_ ?_
  · rintro g uploaded ⟨hrecord, hpoint⟩
    refine ⟨by simp only [protocol, Errand.next, hpoint, hrecord], fun now _ => ?_⟩
    exact ⟨by simp only [protocol, Errand.next, hrecord], fun _ _ => trivial⟩
  · rintro g e ⟨hrecord, hpoint⟩
    exact ⟨by simp only [protocol, Errand.next, hpoint, hrecord], fun _ _ => trivial⟩

end Follows

theorem inProtocol_uploads {ι : Type} [DecidableEq ι] {settings : SftpSettings} {replaces : Bool}
    {s t : UploadSys ι} {l : Label ι UploadOp} (h : Step (uploads settings replaces) s l t)
    (hs : InProtocol (uploads settings replaces) s) : InProtocol (uploads settings replaces) t := by
  refine inProtocol_step h ?_ (fun _ _ _ _ _ _ _ _ => trivial) hs
  rintro p own g ⟨i, rfl, rfl⟩
  exact upload_follows settings i

section Next
variable {settings : SftpSettings} {g : Errand}

theorem next_put {path target : String} (h : g.next settings = some (.put path target)) :
    ∃ r, g.At r .putting ∧ path = r.filePath ∧
      target = tmpRemote settings.remoteDir r.filePath := by
  unfold Errand.next at h
  split at h <;> simp only [Option.some.injEq, UploadOp.put.injEq, reduceCtorEq] at h
  exact ⟨_, ⟨‹_›, ‹_›⟩, h.1.symm, h.2.symm⟩

theorem next_rename {source target : String} (h : g.next settings = some (.rename source target)) :
    ∃ r, g.At r .renaming ∧ source = tmpRemote settings.remoteDir r.filePath ∧
      target = finalRemote settings.remoteDir r.filePath := by
  unfold Errand.next at h
  split at h <;> simp only [Option.some.injEq, UploadOp.rename.injEq, reduceCtorEq] at h
  exact ⟨_, ⟨‹_›, ‹_›⟩, h.1.symm, h.2.symm⟩

end Next

/-- What an operation can do to the database and to the server, whatever it answers. -/
inductive Effect (s : Site) : UploadOp → Site → Prop
  | nothing {o} : Effect s o s
  | tick : Effect s .now s.tick
  | removed {path} : Effect s (.remove path) (s.place path none)
  | put {path target content part : String} : s.files path = some content →
      part.toList <+: content.toList → Effect s (.put path target) (s.place target (some part))
  | renamed {source target content : String} : s.remote source = some content →
      Effect s (.rename source target) ((s.place source none).place target (some content))
  | updated {i u} : Effect s (.commit i u) (s.update i u)

section Serve
variable {replaces : Bool} {x : Fate} {s s' : Site}

theorem request_effect {o : UploadOp} (h : Effect s o s') : Effect s o (request x s s').2 := by
  unfold request
  split <;> first | exact h | exact .nothing

theorem isPrefix_cutOff (n : Nat) (content : String) : (cutOff n content).toList <+: content.toList := by
  rw [cutOff, String.toList_ofList]
  exact List.take_prefix _ _

theorem serve_effect (replaces : Bool) (x : Fate) (o : UploadOp) (s : Site) :
    Effect s o (serve replaces x o s).2 := by
  cases o with
  | getSettlement _ | isFile _ | haveAsyncssh => exact .nothing
  | connect _ | close => exact request_effect .nothing
  | remove path => exact request_effect .removed
  | put path target =>
    simp only [serve]
    split
    · exact .nothing
    · exact .put ‹_› (isPrefix_cutOff _ _)
    · exact request_effect (.put ‹_› (List.prefix_refl _))
  | rename source target =>
    simp only [serve]
    rcases hsource : s.remote source with _ | content
    · exact .nothing
    · exact request_effect (.renamed hsource)
  | now => exact .tick
  | commit i u =>
    simp only [serve]
    split <;> first | exact .updated | exact .nothing

/-- A put that is answered has brought the whole file. -/
theorem serve_put {path target : String} {a : Unit}
    (h : serve replaces x (.put path target) s = (.ok (.ok a), s')) :
    ∃ content, s.files path = some content ∧ s' = s.place target (some content) := by
  simp only [serve] at h
  split at h
  · cases h
  · cases h
  · rename_i content hfile hx
    unfold request at h
    split at h <;> cases h
    exact ⟨content, hfile, rfl⟩

end Serve

section Moves
variable {ι : Type} {settings : SftpSettings} {replaces : Bool} {s t : UploadSys ι}
  {l : Label ι UploadOp}

/-- A job has gone on by an operation that was answered. -/
structure Went {ι : Type} (settings : SftpSettings) (replaces : Bool) (s t : UploadSys ι) (j : ι)
    (x : Session UploadOp UploadOp.Ans UploadExc UploadOutcome Unit Errand) (o : UploadOp)
    (a : o.Ans) : Prop where
  session : s.session j = some x
  allow : x.note.next settings = some o
  served : ∃ f, serve replaces f o s.shared = (.ok a, t.shared)
  after : ∀ k y, t.session k = some y →
    k = j ∧ y.note = (protocol settings).next x.note o a ∨ k ≠ j ∧ s.session k = some y
  others : ∀ k y, k ≠ j → s.session k = some y → t.session k = some y
  self : ∃ y, t.session j = some y ∧ y.note = (protocol settings).next x.note o a
  log : t.log = s.log ++ entries x.note o (some a)

/-- A job has ended: it was at its end, it was stopped, or a call has failed. -/
structure Ended {ι : Type} (s t : UploadSys ι) (j : ι)
    (x : Session UploadOp UploadOp.Ans UploadExc UploadOutcome Unit Errand) : Prop where
  session : s.session j = some x
  none : t.session j = none
  after : ∀ k y, t.session k = some y → k ≠ j ∧ s.session k = some y
  others : ∀ k y, k ≠ j → s.session k = some y → t.session k = some y
  log : t.log = s.log

/-- What a step can do. -/
inductive Move (settings : SftpSettings) (replaces : Bool) (s : UploadSys ι)
    (l : Label ι UploadOp) (t : UploadSys ι) : Prop
  | started {j i} : l = .start j → s.session j = none → t.shared = s.shared → t.log = s.log →
      (∀ k y, t.session k = some y → k = j ∧ y.note = { id := i } ∨ s.session k = some y) →
      (∀ k y, s.session k = some y → t.session k = some y) → Move settings replaces s l t
  | went {j x o a} : l = .go j o → Went settings replaces s t j x o a → Move settings replaces s l t
  | failed {j x o} : l = .go j o → x.note.next settings = some o → Ended s t j x →
      Effect s.shared o t.shared → Move settings replaces s l t
  | part {j x path target content part} : l = .go j (.put path target) → s.session j = some x →
      x.note.next settings = some (.put path target) → s.shared.files path = some content →
      part.toList <+: content.toList → t.shared = s.shared.place target (some part) →
      t.session = s.session → t.log = s.log → Move settings replaces s l t
  | stopped {j x} : l = .stop j → Ended s t j x → t.shared = s.shared → Move settings replaces s l t
  | outside : l = .outside → Around s.shared t.shared → t.session = s.session → t.log = s.log →
      Move settings replaces s l t

theorem serve_effect_of {o : UploadOp} {x : Fate} {a : Except UploadExc o.Ans} {s s' : Site}
    (h : serve replaces x o s = (a, s')) : Effect s o s' := by
  have heffect := serve_effect replaces x o s
  rw [h] at heffect
  exact heffect

theorem move_of_step [DecidableEq ι] (h : Step (uploads settings replaces) s l t)
    (hin : InProtocol (uploads settings replaces) s) : Move settings replaces s l t := by
  cases h with
  | @start j p own note hj hp =>
    obtain ⟨i, -, rfl⟩ := hp
    refine .started (i := i) rfl hj rfl rfl (fun k y hy => ?_) fun k y hy => ?_
    · rcases session_set hy with ⟨hk, hx⟩ | ⟨-, hy⟩
      · cases hx
        exact Or.inl ⟨hk, rfl⟩
      · exact Or.inr hy
    · refine session_set_ne (fun hk => ?_) hy
      rw [hk, hj] at hy
      cases hy
  | @go j o k own note a sh own' hj hact =>
    refine .went rfl ⟨hj, (hin _ _ hj).1, hact, fun i y hy => ?_,
      fun i y hi hy => session_set_ne hi hy, ⟨_, session_set_self, rfl⟩, rfl⟩
    rcases session_set hy with ⟨hi, hy⟩ | hy
    · cases hy
      exact Or.inl ⟨hi, rfl⟩
    · exact Or.inr hy
  | @fail j o k own note sh hj hfails =>
    obtain ⟨x, e, hx⟩ := hfails
    refine .failed rfl (hin _ _ hj).1 ⟨hj, session_set_self, fun i y hy => session_set_none hy,
      fun i y hi hy => session_set_ne hi hy, ?_⟩ (serve_effect_of hx)
    have hnone : entries note o none = [] := by cases o <;> rfl
    change s.log ++ entries note o none = s.log
    rw [hnone, List.append_nil]
  | @during j o k own note sh hj hduring =>
    obtain ⟨path, target, content, n, rfl, hfile, rfl⟩ := hduring
    exact .part rfl hj (hin _ _ hj).1 hfile (isPrefix_cutOff n content) rfl rfl rfl
  | @stop j x hj =>
    exact .stopped rfl ⟨hj, session_set_self, fun i y hy => session_set_none hy,
      fun i y hi hy => session_set_ne hi hy, rfl⟩ rfl
  | outside hout => exact .outside rfl hout rfl rfl

end Moves

def perform (replaces : Bool) (fate : UploadOp → Fate) (o : UploadOp) (s : Site) (_ : Unit) :
    Option o.Ans × Site × Unit :=
  match serve replaces (fate o) o s with
  | (.ok a, s') => (some a, s', ())
  | (.error _, s') => (none, s', ())

abbrev UploadTurn (ι : Type) :=
  Turn ι UploadOp UploadOp.Ans UploadExc UploadOutcome Site Unit Errand

def UploadTurn.job {ι : Type} (settings : SftpSettings) (j : ι) (i : Id) : UploadTurn ι :=
  .start j (uploadSettlementJob settings i) () { id := i }

theorem perform_path {ι : Type} [DecidableEq ι] {settings : SftpSettings} {replaces : Bool}
    {fate : UploadOp → Fate} {s : UploadSys ι} {turns : List (UploadTurn ι)}
    (hstart : ∀ j p u g, .start j p u g ∈ turns → ∃ i, p = uploadSettlementJob settings i ∧
      g = { id := i })
    (houtside : ∀ f, .outside f ∈ turns → ∀ s, Around s (f s)) :
    Path (Step (uploads settings replaces)) s
      (takeTurns (uploads settings replaces) (perform replaces fate) s turns) := by
  refine takeTurns_path (fun o s u a s' u' h => ?_) (fun o s u s' u' h => ?_) hstart houtside
  · unfold perform at h
    rcases hx : serve replaces (fate o) o s with ⟨e | a', s''⟩ <;> rw [hx] at h <;> cases h
    exact ⟨_, hx⟩
  · unfold perform at h
    rcases hx : serve replaces (fate o) o s with ⟨e | a', s''⟩ <;> rw [hx] at h <;> cases h
    exact ⟨_, _, hx⟩

/-- A job and its steps, to the end. -/
def UploadTurn.full {ι : Type} (settings : SftpSettings) (j : ι) (i : Id) : List (UploadTurn ι) :=
  UploadTurn.job settings j i :: List.replicate 11 (.go j)

end Upload
end ParkIt
