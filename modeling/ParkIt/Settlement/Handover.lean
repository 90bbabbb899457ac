import ParkIt.Settlement.Partition

/-! What a settlement run hands over to the upload job: the records that it has made itself. -/
namespace ParkIt.Settlement

open Effects Chunks

/-- What is done between two records touches neither the tables nor the queue. -/
structure Mute (c c' : Conn) : Prop where
  db : c'.state.world.db = c.state.world.db
  saved : c'.saved = c.saved
  next : c'.state.nextSettlement = c.state.nextSettlement
  uploads : c'.state.uploads = c.state.uploads
  redis : c'.state.world.redisDown = c.state.world.redisDown

/-- New records, each with its upload, in the order in which they were made. -/
structure Handed (c c' : Conn) (rs : List EmoneySettlement) : Prop where
  saved : c'.saved.settlements = c.saved.settlements ++ rs
  uploads : c'.state.uploads = c.state.uploads ++ rs.map (·.id)
  redis : c'.state.world.redisDown = c.state.world.redisDown
  next : c.state.nextSettlement ≤ c'.state.nextSettlement
  fresh : ∀ r ∈ rs, c.state.nextSettlement ≤ r.id

section Handed
variable {c c' c'' : Conn} {rs rs' : List EmoneySettlement}

theorem Mute.refl (c : Conn) : Mute c c := ⟨rfl, rfl, rfl, rfl, rfl⟩

theorem Mute.trans (h : Mute c c') (h' : Mute c' c'') : Mute c c'' :=
  ⟨h'.db.trans h.db, h'.saved.trans h.saved, h'.next.trans h.next, h'.uploads.trans h.uploads,
    h'.redis.trans h.redis⟩

theorem Mute.handed (h : Mute c c') : Handed c c' [] :=
  ⟨by rw [h.saved, List.append_nil], by rw [h.uploads, List.map_nil, List.append_nil], h.redis,
    h.next.ge, fun _ hr => nomatch hr⟩

theorem Handed.trans (h : Handed c c' rs) (h' : Handed c' c'' rs') : Handed c c'' (rs ++ rs') := by
  refine ⟨?_, ?_, h'.redis.trans h.redis, h.next.trans h'.next, fun r hr => ?_⟩
  · rw [h'.saved, h.saved, List.append_assoc]
  · rw [h'.uploads, h.uploads, List.map_append, List.append_assoc]
  · rcases List.mem_append.mp hr with hr | hr
    · exact h.fresh r hr
    · exact h.next.trans (h'.fresh r hr)

theorem mute_exec (o : JobOp) (c : Conn) (ho : Plain o) : Mute c (exec o c).2 := by
  cases o with
  | insertSettlement _ | link _ _ | commit | enqueueUpload _ => exact ho.elim
  | setLock _ | writeFile _ _ =>
    simp only [exec]
    split
    · exact ⟨rfl, rfl, rfl, rfl, rfl⟩
    · split <;> exact ⟨rfl, rfl, rfl, rfl, rfl⟩
  | makedirs | incrBatch _ | expireBatch _ =>
    simp only [exec]
    split <;> exact ⟨rfl, rfl, rfl, rfl, rfl⟩
  | now | unsettledReaders | reader _ | unsettled _ => exact ⟨rfl, rfl, rfl, rfl, rfl⟩

theorem ensures_plain {α : Type} {raises : JobExc → Prop} {p : Job α} (h : Only Plain raises p)
    (c : Conn) : Prog.Ensures exec p c (fun _ c' => Mute c c') fun _ c' => Mute c c' :=
  h.ensures Mute.refl (fun _ _ _ h h' => h.trans h') mute_exec c

end Handed

section Run
variable {sha256 : String → String} {now : DateTime} {c : Conn} {r : Id} {mid tid : String}

/-- The session of a cron job whose Redis is there, between two files. -/
def Conn.Online (c : Conn) : Prop := c.Ready ∧ c.state.world.redisDown = false

theorem Mute.online {c' : Conn} (h : Mute c c') (hc : c.Online) : c'.Online :=
  ⟨h.db.trans (hc.1.trans h.saved.symm), h.redis.trans hc.2⟩

theorem ensures_plain_ask {o : JobOp} (ho : Plain o) (c : Conn) :
    Prog.Ensures exec (ask o) c (fun _ c' => Mute c c') fun _ c' => Mute c c' :=
  have honly : Only Plain (fun _ => False) (ask o) := only_perform ho
  ensures_plain honly c

/-- A record that is accepted, linked and committed is handed over. -/
theorem record_handed (hc : c.Online) (row : EmoneySettlement) (ids : List Id) :
    Prog.Ensures exec (do
        let settlement ← ask (.insertSettlement row)
        ask (.link ids settlement)
        ask .commit
        enqueueUpload ⟨true⟩ settlement) c
      (fun _ c' => c'.Online ∧ ∃ rs, Handed c c' rs) fun _ _ => True := by
  obtain ⟨hready, hredis⟩ := hc
  rw [Prog.ensures_bind, ensures_ask]
  simp only [exec]
  by_cases hrow : EmoneySettlement.accepted { row with id := c.state.nextSettlement } = true
  swap
  · rw [if_neg hrow]
    trivial
  rw [if_pos hrow]
  dsimp only
  rw [Prog.ensures_bind, ensures_ask]
  dsimp only [exec]
  rw [Prog.ensures_bind, ensures_ask]
  dsimp only [exec, enqueueUpload]
  rw [if_pos rfl, ensures_ask]
  dsimp only [exec]
  rw [if_neg (by rw [hredis]; decide)]
  refine ⟨⟨rfl, hredis⟩, [{ row with id := c.state.nextSettlement }], ?_, rfl, rfl,
    (Int.lt_succ _).le, fun r' hr' => ?_⟩
  · rw [← hready]
    rfl
  · rw [List.mem_singleton.mp hr']

theorem settleChunk_handed (hc : c.Online) (chunk : List EmoneyTransaction) :
    Prog.Ensures exec (settleChunk sha256 ⟨true⟩ now r mid tid chunk) c
      (fun _ c' => c'.Online ∧ ∃ rs, Handed c c' rs) fun _ _ => True := by
  rw [settleChunk_eq]
  refine (ensures_plain (plain_nextBatchNumber ⟨true⟩ r _) c).bind (fun _ _ _ => trivial)
    fun batchNumber c₁ h₁ => ?_
  rw [Prog.ensures_bind, ensures_orValueError]
  split
  case h_2 => trivial
  case h_1 content hbuild =>
  obtain ⟨record, hrecord⟩ : ∃ record, record = recordOf sha256 now mid tid batchNumber chunk content :=
    ⟨_, rfl⟩
  dsimp only
  rw [← hrecord]
  refine (ensures_plain (plain_writeFile _ content) c₁).bind (fun _ _ _ => trivial) fun _ c₂ h₂ => ?_
  have hmute := h₁.trans h₂
  refine (record_handed (hmute.online hc) record (chunk.map (·.id))).mono ?_ fun _ _ _ => trivial
  rintro - c₃ ⟨hc₃, rs, h₃⟩
  exact ⟨hc₃, rs, hmute.handed.trans h₃⟩

theorem settleChunks_handed (hc : c.Online) (chunks : List (List EmoneyTransaction))
    (done : Nat × Nat) :
    Prog.Ensures exec (settleChunks sha256 ⟨true⟩ now r mid tid chunks done) c
      (fun _ c' => c'.Online ∧ ∃ rs, Handed c c' rs) fun _ _ => True := by
  induction chunks generalizing c done with
  | nil => exact ⟨hc, [], (Mute.refl c).handed⟩
  | cons chunk chunks ih =>
    refine (settleChunk_handed hc chunk).bind (fun _ _ _ => trivial) ?_
    rintro - c₁ ⟨hc₁, rs, h₁⟩
    exact (ih hc₁ _).mono (fun _ c₂ ⟨hc₂, rs', h₂⟩ => ⟨hc₂, rs ++ rs', h₁.trans h₂⟩)
      fun _ _ _ => trivial

theorem settleReader_handed (hc : c.Online) (done : Nat × Nat) :
    Prog.Ensures exec (settleReader sha256 ⟨true⟩ now r done) c
      (fun _ c' => c'.Online ∧ ∃ rs, Handed c c' rs) fun _ _ => True := by
  have hskip : c.Online ∧ ∃ rs, Handed c c rs := ⟨hc, [], (Mute.refl c).handed⟩
  unfold settleReader
  rw [Prog.ensures_bind, ensures_ask]
  dsimp only [exec]
  split
  · exact hskip
  · split
    · rw [Prog.ensures_bind, ensures_ask]
      exact settleChunks_handed hc _ done
    · exact hskip

theorem settleReaders_handed (hc : c.Online) (readerIds : List Id) (done : Nat × Nat) :
    Prog.Ensures exec (settleReaders sha256 ⟨true⟩ now readerIds done) c
      (fun _ c' => ∃ rs, Handed c c' rs) fun _ _ => True := by
  induction readerIds generalizing c done with
  | nil => exact ⟨[], (Mute.refl c).handed⟩
  | cons r readerIds ih =>
    refine (settleReader_handed hc done).bind (fun _ _ _ => trivial) ?_
    rintro done₁ c₁ ⟨hc₁, rs, h₁⟩
    exact (ih hc₁ done₁).mono (fun _ c₂ ⟨rs', h₂⟩ => ⟨rs ++ rs', h₁.trans h₂⟩) fun _ _ _ => trivial

/-- A cron run that raises nothing hands over its new records, and nothing else. -/
theorem generate_handed {s s' : State} {out : Outcome}
    (h : generate sha256 ⟨true⟩ s = (.ok out, s')) :
    ∃ rs, s'.world.db.settlements = s.world.db.settlements ++ rs ∧
      s'.uploads = s.uploads ++ rs.map (·.id) ∧ ∀ r ∈ rs, s.nextSettlement ≤ r.id := by
  have hrun : Prog.Ensures exec (generateSettlementFile sha256 ⟨true⟩) s.session
      (fun _ c' => ∃ rs, Handed s.session c' rs) fun _ _ => True := by
    have hskip : ∀ {c}, Mute s.session c → ∃ rs, Handed s.session c rs := fun h => ⟨[], h.handed⟩
    unfold generateSettlementFile
    have hlease := ensures_plain (plain_lease ⟨true⟩) s.session
    have hredis : Prog.Ensures exec (lease ⟨true⟩) s.session
        (fun acquired _ => acquired = true → s.world.redisDown = false) fun _ _ => True := by
      unfold lease
      rw [if_pos rfl, Prog.ensures_bind, ensures_ask]
      dsimp only [exec]
      rw [Prog.ensures_bind, ensures_ask]
      dsimp only [exec]
      split_ifs with hdown
      · exact fun h => absurd h Bool.false_ne_true
      · exact fun h => absurd h Bool.false_ne_true
      · exact fun _ => Bool.eq_false_iff.mpr hdown
    refine (hlease.and hredis).bind (fun _ _ _ => trivial) ?_
    rintro acquired c₁ ⟨h₁, hup⟩
    cases acquired with
    | false => exact hskip h₁
    | true =>
      refine (ensures_plain_ask (o := .makedirs) trivial c₁).bind (fun _ _ _ => trivial)
        fun _ c₂ h₂ => ?_
      refine (ensures_plain_ask (o := .unsettledReaders) trivial c₂).bind (fun _ _ _ => trivial)
        fun readerIds c₃ h₃ => ?_
      have hmute := (h₁.trans h₂).trans h₃
      split
      · exact hskip hmute
      · refine (ensures_plain_ask (o := .now) trivial c₃).bind (fun _ _ _ => trivial)
          fun now c₄ h₄ => ?_
        have honline := (hmute.trans h₄).online ⟨rfl, hup rfl⟩
        refine (settleReaders_handed honline _ _).bind (fun _ _ _ => trivial) ?_
        rintro _ _ ⟨rs, h⟩
        exact ⟨rs, (hmute.trans h₄).handed.trans h⟩
  unfold generate at h
  rcases hr : (generateSettlementFile sha256 ⟨true⟩).run exec { state := s, saved := s.world.db }
    with ⟨r, c'⟩
  rw [hr] at h
  cases h
  obtain ⟨rs, hrs⟩ := hrun.of_ok hr
  exact ⟨rs, hrs.saved, hrs.uploads, hrs.fresh⟩

end Run
end ParkIt.Settlement
