import ParkIt.Settlement.Jobs

/-! Readers whose files cannot be made, and the readers that come after them in a run. -/
namespace ParkIt.Settlement

open Effects Chunks

/-- The number of the reader's next file but `k`. -/
def State.number (s : State) (ctx : Ctx) (r : Id) (now : DateTime) (k : Nat) : Nat :=
  if ctx.redis && !s.world.redisDown then s.batch (batchKey r (isoDate now.localTime)) + (k + 1)
  else 1

/-- The file of a chunk can be built, written and recorded. -/
def Fileable (sha256 : String → String) (s : State) (now : DateTime) (mid tid : String)
    (number : Nat) (chunk : List EmoneyTransaction) : Prop :=
  ∃ content, buildSettlementContent (chunk.map (·.settlementPayloadHex.getD ""))
      (chunk.map (·.amountDeducted)).sum = .ok content ∧
    s.openable (recordOf sha256 now mid tid number chunk content).filePath = true ∧
    isAscii content = true ∧ (recordOf sha256 now mid tid number chunk content).accepted = true

/-- One of the reader's files cannot be made. -/
def Blocked (sha256 : String → String) (ctx : Ctx) (now : DateTime) (c : Conn) (r : Id) : Prop :=
  ∃ mid tid, c.saved.names r = some (mid, tid) ∧
    ∃ k chunk, (chunksOf (c.dueQueue r))[k]? = some chunk ∧
      ¬ Fileable sha256 c.state now mid tid (c.state.number ctx r now k) chunk

/-- What the files of a reader leave for the other readers. -/
structure Spared (r : Id) (now : DateTime) (c c' : Conn) : Prop where
  unwritable : c'.state.unwritable = c.state.unwritable
  redis : c'.state.world.redisDown = c.state.world.redisDown
  clock : c'.state.world.now = c.state.world.now
  others : ∀ key, key ≠ batchKey r (isoDate now.localTime) →
    c'.state.batches key = c.state.batches key

/-- One number has been drawn. -/
structure Drawn (ctx : Ctx) (r : Id) (now : DateTime) (c c' : Conn) : Prop
    extends Spared r now c c' where
  count : ctx.redis = true → c.state.world.redisDown = false →
    c'.state.batch (batchKey r (isoDate now.localTime)) =
      c.state.batch (batchKey r (isoDate now.localTime)) + 1

/-- Neither a number nor the clock. -/
structure Level (c c' : Conn) : Prop where
  unwritable : c'.state.unwritable = c.state.unwritable
  redis : c'.state.world.redisDown = c.state.world.redisDown
  clock : c'.state.world.now = c.state.world.now
  batches : c'.state.batches = c.state.batches

section Chunk
variable {sha256 : String → String} {ctx : Ctx} {now : DateTime} {c c' c'' : Conn} {r r' : Id}
  {mid tid : String}

theorem repr_injective {i j : Int} (h : i.repr = j.repr) : i = j := by
  have hdigits : ∀ n : Nat, (Nat.repr n).toList = Nat.toDigits 10 n := fun n => Nat.toList_repr
  have hnat : ∀ m n : Nat, Nat.repr m = Nat.repr n → m = n := by
    intro m n h
    have hlist := congrArg String.toList h
    rw [hdigits, hdigits] at hlist
    rw [← Nat.ofDigitChars_ten_toDigits (n := m), hlist, Nat.ofDigitChars_ten_toDigits]
  have hsign : ∀ m n : Nat, Nat.repr m ≠ "-" ++ Nat.repr n := by
    intro m n h
    have hmem : '-' ∈ (Nat.repr m).toList := by
      rw [h, String.toList_append]
      exact List.mem_append_left _ (List.mem_singleton.mpr rfl)
    rw [hdigits] at hmem
    exact absurd (Nat.isDigit_of_mem_toDigits (by decide) (by decide) hmem) (by decide)
  rcases i with m | m <;> rcases j with n | n
  · exact congrArg Int.ofNat (hnat m n h)
  · exact absurd h (hsign m (n + 1))
  · exact absurd h.symm (hsign n (m + 1))
  · have hlist := congrArg String.toList h
    change ("-" ++ Nat.repr (m + 1)).toList = ("-" ++ Nat.repr (n + 1)).toList at hlist
    rw [String.toList_append, String.toList_append] at hlist
    have hsucc := hnat _ _ (String.toList_inj.mp (List.append_cancel_left hlist))
    rw [Nat.succ.inj hsucc]

theorem batchKey_ne {date : String} (h : r ≠ r') : batchKey r date ≠ batchKey r' date := by
  intro heq
  have hkey : ∀ i : Id, batchKey i date = "settlement:batch:" ++ i.repr ++ (":" ++ date) := by
    intro i
    rw [← String.append_assoc]
    rfl
  rw [hkey, hkey] at heq
  have hlist := congrArg String.toList heq
  simp only [String.toList_append] at hlist
  have hdigits := List.append_cancel_left (List.append_cancel_right hlist)
  exact h (repr_injective (String.toList_inj.mp hdigits))

theorem Spared.refl (c : Conn) : Spared r now c c := ⟨rfl, rfl, rfl, fun _ _ => rfl⟩

theorem Spared.trans (h : Spared r now c c') (h' : Spared r now c' c'') : Spared r now c c'' :=
  ⟨h'.unwritable.trans h.unwritable, h'.redis.trans h.redis, h'.clock.trans h.clock,
    fun key hkey => (h'.others key hkey).trans (h.others key hkey)⟩

theorem Drawn.level (h : Drawn ctx r now c c') (h' : Level c' c'') : Drawn ctx r now c c'' := by
  refine ⟨⟨h'.unwritable.trans h.unwritable, h'.redis.trans h.redis, h'.clock.trans h.clock,
    fun key hkey => ?_⟩, fun hctx hup => ?_⟩
  · rw [h'.batches]
    exact h.others key hkey
  · rw [← h.count hctx hup, State.batch, State.batch, h'.batches, h'.clock]

theorem Drawn.number (h : Drawn ctx r now c c') (k : Nat) :
    c'.state.number ctx r now k = c.state.number ctx r now (k + 1) := by
  unfold State.number
  rw [h.redis]
  by_cases hup : (ctx.redis && !c.state.world.redisDown) = true
  · rw [if_pos hup, if_pos hup]
    rw [Bool.and_eq_true, Bool.not_eq_true'] at hup
    rw [h.count hup.1 hup.2]
    omega
  · rw [if_neg hup, if_neg hup]

theorem State.batch_live {s : State} {key : String} {n : Nat} {d : Option Int}
    (hkey : s.batches key = some (n, d)) (hlive : ∀ t ∈ d, s.world.now < t) : s.batch key = n := by
  unfold State.batch
  rw [hkey]
  rcases d with _ | t
  · rfl
  · exact if_pos (hlive t rfl)

/-- A counter that has been counted has not expired. -/
theorem State.live_of_batch {s : State} {key : String} (h : s.batch key ≠ 0) :
    ∀ t ∈ (s.batches key).bind Prod.snd, s.world.now < t := by
  unfold State.batch at h
  rcases hb : s.batches key with _ | ⟨n, _ | t⟩ <;> rw [hb] at h
  · exact nofun
  · exact nofun
  · rintro t' ⟨⟩
    by_contra hlate
    exact h (if_neg hlate)

/-- The number that Redis issues, or 1. -/
theorem nextBatchNumber_drawn :
    Prog.Ensures exec (nextBatchNumber ctx r (isoDate now.localTime)) c
      (fun n c' => n = c.state.number ctx r now 0 ∧ Drawn ctx r now c c') fun _ _ => False := by
  have hname : s!"settlement:batch:{r}:{isoDate now.localTime}" =
      batchKey r (isoDate now.localTime) := rfl
  unfold nextBatchNumber
  dsimp only
  rw [hname]
  generalize hkey : batchKey r (isoDate now.localTime) = key
  by_cases hctx : ctx.redis = true
  swap
  · rw [if_neg hctx]
    refine ⟨?_, Spared.refl c, fun h => absurd h hctx⟩
    rw [State.number, Bool.eq_false_iff.mpr hctx, Bool.false_and, if_neg Bool.false_ne_true]
  rw [if_pos hctx, Prog.ensures_bind, ensures_ask]
  by_cases hdown : c.state.world.redisDown = true
  · simp only [exec, if_pos hdown]
    refine ⟨?_, Spared.refl c, fun _ h => absurd hdown (by rw [h]; decide)⟩
    rw [State.number, hdown, Bool.not_true, Bool.and_false, if_neg Bool.false_ne_true]
  have hnumber : c.state.batch key + 1 = c.state.number ctx r now 0 := by
    rw [State.number, if_pos (by rw [hctx, Bool.eq_false_iff.mpr hdown]; rfl), hkey]
  simp only [exec, if_neg hdown]
  split
  · rename_i hone
    rw [Prog.ensures_bind, ensures_ask]
    simp only [exec, if_neg hdown]
    refine ⟨hnumber, ⟨rfl, rfl, rfl, fun k hk => ?_⟩, fun _ _ => ?_⟩
    · rw [hkey] at hk
      exact (if_neg hk).trans (if_neg hk)
    · rw [hkey]
      refine (State.batch_live (n := c.state.batch key + 1)
        (d := some (c.state.world.expiry 172800)) ?_ ?_)
      · simp [setKey]
      · rintro t ⟨⟩
        change c.state.world.now < c.state.world.now + 172800 * 1000000
        omega
  · rename_i hmore
    refine ⟨hnumber, ⟨rfl, rfl, rfl, fun k hk => ?_⟩, fun _ _ => ?_⟩
    · rw [hkey] at hk
      exact if_neg hk
    · rw [hkey]
      exact State.batch_live (if_pos rfl) (State.live_of_batch fun h0 => hmore (by rw [h0]))

theorem openable_congr {s s' : State} (h : s'.unwritable = s.unwritable) (path : String) :
    s'.openable path = s.openable path := by
  rw [State.openable, State.openable, h]

theorem Fileable.congr {s s' : State} (h : s'.unwritable = s.unwritable) {n : Nat}
    {chunk : List EmoneyTransaction} :
    Fileable sha256 s' now mid tid n chunk ↔ Fileable sha256 s now mid tid n chunk := by
  unfold Fileable
  simp only [openable_congr h]

/-- A file is made exactly if it can be. -/
theorem settleChunk_fate (chunk : List EmoneyTransaction) :
    Prog.Ensures exec (settleChunk sha256 ctx now r mid tid chunk) c
      (fun _ c' => Fileable sha256 c.state now mid tid (c.state.number ctx r now 0) chunk ∧
        Drawn ctx r now c c')
      fun _ _ => ¬ Fileable sha256 c.state now mid tid (c.state.number ctx r now 0) chunk := by
  rw [settleChunk_eq]
  refine nextBatchNumber_drawn.bind (fun _ _ hf => hf.elim) ?_
  rintro n c₁ ⟨rfl, hdrawn⟩
  generalize c.state.number ctx r now 0 = n
  rw [Prog.ensures_bind, ensures_orValueError]
  split
  case h_2 msg hbuild =>
    rintro ⟨content, hcontent, -⟩
    rw [hbuild] at hcontent
    cases hcontent
  case h_1 content hbuild =>
  have hfate : Fileable sha256 c.state now mid tid n chunk ↔
      c₁.state.openable (recordOf sha256 now mid tid n chunk content).filePath = true ∧
      isAscii content = true ∧ (recordOf sha256 now mid tid n chunk content).accepted = true := by
    rw [← Fileable.congr hdrawn.unwritable]
    unfold Fileable
    rw [hbuild]
    constructor
    · rintro ⟨_, ⟨⟩, h⟩
      exact h
    · exact fun h => ⟨content, rfl, h⟩
  rw [hfate]
  dsimp only
  generalize recordOf sha256 now mid tid n chunk content = record
  rw [Prog.ensures_bind, ensures_ask]
  simp only [exec]
  by_cases hopen : c₁.state.openable record.filePath = true
  swap
  · rw [if_pos (by rw [Bool.eq_false_iff.mpr hopen]; rfl)]
    exact fun h => hopen h.1
  rw [if_neg (by rw [hopen]; decide)]
  by_cases hascii : isAscii content = true
  swap
  · rw [if_neg hascii]
    exact fun h => hascii h.2.1
  rw [if_pos hascii]
  dsimp only
  rw [Prog.ensures_bind, ensures_ask]
  simp only [exec]
  by_cases hrow : EmoneySettlement.accepted { record with id := c₁.state.nextSettlement } = true
  swap
  · rw [if_neg hrow]
    exact fun h => hrow h.2.2
  rw [if_pos hrow]
  dsimp only
  rw [Prog.ensures_bind, ensures_ask]
  dsimp only [exec]
  rw [Prog.ensures_bind, ensures_ask]
  dsimp only [exec, enqueueUpload]
  split
  · rw [ensures_ask]
    dsimp only [exec]
    split <;> exact ⟨⟨hopen, hascii, hrow⟩, hdrawn.level ⟨rfl, rfl, rfl, rfl⟩⟩
  · exact ⟨⟨hopen, hascii, hrow⟩, hdrawn.level ⟨rfl, rfl, rfl, rfl⟩⟩

/-- The numbers go up by one from file to file. -/
theorem settleChunks_fate (chunks : List (List EmoneyTransaction)) (done : Nat × Nat) :
    Prog.Ensures exec (settleChunks sha256 ctx now r mid tid chunks done) c
      (fun _ c' => (∀ k chunk, chunks[k]? = some chunk →
        Fileable sha256 c.state now mid tid (c.state.number ctx r now k) chunk) ∧ Spared r now c c')
      fun _ _ => ∃ k chunk, chunks[k]? = some chunk ∧
        ¬ Fileable sha256 c.state now mid tid (c.state.number ctx r now k) chunk := by
  induction chunks generalizing c done with
  | nil => exact ⟨fun k chunk h => (nomatch h), Spared.refl c⟩
  | cons chunk chunks ih =>
    refine (settleChunk_fate chunk).bind (fun _ _ h => ⟨0, chunk, rfl, h⟩) ?_
    rintro - c₁ ⟨hfirst, hdrawn⟩
    have hshift : ∀ k chunk, Fileable sha256 c₁.state now mid tid
        (c₁.state.number ctx r now k) chunk ↔
          Fileable sha256 c.state now mid tid (c.state.number ctx r now (k + 1)) chunk := by
      intro k chunk
      rw [hdrawn.number, Fileable.congr hdrawn.unwritable]
    refine (ih _).mono ?_ ?_
    · rintro - c₂ ⟨hrest, hapart⟩
      refine ⟨fun k chunk' hk => ?_, hdrawn.toSpared.trans hapart⟩
      cases k with
      | zero =>
        cases hk
        exact hfirst
      | succ k => exact (hshift k chunk').mp (hrest k chunk' hk)
    · rintro - c₂ ⟨k, chunk', hk, hnot⟩
      exact ⟨k + 1, chunk', hk, fun h => hnot ((hshift k chunk').mpr h)⟩

end Chunk
section Readers
variable {sha256 : String → String} {ctx : Ctx} {now : DateTime} {c c' : Conn} {r r' : Id}
  {bs : List Batch}

theorem ensures_settleReader (hc : c.Ready) {done : Nat × Nat} {ok : Nat × Nat → Conn → Prop}
    {err : JobExc → Conn → Prop} :
    Prog.Ensures exec (settleReader sha256 ctx now r done) c ok err ↔
      match c.saved.names r with
      | none => ok done c
      | some (mid, tid) => Prog.Ensures exec
          (settleChunks sha256 ctx now r mid tid (chunksOf (c.queue r)) done) c ok err := by
  have hread : exec (.reader r) c =
      (.ok (c.saved.readers.find? fun x => decide (x.id = r)), c) := by
    rw [← hc]
    rfl
  have hfetch : exec (.unsettled r) c = (.ok (c.queue r), c) := by
    unfold Conn.queue
    rw [← hc]
    rfl
  unfold settleReader Db.names
  rw [Prog.ensures_bind, ensures_ask, hread]
  dsimp only
  generalize (c.saved.readers.find? fun x => decide (x.id = r)) = found
  rcases found with _ | reader
  · rfl
  dsimp only [Option.bind_some]
  generalize truthy reader.mid = mid
  generalize truthy reader.tid = tid
  rcases mid with _ | mid
  · rfl
  rcases tid with _ | tid
  · rfl
  dsimp only [Option.bind_some, Option.map_some]
  rw [Prog.ensures_bind, ensures_ask, hfetch]

/-- A reader is settled exactly if each of its files can be made. -/
theorem settleReader_fate (hc : c.Ready) (done : Nat × Nat) :
    Prog.Ensures exec (settleReader sha256 ctx now r done) c
      (fun _ c' => ¬ Blocked sha256 ctx now c r ∧ Spared r now c c')
      fun _ _ => Blocked sha256 ctx now c r := by
  rw [ensures_settleReader hc]
  rcases hnames : c.saved.names r with _ | ⟨mid, tid⟩
  · refine ⟨?_, Spared.refl c⟩
    rintro ⟨mid, tid, h, -⟩
    rw [hnames] at h
    cases h
  have hqueue : c.dueQueue r = c.queue r := if_neg (by rw [hnames]; exact Option.some_ne_none _)
  refine (settleChunks_fate _ done).mono ?_ ?_
  · rintro - c' ⟨hall, hapart⟩
    refine ⟨?_, hapart⟩
    rintro ⟨mid', tid', h, k, chunk, hk, hnot⟩
    rw [hnames] at h
    cases h
    rw [hqueue] at hk
    exact hnot (hall k chunk hk)
  · rintro - - ⟨k, chunk, hk, hnot⟩
    rw [← hqueue] at hk
    exact ⟨mid, tid, hnames, k, chunk, hk, hnot⟩

/-- What decides whether the files of a reader can be made. -/
theorem blocked_congr (hnames : c'.saved.names r = c.saved.names r)
    (hqueue : c'.dueQueue r = c.dueQueue r) (hunwritable : c'.state.unwritable = c.state.unwritable)
    (hnumber : ∀ k, c'.state.number ctx r now k = c.state.number ctx r now k) :
    Blocked sha256 ctx now c' r ↔ Blocked sha256 ctx now c r := by
  unfold Blocked
  simp only [hnames, hqueue, hnumber, Fileable.congr hunwritable]

/-- The files of one reader do not decide about another one's. -/
theorem Spared.blocked (h : Spared r' now c c') (hgrown : Grown sha256 c c' bs)
    (hids : (c.saved.emoney.map (·.id)).Nodup) (hbs : ∀ b ∈ bs, b.readerId = r') (hr : r' ≠ r) :
    Blocked sha256 ctx now c' r ↔ Blocked sha256 ctx now c r := by
  refine blocked_congr ?_ (hgrown.dueQueue hids fun b hb => by rw [hbs b hb]; exact hr)
    h.unwritable fun k => ?_
  · rw [hgrown.saved, settleAll_names]
  · unfold State.number State.batch
    rw [h.redis, h.clock, h.others _ (batchKey_ne hr.symm)]

/-- The readers before the first one that is blocked are settled, those after it are not reached. -/
structure Cut (sha256 : String → String) (ctx : Ctx) (now : DateTime) (c c' : Conn)
    (rs pre : List Id) (f : Id) (post : List Id) (bs : List Batch) : Prop where
  split : rs = pre ++ f :: post
  before : ∀ r ∈ pre, ¬ Blocked sha256 ctx now c r
  failed : Blocked sha256 ctx now c f
  grown : Grown sha256 c c' bs
  reached : ∀ b ∈ bs, b.readerId ∈ pre ++ [f]
  settled : ∀ r ∈ pre, (bs.filter (·.readerId = r)).flatMap (·.rows) = c.dueQueue r

theorem settleReaders_fate {rs : List Id} (hrs : rs.Nodup) (hc : c.Ready)
    (hids : (c.saved.emoney.map (·.id)).Nodup) (done : Nat × Nat) :
    Prog.Ensures exec (settleReaders sha256 ctx now rs done) c
      (fun _ c' => (∀ r ∈ rs, ¬ Blocked sha256 ctx now c r) ∧ ∃ bs, Grown sha256 c c' bs ∧
        ∀ r ∈ rs, (bs.filter (·.readerId = r)).flatMap (·.rows) = c.dueQueue r)
      fun _ c' => ∃ pre f post bs, Cut sha256 ctx now c c' rs pre f post bs := by
  induction rs generalizing c done with
  | nil =>
    exact ⟨fun r hr => (nomatch hr), [], (Steady.refl c).grown, fun r hr => (nomatch hr)⟩
  | cons r rs ih =>
    obtain ⟨hr, hrs'⟩ := List.nodup_cons.mp hrs
    refine ((settleReader_grown hc hids done).and (settleReader_fate hc done)).bind ?_ ?_
    · rintro _ c₁ ⟨⟨bs, hbs, hgrown⟩, hblocked⟩
      exact ⟨[], r, rs, bs, rfl, fun r hr => (nomatch hr), hblocked, hgrown,
        fun b hb => List.mem_singleton.mpr (hbs b hb), fun r hr => (nomatch hr)⟩
    rintro done₁ c₁ ⟨⟨hc₁, bs₁, hbs₁, hqueue, hgrown₁, -⟩, hfree, hapart⟩
    have hids₁ : (c₁.saved.emoney.map (·.id)).Nodup := by
      rw [hgrown₁.saved, settleAll_ids]
      exact hids
    have hne : ∀ r' ∈ rs, r ≠ r' := fun r' hr' h => hr (h ▸ hr')
    have hsame : ∀ r' ∈ rs, Blocked sha256 ctx now c₁ r' ↔ Blocked sha256 ctx now c r' :=
      fun r' hr' => hapart.blocked hgrown₁ hids hbs₁ (hne r' hr')
    have hdue : ∀ r' ∈ rs, c₁.dueQueue r' = c.dueQueue r' :=
      fun r' hr' => hgrown₁.dueQueue hids fun b hb => by rw [hbs₁ b hb]; exact hne r' hr'
    have hown : ∀ {bs₂}, (∀ b ∈ bs₂, b.readerId ∈ rs) →
        ((bs₁ ++ bs₂).filter (·.readerId = r)).flatMap (·.rows) = c.dueQueue r := by
      intro bs₂ hbs₂
      have hfirst : bs₁.filter (·.readerId = r) = bs₁ :=
        List.filter_eq_self.mpr fun b hb => decide_eq_true (hbs₁ b hb)
      have hsecond : bs₂.filter (·.readerId = r) = [] := by
        refine List.filter_eq_nil_iff.mpr fun b hb hb' => hr ?_
        rw [← of_decide_eq_true hb']
        exact hbs₂ b hb
      rw [List.filter_append, hfirst, hsecond, List.append_nil, hqueue]
    have hothers : ∀ {bs₂ : List Batch} {r'}, r' ∈ rs →
        ((bs₁ ++ bs₂).filter (·.readerId = r')).flatMap (·.rows) =
          (bs₂.filter (·.readerId = r')).flatMap (·.rows) := by
      intro bs₂ r' hr'
      have hnone : bs₁.filter (·.readerId = r') = [] := by
        refine List.filter_eq_nil_iff.mpr fun b hb hb' => hne r' hr' ?_
        rw [← of_decide_eq_true hb', hbs₁ b hb]
      rw [List.filter_append, hnone, List.nil_append]
    refine ((settleReaders_grown hrs' hc₁ hids₁ done₁).and (ih hrs' hc₁ hids₁ done₁)).mono ?_ ?_
    · rintro _ c₂ ⟨⟨bs₂, hbs₂, hqueues, hgrown₂, -⟩, hfree₂, -⟩
      refine ⟨?_, bs₁ ++ bs₂, hgrown₁.trans hgrown₂, ?_⟩
      · intro r' hr'
        rcases List.mem_cons.mp hr' with rfl | hr'
        · exact hfree
        · exact fun h => hfree₂ r' hr' ((hsame r' hr').mpr h)
      · intro r' hr'
        rcases List.mem_cons.mp hr' with rfl | hr'
        · exact hown hbs₂
        · rw [hothers hr', hqueues r' hr', hdue r' hr']
    · rintro _ c₂ ⟨-, pre, f, post, bs₂, hcut⟩
      have hsub : ∀ r' ∈ pre ++ [f], r' ∈ rs := by
        intro r' hr'
        rw [hcut.split]
        rcases List.mem_append.mp hr' with hr' | hr'
        · exact List.mem_append_left _ hr'
        · exact List.mem_append_right _ (List.mem_singleton.mp hr' ▸ List.mem_cons_self)
      have hpre : ∀ r' ∈ pre, r' ∈ rs := fun r' hr' => hsub r' (List.mem_append_left _ hr')
      have hf : f ∈ rs := hsub f (List.mem_append_right _ (List.mem_singleton.mpr rfl))
      refine ⟨r :: pre, f, post, bs₁ ++ bs₂, by rw [hcut.split]; rfl, ?_,
        (hsame f hf).mp hcut.failed, hgrown₁.trans hcut.grown, ?_, ?_⟩
      · intro r' hr'
        rcases List.mem_cons.mp hr' with rfl | hr'
        · exact hfree
        · exact fun h => hcut.before r' hr' ((hsame r' (hpre r' hr')).mpr h)
      · intro b hb
        rcases List.mem_append.mp hb with hb | hb
        · rw [hbs₁ b hb]
          exact List.mem_cons_self
        · exact List.mem_cons_of_mem _ (hcut.reached b hb)
      · intro r' hr'
        rcases List.mem_cons.mp hr' with rfl | hr'
        · exact hown fun b hb => hsub _ (hcut.reached b hb)
        · rw [hothers (hpre r' hr'), hcut.settled r' hr', hdue r' (hpre r' hr')]

end Readers

namespace State
variable (sha256 : String → String) (s : State) (ctx : Ctx)

/-- The readers in the order in which the database returns them. -/
def readers : List Id :=
  s.order ((s.world.db.emoney.filter fun e => decide e.Eligible).filterMap
    (·.emoneyReaderId)).dedup

/-- The lock has read the clock. -/
def ticked : World := if ctx.redis then s.world.readClock else s.world

/-- The instant for which a run makes its files. -/
def started : DateTime := ⟨(s.ticked ctx).now, jakartaOffset⟩

/-- What a run starts from with its first file. -/
def begun : Conn where
  state := { s with world := (s.ticked ctx).readClock }
  saved := s.world.db

/-- One of the reader's files cannot be made in a run that starts here. -/
def Blocks (r : Id) : Prop := Blocked sha256 ctx (s.started ctx) (s.begun ctx) r

end State

section Run
variable {sha256 : String → String} {ctx : Ctx} {s : State} {c' : Conn} {bs : List Batch} {r : Id}
  {e : EmoneyTransaction}

theorem ticked_db : (s.ticked ctx).db = s.world.db := by
  unfold State.ticked
  split <;> rfl

theorem lease_begun {c : Conn} :
    Prog.Ensures exec (lease ctx) c
      (fun _ c' => ∃ locks, c' = { c with
        state := { c.state with world := c.state.ticked ctx, locks } }) fun _ _ => False := by
  unfold lease State.ticked
  by_cases hctx : ctx.redis = true
  swap
  · rw [if_neg hctx, if_neg hctx]
    exact ⟨c.state.locks, rfl⟩
  rw [if_pos hctx, if_pos hctx, Prog.ensures_bind, ensures_ask]
  dsimp only [exec]
  rw [Prog.ensures_bind, ensures_ask]
  dsimp only [exec]
  split_ifs
  · exact ⟨c.state.locks, rfl⟩
  · exact ⟨c.state.locks, rfl⟩
  · exact ⟨_, rfl⟩

/-- Only the locks are not those of `begun`. -/
theorem begun_congr (sha256 : String → String) (locks : String → Option (Unit × Int)) {c : Conn}
    (hc : c = { s.begun ctx with state := { (s.begun ctx).state with locks } }) :
    Steady (s.begun ctx) c ∧ ∀ now r, Blocked sha256 ctx now c r ↔
      Blocked sha256 ctx now (s.begun ctx) r := by
  subst hc
  exact ⟨⟨rfl, rfl, rfl, rfl⟩, fun now r => blocked_congr rfl rfl rfl fun _ => rfl⟩

/-- A run that is not skipped settles every reader, or those before the first one that is blocked. -/
theorem generate_fate (sha256 : String → String) (ctx : Ctx)
    (hids : (s.world.db.emoney.map (·.id)).Nodup) (hdir : s.unwritable.contains settlementDir = false) :
    Prog.Ensures exec (generateSettlementFile sha256 ctx) s.session
      (fun o c' => o = .skippedLocked ∨ (∀ r ∈ s.readers, ¬ s.Blocks sha256 ctx r) ∧
        ∃ bs, Grown sha256 (s.begun ctx) c' bs ∧
          ∀ r ∈ s.readers, (bs.filter (·.readerId = r)).flatMap (·.rows) =
            (s.begun ctx).dueQueue r)
      fun _ c' => ∃ pre f post bs,
        Cut sha256 ctx (s.started ctx) (s.begun ctx) c' s.readers pre f post bs := by
  unfold generateSettlementFile
  refine lease_begun.bind (fun _ _ hf => hf.elim) ?_
  rintro acquired c₁ ⟨locks, hc₁⟩
  cases acquired with
  | false => exact Or.inl rfl
  | true =>
    simp only [Bool.not_true, Bool.false_eq_true, if_false]
    have hdb : c₁.state.world.db = s.world.db := by
      rw [hc₁]
      exact ticked_db
    have hmakedirs : exec .makedirs c₁ = (.ok (), c₁) := by
      have hplace : c₁.state.unwritable.contains settlementDir = false := by
        rw [hc₁]
        exact hdir
      simp only [exec, hplace, Bool.false_eq_true, if_false]
    have hreaders : exec .unsettledReaders c₁ = (.ok s.readers, c₁) := by
      simp only [exec, State.readers, hdb]
      rw [hc₁]
      rfl
    obtain ⟨c₂, hc₂⟩ : ∃ c₂, c₂ = { s.begun ctx with
      state := { (s.begun ctx).state with locks } } := ⟨_, rfl⟩
    have hnow : exec .now c₁ = (.ok (s.started ctx), c₂) := by
      rw [hc₁, hc₂]
      rfl
    obtain ⟨hsteady, hblocked⟩ := begun_congr sha256 locks hc₂
    have hgrown : ∀ {c' bs}, Grown sha256 c₂ c' bs → Grown sha256 (s.begun ctx) c' bs :=
      fun h => hsteady.grown.trans h
    have hready : c₂.Ready := hsteady.ready ticked_db
    have hids₂ : (c₂.saved.emoney.map (·.id)).Nodup := by
      rw [hsteady.saved]
      exact hids
    rw [Prog.ensures_bind, ensures_ask, hmakedirs]
    dsimp only
    rw [Prog.ensures_bind, ensures_ask, hreaders]
    dsimp only
    have hnodup : s.readers.Nodup := (s.order_perm _).nodup_iff.mpr (List.nodup_dedup _)
    generalize s.readers = rs at *
    cases rs with
    | nil =>
      refine Or.inr ⟨fun r hr => absurd hr List.not_mem_nil, [], ?_,
        fun r hr => absurd hr List.not_mem_nil⟩
      rw [hc₁]
      exact grown_nil rfl rfl (le_refl _)
    | cons r rs =>
      dsimp only
      rw [Prog.ensures_bind, ensures_ask, hnow]
      refine (settleReaders_fate hnodup hready hids₂ (0, 0)).bind ?_ ?_
      · rintro _ c₃ ⟨pre, f, post, bs, hcut⟩
        refine ⟨pre, f, post, bs, hcut.split, fun r hr => ?_, ?_, hgrown hcut.grown,
          hcut.reached, fun r hr => ?_⟩
        · rw [← hblocked]
          exact hcut.before r hr
        · rw [← hblocked]
          exact hcut.failed
        · rw [hcut.settled r hr, hsteady.dueQueue]
      · rintro _ c₃ ⟨hfree, bs, hbs, hqueues⟩
        refine Or.inr ⟨fun r hr h => hfree r hr ((hblocked _ _).mpr h), bs, hgrown hbs,
          fun r hr => ?_⟩
        rw [hqueues r hr, hsteady.dueQueue]

/-- A settled queue has no unlinked rows. -/
theorem linked_of_settled (hgrown : Grown sha256 (s.begun ctx) c' bs)
    (hids : (s.world.db.emoney.map (·.id)).Nodup) (hmem : e ∈ s.world.db.emoney)
    (hun : e.Unsettled) (hreader : e.emoneyReaderId = some r) (hnames : s.world.db.names r ≠ none)
    (hqueue : (bs.filter (·.readerId = r)).flatMap (·.rows) = (s.begun ctx).dueQueue r) :
    ∀ e' ∈ c'.saved.emoney, e'.id = e.id → e'.settlementBatchId ≠ none := by
  have hdue : e ∈ (s.begun ctx).dueQueue r := by
    have hall : (s.begun ctx).dueQueue r = (s.begun ctx).queue r := if_neg hnames
    rw [hall]
    exact (mem_queue hids).mpr ⟨hmem, hun, hreader⟩
  rw [← hqueue] at hdue
  obtain ⟨b, hb, he⟩ := List.mem_flatMap.mp hdue
  intro e' he' hid
  rw [hgrown.saved, settleAll_emoney] at he'
  obtain ⟨e₀, -, rfl⟩ := List.mem_map.mp he'
  rw [linkAll_id] at hid
  refine linkAll_linked (List.mem_of_mem_filter hb) ?_
  rw [hid]
  exact List.mem_map_of_mem he

/-- A reader that is not reached keeps its rows as they are. -/
theorem unlinked_of_unreached (hgrown : Grown sha256 (s.begun ctx) c' bs)
    (hids : (s.world.db.emoney.map (·.id)).Nodup) (hmem : e ∈ s.world.db.emoney)
    (hreader : e.emoneyReaderId = some r) (hbs : ∀ b ∈ bs, b.readerId ≠ r) :
    e ∈ c'.saved.emoney := by
  rw [hgrown.saved]
  refine mem_settleAll hmem fun b hb hid => ?_
  obtain ⟨e₀, he₀, hsame⟩ := List.mem_map.mp hid
  have hrow : e₀ = e := List.inj_on_of_nodup_map hids (hgrown.taken b hb e₀ he₀).1 hmem hsame
  have hb' := (hgrown.proper b hb).reader e₀ he₀
  rw [hrow, hreader] at hb'
  exact hbs b hb (Option.some.inj hb').symm

/-- Every row of a reader whose files can be made is settled. -/
def Isolated (sha256 : String → String) (ctx : Ctx) (s : State) : Prop :=
  ∀ e ∈ s.world.db.emoney, s.world.db.Due e →
    (∀ r ∈ e.emoneyReaderId, ¬ s.Blocks sha256 ctx r) →
    ∀ e' ∈ (generate sha256 ctx s).2.world.db.emoney, e'.id = e.id → e'.settlementBatchId ≠ none

/-- No reader that could be settled comes after one with a file that cannot be made. -/
def BlockedLast (sha256 : String → String) (ctx : Ctx) (s : State) : Prop :=
  s.readers.Pairwise fun f r =>
    s.Blocks sha256 ctx f → s.world.db.names r ≠ none → s.Blocks sha256 ctx r

theorem mem_readers : r ∈ s.readers ↔
    ∃ e ∈ s.world.db.emoney, e.Unsettled ∧ e.emoneyReaderId = some r := by
  unfold State.readers
  rw [(s.order_perm _).mem_iff, List.mem_dedup, List.mem_filterMap]
  constructor
  · rintro ⟨e, he, hr⟩
    obtain ⟨hmem, helig⟩ := List.mem_filter.mp he
    exact ⟨e, hmem, (of_decide_eq_true helig).1, hr⟩
  · rintro ⟨e, hmem, hun, hr⟩
    refine ⟨e, List.mem_filter.mpr ⟨hmem, decide_eq_true ⟨hun, ?_⟩⟩, hr⟩
    rw [hr]
    exact Option.some_ne_none _

/-- A failure stays with its reader exactly if no reader that could be settled comes later. -/
theorem isolated_iff (hids : (s.world.db.emoney.map (·.id)).Nodup)
    (hdir : s.unwritable.contains settlementDir = false)
    (hrun : (generate sha256 ctx s).1 ≠ .ok .skippedLocked) :
    Isolated sha256 ctx s ↔ BlockedLast sha256 ctx s := by
  have hfate := generate_fate sha256 ctx hids hdir
  have hnodup : s.readers.Nodup := (s.order_perm _).nodup_iff.mpr (List.nodup_dedup _)
  unfold Isolated BlockedLast
  unfold generate at hrun ⊢
  unfold Prog.Ensures State.session at hfate
  rcases hr : (generateSettlementFile sha256 ctx).run exec { state := s, saved := s.world.db }
    with ⟨x | o, c'⟩ <;> rw [hr] at hfate hrun <;> dsimp only at hfate hrun ⊢
  · obtain ⟨pre, f, post, bs, hcut⟩ := hfate
    rw [hcut.split] at hnodup
    obtain ⟨hpre, hpost, hdisj⟩ := List.nodup_append.mp hnodup
    constructor
    · intro hisolated
      have hlater : ∀ r ∈ post, s.world.db.names r ≠ none → s.Blocks sha256 ctx r := by
        intro r hr hnames
        by_contra hfree
        have hunreached : ∀ b ∈ bs, b.readerId ≠ r := by
          rintro b hb rfl
          rcases List.mem_append.mp (hcut.reached b hb) with hb' | hf
          · exact hdisj _ hb' _ (List.mem_cons_of_mem _ hr) rfl
          · rw [List.mem_singleton.mp hf] at hr
            exact (List.nodup_cons.mp hpost).1 hr
        obtain ⟨e, hmem, hun, hreader⟩ := mem_readers.mp (by
          rw [hcut.split]
          exact List.mem_append_right _ (List.mem_cons_of_mem _ hr))
        refine hisolated e hmem ⟨hun, r, hreader, hnames⟩ ?_ e
          (unlinked_of_unreached hcut.grown hids hmem hreader hunreached) rfl hun.1
        intro r' hr'
        rw [Option.mem_def, hreader] at hr'
        cases hr'
        exact hfree
      rw [hcut.split]
      refine List.pairwise_append.mpr ⟨?_, List.pairwise_cons.mpr ⟨?_, ?_⟩, ?_⟩
      · exact hpre.imp_of_mem fun ha _ _ hblocked => absurd hblocked (hcut.before _ ha)
      · exact fun r hr _ hnames => hlater r hr hnames
      · exact (List.nodup_cons.mp hpost).2.imp_of_mem fun _ hb _ _ hnames => hlater _ hb hnames
      · exact fun a ha b _ hblocked => absurd hblocked (hcut.before a ha)
    · intro hlast e hmem hdue hfree
      obtain ⟨hun, r, hreader, hnames⟩ := hdue
      have hr : r ∈ pre ++ f :: post := by
        rw [← hcut.split]
        exact mem_readers.mpr ⟨e, hmem, hun, hreader⟩
      rcases List.mem_append.mp hr with hr | hr
      · exact linked_of_settled hcut.grown hids hmem hun hreader hnames (hcut.settled r hr)
      · rw [hcut.split] at hlast
        obtain ⟨-, hlater, -⟩ := List.pairwise_append.mp hlast
        rcases List.mem_cons.mp hr with rfl | hr
        · exact absurd hcut.failed (hfree r hreader)
        · exact absurd ((List.pairwise_cons.mp hlater).1 r hr hcut.failed hnames) (hfree r hreader)
  · obtain ⟨hnone, bs, hgrown, hqueues⟩ := hfate.resolve_left fun h => hrun (h ▸ rfl)
    constructor
    · exact fun _ => hnodup.imp_of_mem fun ha _ _ hblocked => absurd hblocked (hnone _ ha)
    · intro _ e hmem ⟨hun, r, hreader, hnames⟩ _
      exact linked_of_settled hgrown hids hmem hun hreader hnames
        (hqueues r (mem_readers.mpr ⟨e, hmem, hun, hreader⟩))

theorem isolated_iff_night :
    Isolated id ⟨true⟩ nightDesk ↔ BlockedLast id ⟨true⟩ nightDesk := by
  have hrun : (generate id ⟨true⟩ nightDesk).1 = .ok (.success 1 2) := by decide
  exact isolated_iff (by decide) (by decide) (by rw [hrun]; exact fun h => nomatch h)

/-- A deduct of reader 4 was reported with a payload that is not ASCII. -/
def garbledDesk : State where
  world :=
    { db :=
        { emoney :=
            [{ id := 1, emoneyReaderId := some 4, cardNumber := "6013500100", amountDeducted := 6000
               status := .success, settlementPayloadHex := some "02é" },
             { id := 2, emoneyReaderId := some 5, cardNumber := "6013500200", amountDeducted := 4000
               status := .success, settlementPayloadHex := some "02cd" }]
          readers :=
            [{ id := 4, mid := some "1234", tid := some "56" },
             { id := 5, mid := some "1234", tid := some "57" }] }
      nextTx := 1
      nextEmoney := 3
      now := 0 }

/-- Neither this run nor the next one settles the other reader, whose file could be made. -/
theorem garbled_payload_blocks_others :
    ¬ Isolated id ⟨false⟩ garbledDesk ∧
    (let (r, s) := generate id ⟨false⟩ garbledDesk
     let (r', s') := generate id ⟨false⟩ s
     r = .error .unicode ∧ r' = .error .unicode ∧ s'.world.db = garbledDesk.world.db) := by
  have hruns : (generate id ⟨false⟩ garbledDesk).1 = .error .unicode ∧
      (generate id ⟨false⟩ garbledDesk).2.world.db = garbledDesk.world.db ∧
      (generate id ⟨false⟩ (generate id ⟨false⟩ garbledDesk).2).1 = .error .unicode ∧
      (generate id ⟨false⟩ (generate id ⟨false⟩ garbledDesk).2).2.world.db =
        garbledDesk.world.db := by decide
  obtain ⟨hfirst, hdb, hsecond, hdb'⟩ := hruns
  refine ⟨fun hisolated => ?_, hfirst, hsecond, hdb'⟩
  obtain ⟨e, he⟩ : ∃ e, garbledDesk.world.db.emoney[1]? = some e := ⟨_, rfl⟩
  have hmem := List.mem_of_getElem? he
  have hchunks : ∀ chunk k, (chunksOf ((garbledDesk.begun ⟨false⟩).dueQueue 5))[k]? = some chunk →
      chunk = [e] ∧ k = 0 := by
    have hqueue : chunksOf ((garbledDesk.begun ⟨false⟩).dueQueue 5) = [[e]] := by
      cases he
      decide
    intro chunk k hk
    rw [hqueue] at hk
    cases k with
    | zero => exact ⟨(Option.some.inj hk).symm, rfl⟩
    | succ k => exact nomatch hk
  have hfree : ¬ garbledDesk.Blocks id ⟨false⟩ 5 := by
    rintro ⟨mid, tid, hnames, k, chunk, hk, hnot⟩
    obtain ⟨rfl, rfl⟩ := hchunks chunk k hk
    have hboth : (garbledDesk.begun ⟨false⟩).saved.names 5 = some ("1234", "57") := by decide
    rw [hboth] at hnames
    cases hnames
    cases he
    exact hnot ⟨"0010000004000\n02CD\n", by decide⟩
  have hlinked := hisolated e hmem (by cases he; decide) (fun r hr => ?_) e (by rw [hdb]; exact hmem) rfl
  · cases he
    exact hlinked rfl
  · cases he
    cases hr
    exact hfree

end Run

end ParkIt.Settlement
