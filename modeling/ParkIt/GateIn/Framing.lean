import ParkIt.GateIn.Inventory
import ParkIt.Lib.Framing

/-! Which frames of the controller's stream are dispatched, whatever chunks they come in. -/
namespace ParkIt.GateIn

open Effects ByteString Framing

section Code

/-- `processRssBuffer` over any way to dispatch; `rest` is what stands behind the message. -/
def splitBuffer {m : Type → Type} [Monad m] (dispatch : (msg rest : Bytes) → m Unit) :
    Nat → Bytes → m Bytes
  | 0, buffer => pure buffer
  | n + 1, buffer =>
    if buffer.length < 2 then pure buffer
    else
      match nextFrame buffer with
      | .noStart => pure []
      | .unfinished => pure buffer
      | .frame msg rest => do
        dispatch msg rest
        splitBuffer dispatch n rest

theorem processRssBuffer_eq (cfg : Config) (n : Nat) (buffer : Bytes) :
    processRssBuffer cfg n buffer =
      splitBuffer (fun msg _ => do ask (.taken msg); dispatchRssMessage cfg msg) n buffer := by
  induction n generalizing buffer with
  | zero => rfl
  | succ n ih =>
    unfold processRssBuffer splitBuffer
    split
    · rfl
    · cases nextFrame buffer with
      | noStart => rfl
      | unfinished => rfl
      | frame msg rest =>
        dsimp only
        rw [ih]
        rfl

/-- A chunk of the listener, over any way to keep its buffer and to dispatch. -/
def receiveChunk {m : Type → Type} [Monad m] (buffer : m Bytes) (setBuffer : Bytes → m Unit)
    (dispatch : (msg rest : Bytes) → m Unit) (chunk : Bytes) : m Unit := do
  let buffer := (← buffer) ++ chunk
  setBuffer buffer
  let rest ← splitBuffer dispatch (buffer.length + 1) buffer
  setBuffer rest

theorem receiveChunk_eq (cfg : Config) (chunk : Bytes) :
    receiveChunk (ask .buffer) (fun buffer => ask (.setBuffer buffer))
      (fun msg _ => do ask (.taken msg); dispatchRssMessage cfg msg) chunk =
      (do
        let buffer := (← ask .buffer) ++ chunk
        ask (.setBuffer buffer)
        let rest ← processRssBuffer cfg (buffer.length + 1) buffer
        ask (.setBuffer rest)) := by
  unfold receiveChunk
  simp only [processRssBuffer_eq]

/-- The other branch of the listener's turn. -/
def reconnect : Work Unit := do
  ask .disconnect
  ask .connect
  if ← ask .connected then do
    setupRss
    ask (.setBreaker {})
    ask (.setReconnectDelay 1000)
  else do
    let delay ← ask .reconnectDelay
    ask (.sleep (.ms delay))
    ask (.setReconnectDelay (min (delay * 2) 30000))

/-- What the listener does with a chunk of a connection; it starts a new one with no buffer. -/
theorem rssListener_eq (cfg : Config) :
    rssListener cfg = attempt (do
      if ← ask .connected then do
        ask (.setReconnectDelay 1000)
        (← ask .recv).elim (Prog.raise .controller) fun chunk =>
          if chunk ≠ [] then
            receiveChunk (ask .buffer) (fun buffer => ask (.setBuffer buffer))
              (fun msg _ => do ask (.taken msg); dispatchRssMessage cfg msg) chunk
          else pure ()
      else do
        ask (.setBuffer [])
        reconnect) (ask (.sleep (.ms 1000))) := by
  refine congrArg (attempt · (ask (.sleep (.ms 1000)))) ?_
  refine congrArg (ask .connected >>= ·) (funext fun up => ?_)
  refine congrArg (fun p : Work Unit =>
    if up = true then p else (do ask (.setBuffer []); reconnect)) ?_
  refine congrArg (ask (.setReconnectDelay 1000) >>= ·) (funext fun _ => ?_)
  refine congrArg (ask .recv >>= ·) (funext fun got => ?_)
  cases got with
  | none => rfl
  | some chunk =>
    simp only [receiveChunk_eq]
    rfl

/-- The messages that were passed on, each with the number of bytes of the stream up to its end. -/
abbrev Dispatched := List (Nat × Bytes)

/-- The listener of one connection: the bytes received, the buffer and what was dispatched. -/
structure Listened where
  received : Nat := 0
  buffer : Bytes := []
  dispatched : Dispatched := []

abbrev Listening := ExceptT Unit (StateM Listened)

/-- Does the `n`-th dispatch raise? -/
abbrev Raises := Nat → Bool

def Listened.note (s : Listened) (f : Nat × Bytes) : Listened :=
  { s with dispatched := s.dispatched ++ [f] }

def dispatchNoted (raises : Raises) (msg rest : Bytes) : Listening Unit :=
  ExceptT.mk fun s =>
    (if raises s.dispatched.length then .error () else .ok (),
      s.note (s.received - rest.length, msg))

def keptBuffer : Listening Bytes := ExceptT.mk fun s => (.ok s.buffer, s)

def keepBuffer (buffer : Bytes) : Listening Unit :=
  ExceptT.mk fun s => (.ok (), { s with buffer })

/-- What a chunk makes of the listener; its loop catches an exception of a dispatch. -/
def receive (raises : Raises) (s : Listened) (chunk : Bytes) : Listened :=
  if chunk = [] then s
  else
    ((receiveChunk keptBuffer keepBuffer (dispatchNoted raises) chunk).run
      { s with received := s.received + chunk.length }).2

def listen (raises : Raises) (chunks : List Bytes) : Listened := chunks.foldl (receive raises) {}

end Code

section Split
variable {raises : Raises} {received n : Nat} {buffer msg rest : Bytes} {dispatched : Dispatched}
  {s : Listened}

theorem span_noise {x : UInt8} {p : Bytes} (h : x ∉ p) (q : Bytes) :
    (p ++ x :: q).takeWhile (· ≠ x) = p ∧ (p ++ x :: q).dropWhile (· ≠ x) = x :: q := by
  have hall : ∀ y ∈ p, decide (y ≠ x) = true := by
    intro y hy
    exact decide_eq_true fun heq => h (heq ▸ hy)
  rw [List.takeWhile_append_of_pos hall, List.dropWhile_append_of_pos hall]
  simp

theorem nextFrame_cases (buffer : Bytes) :
    (nextFrame buffer = .noStart ∧ frameStart ∉ buffer) ∨
    (nextFrame buffer = .unfinished ∧ ¬ Complete frameStart frameEnd buffer) ∨
    ∃ noise body rest, frameStart ∉ noise ∧ frameEnd ∉ body ∧
      buffer = noise ++ frameStart :: (body ++ frameEnd :: rest) ∧
      nextFrame buffer = .frame (frameStart :: (body ++ [frameEnd])) rest := by
  by_cases hstart : frameStart ∈ buffer
  · obtain ⟨noise, tail, rfl, hn⟩ := List.eq_append_cons_of_mem hstart
    rw [nextFrame, (span_noise hn tail).2]
    dsimp only
    by_cases hend : frameEnd ∈ tail
    · obtain ⟨body, rest, rfl, hb⟩ := List.eq_append_cons_of_mem hend
      refine Or.inr (Or.inr ⟨noise, body, rest, hn, hb, rfl, ?_⟩)
      rw [if_pos (by simp), (span_noise hb rest).1, (span_noise hb rest).2]
      rfl
    · refine Or.inr (Or.inl ⟨by rw [if_neg (by simpa using hend)], ?_⟩)
      intro hc
      obtain ⟨noise', body, rest, hn', -, heq⟩ := first_frame hc
      obtain ⟨-, rfl⟩ := split_unique hn hn' heq
      exact hend (by simp)
  · refine Or.inl ⟨?_, hstart⟩
    have hnone : buffer.dropWhile (· ≠ frameStart) = [] := by
      refine List.dropWhile_eq_nil_iff.mpr ?_
      intro y hy
      exact decide_eq_true fun heq => hstart (heq ▸ hy)
    rw [nextFrame, hnone]

theorem run_ok {α β : Type} {x : Listening α} {f : α → Listening β} {a : α}
    {s s' : Listened} (h : x.run s = (.ok a, s')) : (x >>= f).run s = (f a).run s' := by
  change (fun r : Except Unit α × Listened => (ExceptT.bindCont f r.1) r.2) (x.run s) = _
  rw [h]
  rfl

theorem run_error {α β : Type} {x : Listening α} {f : α → Listening β} {s s' : Listened}
    (h : x.run s = (.error (), s')) : (x >>= f).run s = (.error (), s') := by
  change (fun r : Except Unit α × Listened => (ExceptT.bindCont f r.1) r.2) (x.run s) = _
  rw [h]
  rfl

/-- The splitter at a frame. -/
theorem run_frame (hlen : ¬ buffer.length < 2) (hcut : nextFrame buffer = .frame msg rest) :
    (splitBuffer (dispatchNoted raises) (n + 1) buffer).run s =
      if raises s.dispatched.length then (.error (), s.note (s.received - rest.length, msg))
      else (splitBuffer (dispatchNoted raises) n rest).run
        (s.note (s.received - rest.length, msg)) := by
  have hsplit : splitBuffer (dispatchNoted raises) (n + 1) buffer =
      (do
        dispatchNoted raises msg rest
        splitBuffer (dispatchNoted raises) n rest) := by
    rw [splitBuffer, if_neg hlen, hcut]
  have hrun : (dispatchNoted raises msg rest).run s =
      (if raises s.dispatched.length then .error () else .ok (),
        s.note (s.received - rest.length, msg)) := rfl
  rw [hsplit]
  cases hraises : raises s.dispatched.length with
  | true =>
    rw [hraises] at hrun
    exact run_error hrun
  | false =>
    rw [hraises] at hrun
    exact run_ok hrun

abbrev scanFrom (read : Nat) (frames : Dispatched) (b : Bytes) : Scan UInt8 :=
  (⟨none, read, frames⟩ : Scan UInt8).steps frameStart frameEnd b

/-- The splitter of a buffer whose frames are `gs`: it dispatches them all and keeps an unfinished
end, or it stops at the first dispatch that raises. -/
inductive Splits (raises : Raises) (received : Nat) (buffer : Bytes) (dispatched gs : Dispatched) :
    Except Unit Bytes × Dispatched → Prop where
  | done {rest : Bytes} : rest <:+ buffer → ¬ Complete frameStart frameEnd rest →
      scanFrom (received - rest.length) (dispatched ++ gs) rest =
        scanFrom (received - buffer.length) dispatched buffer →
      (∀ i < gs.length, raises (dispatched.length + i) = false) →
      Splits raises received buffer dispatched gs (.ok rest, dispatched ++ gs)
  | raised {i : Nat} : i < gs.length → raises (dispatched.length + i) = true →
      (∀ j < i, raises (dispatched.length + j) = false) →
      Splits raises received buffer dispatched gs (.error (), dispatched ++ gs.take (i + 1))

theorem not_complete_short {b : Bytes} (h : b.length < 2) :
    ¬ Complete frameStart frameEnd b := by
  rintro ⟨p, q, r, rfl⟩
  simp at h
  omega

/-- Nothing to dispatch. -/
theorem splits_rest (h : ¬ Complete frameStart frameEnd buffer) :
    Splits raises received buffer dispatched [] (.ok buffer, dispatched) := by
  have hdone : Splits raises received buffer dispatched [] (.ok buffer, dispatched ++ []) :=
    .done (List.suffix_refl _) h (by rw [List.append_nil]) fun i hi => absurd hi (Nat.not_lt_zero i)
  rwa [List.append_nil] at hdone

theorem splits_noise (h : frameStart ∉ buffer) (hlen : buffer.length ≤ received) :
    Splits raises received buffer dispatched [] (.ok [], dispatched) := by
  have hscan : scanFrom (received - ([] : Bytes).length) (dispatched ++ []) [] =
      scanFrom (received - buffer.length) dispatched buffer := by
    rw [scanFrom, scanFrom, Scan.steps_noise h, List.append_nil, Nat.sub_add_cancel hlen]
    rfl
  have hdone : Splits raises received buffer dispatched [] (.ok [], dispatched ++ []) :=
    .done (List.nil_suffix) (not_complete_short (by simp)) hscan
      fun i hi => absurd hi (Nat.not_lt_zero i)
  rwa [List.append_nil] at hdone

theorem Splits.cons {f : Nat × Bytes} {gs : Dispatched} {out : Except Unit Bytes × Dispatched}
    (hgs : Splits raises received rest (dispatched ++ [f]) gs out) (hsuffix : rest <:+ buffer)
    (hscan : scanFrom (received - buffer.length) dispatched buffer =
      scanFrom (received - rest.length) (dispatched ++ [f]) rest)
    (h : raises dispatched.length = false) :
    Splits raises received buffer dispatched (f :: gs) out := by
  have hindex (i : Nat) : raises (dispatched.length + (i + 1)) =
      raises ((dispatched ++ [f]).length + i) := by
    rw [List.length_append, List.length_singleton, Nat.add_assoc, Nat.add_comm 1]
  cases hgs with
  | @done kept hkept hc hkeep hquiet =>
    rw [List.append_assoc, List.singleton_append]
    refine .done (hkept.trans hsuffix) hc ?_ ?_
    · rw [hscan, ← hkeep, List.append_assoc, List.singleton_append]
    · rintro (- | i) hi
      · exact h
      · rw [hindex]
        exact hquiet i (Nat.lt_of_succ_lt_succ hi)
  | @raised i hi hraise hquiet =>
    rw [List.append_assoc, List.singleton_append, ← List.take_succ_cons]
    refine .raised (Nat.succ_lt_succ hi) (by rw [hindex, hraise]) ?_
    rintro (- | j) hj
    · exact h
    · rw [hindex]
      exact hquiet j (Nat.lt_of_succ_lt_succ hj)

theorem splits_splitBuffer (hlen : buffer.length ≤ s.received) (hn : buffer.length < n) :
    ∃ gs out,
      (scanFrom (s.received - buffer.length) s.dispatched buffer).frames = s.dispatched ++ gs ∧
      Splits raises s.received buffer s.dispatched gs out ∧
      (splitBuffer (dispatchNoted raises) n buffer).run s =
        (out.1, { s with dispatched := out.2 }) := by
  induction n generalizing buffer s with
  | zero => exact absurd hn (Nat.not_lt_zero _)
  | succ n ih =>
    by_cases hshort : buffer.length < 2
    · have hc := not_complete_short hshort
      refine ⟨[], _, by rw [frames_incomplete hc, List.append_nil], splits_rest hc, ?_⟩
      rw [splitBuffer, if_pos hshort]
      rfl
    obtain ⟨hcut, hstart⟩ | ⟨hcut, hc⟩ | ⟨noise, body, rest, hno, hb, hbuffer, hcut⟩ :=
      nextFrame_cases buffer
    · have hframes : (scanFrom (s.received - buffer.length) s.dispatched buffer).frames =
          s.dispatched ++ [] := by
        rw [scanFrom, Scan.steps_noise hstart, List.append_nil]
      refine ⟨[], _, hframes, splits_noise hstart hlen, ?_⟩
      rw [splitBuffer, if_neg hshort, hcut]
      rfl
    · refine ⟨[], _, by rw [frames_incomplete hc, List.append_nil], splits_rest hc, ?_⟩
      rw [splitBuffer, if_neg hshort, hcut]
      rfl
    · have hsplit : buffer = (noise ++ frameStart :: (body ++ [frameEnd])) ++ rest := by
        rw [hbuffer]
        simp
      have hsum : buffer.length =
          (noise ++ frameStart :: (body ++ [frameEnd])).length + rest.length := by
        rw [hsplit, List.length_append]
      have hpos : 2 ≤ (noise ++ frameStart :: (body ++ [frameEnd])).length := by
        simp
        omega
      have hread : s.received - buffer.length +
          (noise ++ frameStart :: (body ++ [frameEnd])).length = s.received - rest.length := by omega
      obtain ⟨f, hf⟩ : ∃ f, f =
        (s.received - rest.length, frameStart :: (body ++ [frameEnd])) := ⟨_, rfl⟩
      have hscan : scanFrom (s.received - buffer.length) s.dispatched buffer =
          scanFrom (s.received - rest.length) (s.dispatched ++ [f]) rest := by
        conv_lhs => rw [scanFrom, hsplit]
        rw [Scan.steps_append, ← hsplit, Scan.steps_frame hno hb, hread, hf]
      rw [run_frame hshort hcut, ← hf]
      have hlenrest : rest.length ≤ (s.note f).received := by
        change rest.length ≤ s.received
        omega
      have hnrest : rest.length < n := by omega
      obtain ⟨gs, out, hframes, hgs, hrun⟩ := ih hlenrest hnrest
      have hall : (scanFrom (s.received - buffer.length) s.dispatched buffer).frames =
          s.dispatched ++ f :: gs := by
        rw [hscan]
        exact hframes.trans (by rw [Listened.note, List.append_assoc]; rfl)
      cases hraises : raises s.dispatched.length with
      | true =>
        have hfirst : Splits raises s.received buffer s.dispatched (f :: gs)
            (.error (), s.dispatched ++ (f :: gs).take (0 + 1)) :=
          .raised (Nat.succ_pos _) hraises fun j hj => absurd hj (Nat.not_lt_zero j)
        exact ⟨f :: gs, _, hall, hfirst, rfl⟩
      | false => exact ⟨f :: gs, out, hall, Splits.cons hgs ⟨_, hsplit.symm⟩ hscan hraises, hrun⟩

end Split

section Chunks
variable {raises : Raises} {s : Listened} {w chunk : Bytes}

abbrev scanRss (w : Bytes) : Scan UInt8 := scan frameStart frameEnd w

/-- Everything of the stream `w` is dispatched but an unfinished end, which is kept. -/
structure Kept (w : Bytes) (s : Listened) : Prop where
  received : s.received = w.length
  suffix : s.buffer <:+ w
  incomplete : ¬ Complete frameStart frameEnd s.buffer
  scan : scanFrom (w.length - s.buffer.length) s.dispatched s.buffer = scanRss w

theorem Kept.dispatched (h : Kept w s) : s.dispatched = (scanRss w).frames := by
  rw [← h.scan, frames_incomplete h.incomplete]

theorem kept_empty : Kept [] {} where
  received := rfl
  suffix := List.suffix_refl _
  incomplete := not_complete_short (by simp)
  scan := rfl

/-- The buffer and a chunk are the stream's end, and what is dispatched stands before it. -/
theorem Kept.extend (h : Kept w s) (chunk : Bytes) :
    (s.buffer ++ chunk).length ≤ s.received + chunk.length ∧
    scanFrom (s.received + chunk.length - (s.buffer ++ chunk).length) s.dispatched
      (s.buffer ++ chunk) = scanRss (w ++ chunk) := by
  have hle := h.suffix.length_le
  have hread : s.received + chunk.length - (s.buffer ++ chunk).length =
      w.length - s.buffer.length := by
    rw [h.received, List.length_append]
    omega
  constructor
  · rw [h.received, List.length_append]
    omega
  · rw [hread, scanFrom, Scan.steps_append, scanRss, scan_append]
    exact congrArg (·.steps frameStart frameEnd chunk) h.scan

/-- A chunk that is not empty, in any state. -/
theorem receive_cases (raises : Raises) (hlen : s.buffer.length ≤ s.received) (hchunk : chunk ≠ []) :
    ∃ gs, (scanFrom (s.received + chunk.length - (s.buffer ++ chunk).length) s.dispatched
        (s.buffer ++ chunk)).frames = s.dispatched ++ gs ∧
      ((∃ rest, rest <:+ s.buffer ++ chunk ∧ ¬ Complete frameStart frameEnd rest ∧
        scanFrom (s.received + chunk.length - rest.length) (s.dispatched ++ gs) rest =
          scanFrom (s.received + chunk.length - (s.buffer ++ chunk).length) s.dispatched
            (s.buffer ++ chunk) ∧
        (∀ i < gs.length, raises (s.dispatched.length + i) = false) ∧
        receive raises s chunk = ⟨s.received + chunk.length, rest, s.dispatched ++ gs⟩) ∨
      ∃ i < gs.length, raises (s.dispatched.length + i) = true ∧
        (∀ j < i, raises (s.dispatched.length + j) = false) ∧
        receive raises s chunk =
          ⟨s.received + chunk.length, s.buffer ++ chunk, s.dispatched ++ gs.take (i + 1)⟩) := by
  obtain ⟨t, ht⟩ : ∃ t : Listened, t =
    ⟨s.received + chunk.length, s.buffer ++ chunk, s.dispatched⟩ := ⟨_, rfl⟩
  have hle : (s.buffer ++ chunk).length ≤ t.received := by
    rw [ht, List.length_append]
    dsimp only
    omega
  obtain ⟨gs, out, hframes, hgs, hrun⟩ := splits_splitBuffer hle (Nat.lt_succ_self _)
  have hreceive : receive raises s chunk =
      ((splitBuffer (dispatchNoted raises) ((s.buffer ++ chunk).length + 1) (s.buffer ++ chunk) >>=
        keepBuffer).run t).2 := by
    rw [receive, if_neg hchunk, ht]
    rfl
  rw [ht] at hframes hgs hrun
  refine ⟨gs, hframes, ?_⟩
  rw [ht] at hreceive
  cases hgs with
  | done hsuffix hc hscan hquiet =>
    rw [run_ok hrun] at hreceive
    exact Or.inl ⟨_, hsuffix, hc, hscan, hquiet, hreceive⟩
  | raised hi hraise hquiet =>
    rw [run_error hrun] at hreceive
    exact Or.inr ⟨_, hi, hraise, hquiet, hreceive⟩

theorem Kept.next (raises : Raises) (h : Kept w s) (chunk : Bytes) :
    ∃ gs, (scanRss (w ++ chunk)).frames = s.dispatched ++ gs ∧
      ((Kept (w ++ chunk) (receive raises s chunk) ∧
        ∀ i < gs.length, raises (s.dispatched.length + i) = false) ∨
      ∃ i < gs.length, raises (s.dispatched.length + i) = true ∧
        (∀ j < i, raises (s.dispatched.length + j) = false) ∧ chunk ≠ [] ∧
        receive raises s chunk =
          ⟨s.received + chunk.length, s.buffer ++ chunk, s.dispatched ++ gs.take (i + 1)⟩) := by
  by_cases hchunk : chunk = []
  · subst hchunk
    rw [List.append_nil]
    refine ⟨[], by rw [List.append_nil, h.dispatched], Or.inl ⟨h, ?_⟩⟩
    intro i hi
    exact absurd hi (Nat.not_lt_zero i)
  · obtain ⟨-, hscan⟩ := h.extend chunk
    have hlen : s.buffer.length ≤ s.received := h.received ▸ h.suffix.length_le
    obtain ⟨gs, hframes, ⟨rest, hsuffix, hc, hrest, hquiet, hout⟩ | ⟨i, hi, hraise, hquiet, hout⟩⟩ :=
      receive_cases raises hlen hchunk
    · rw [hscan] at hframes hrest
      refine ⟨gs, hframes, Or.inl ⟨?_, hquiet⟩⟩
      rw [hout]
      constructor
      · rw [h.received, List.length_append]
      · obtain ⟨p, rfl⟩ := h.suffix
        rw [List.append_assoc]
        exact hsuffix.trans (List.suffix_append p _)
      · exact hc
      · rw [List.length_append, ← h.received]
        exact hrest
    · rw [hscan] at hframes
      exact ⟨gs, hframes, Or.inr ⟨i, hi, hraise, hquiet, hchunk, hout⟩⟩

theorem listen_append (chunks : List Bytes) (chunk : Bytes) :
    listen raises (chunks ++ [chunk]) = receive raises (listen raises chunks) chunk := by
  rw [listen, List.foldl_append]
  rfl

theorem flatten_concat (chunks : List Bytes) (chunk : Bytes) :
    (chunks ++ [chunk]).flatten = chunks.flatten ++ chunk := by simp

/-- The buffer stems from the stream, and what was dispatched stays so. -/
theorem receive_grows (raises : Raises) (hlen : s.buffer.length ≤ s.received) (chunk : Bytes) :
    (receive raises s chunk).buffer.length ≤ (receive raises s chunk).received ∧
    s.dispatched <+: (receive raises s chunk).dispatched := by
  by_cases hchunk : chunk = []
  · subst hchunk
    exact ⟨hlen, List.prefix_refl _⟩
  · obtain ⟨gs, -, ⟨rest, hsuffix, -, -, -, hout⟩ | ⟨i, -, -, -, hout⟩⟩ :=
      receive_cases raises hlen hchunk
    · have hle := hsuffix.length_le
      rw [List.length_append] at hle
      rw [hout]
      refine ⟨?_, List.prefix_append _ _⟩
      dsimp only
      omega
    · rw [hout]
      refine ⟨?_, List.prefix_append _ _⟩
      simp only [List.length_append]
      omega

theorem listen_buffer (raises : Raises) (chunks : List Bytes) :
    (listen raises chunks).buffer.length ≤ (listen raises chunks).received := by
  induction chunks using List.reverseRecOn with
  | nil => exact Nat.le_refl _
  | append_singleton chunks chunk ih =>
    rw [listen_append]
    exact (receive_grows raises ih chunk).1

theorem kept_listen (chunks : List Bytes)
    (h : ∀ n < (listen raises chunks).dispatched.length, raises n = false) :
    Kept chunks.flatten (listen raises chunks) := by
  induction chunks using List.reverseRecOn with
  | nil => exact kept_empty
  | append_singleton chunks chunk ih =>
    rw [listen_append] at h ⊢
    rw [flatten_concat]
    have hgrows := (receive_grows raises (listen_buffer raises chunks) chunk).2.length_le
    have hkept := ih fun n hn => h n (by omega)
    obtain ⟨gs, -, ⟨hnew, -⟩ | ⟨i, hi, hraise, -, -, hout⟩⟩ := hkept.next raises chunk
    · exact hnew
    · rw [hout] at h
      have hfalse := h ((listen raises chunks).dispatched.length + i) (by simp; omega)
      rw [hraise] at hfalse
      cases hfalse

/-- While no dispatch raises, the messages dispatched are the frames of the stream from left to
right, whatever its chunks are, and the buffer is an end of it without a complete frame. -/
theorem dispatched_decomposition (chunks : List Bytes)
    (h : ∀ n < (listen raises chunks).dispatched.length, raises n = false) :
    Decomposes frameStart frameEnd chunks.flatten
      ((listen raises chunks).dispatched.map Prod.snd) ∧
    ((listen raises chunks).dispatched.map Prod.fst).Pairwise (· < ·) ∧
    (listen raises chunks).buffer <:+ chunks.flatten ∧
    ¬ Complete frameStart frameEnd (listen raises chunks).buffer ∧
    ∀ chunks' : List Bytes, chunks'.flatten = chunks.flatten →
      (∀ n < (listen raises chunks').dispatched.length, raises n = false) →
      (listen raises chunks').dispatched = (listen raises chunks).dispatched := by
  have hkept := kept_listen chunks h
  refine ⟨?_, ?_, hkept.suffix, hkept.incomplete, ?_⟩
  · rw [decomposes_iff, hkept.dispatched]
  · rw [hkept.dispatched]
    exact scan_sorted _
  · intro chunks' hflat h'
    rw [hkept.dispatched, (kept_listen chunks' h').dispatched, hflat]

/-- A frame in two pieces, with noise before it and another frame behind. -/
theorem dispatched_decomposition_pieces :
    (listen (fun _ => false) [[0x00, 0xA6, 0x49], [0x4E, 0xA9, 0xA6, 0x4F, 0xA9]]).dispatched =
      [(5, [0xA6, 0x49, 0x4E, 0xA9]), (8, [0xA6, 0x4F, 0xA9])] ∧
    Decomposes frameStart frameEnd [0x00, 0xA6, 0x49, 0x4E, 0xA9, 0xA6, 0x4F, 0xA9]
      [[0xA6, 0x49, 0x4E, 0xA9], [0xA6, 0x4F, 0xA9]] :=
  ⟨by decide, (@dispatched_decomposition (fun _ => false)
    [[0x00, 0xA6, 0x49], [0x4E, 0xA9, 0xA6, 0x4F, 0xA9]] fun _ _ => rfl).1⟩

end Chunks

section Failures
variable {raises : Raises} {s : Listened} {chunks : List Bytes}

/-- Where the listener stands with the first dispatches: none of them raised; or one did, and no
byte came since; or bytes came after it, and its buffer was taken apart once more. -/
inductive Stands (raises : Raises) (chunks : List Bytes) (s : Listened) : Prop where
  | kept : Kept chunks.flatten s → (∀ n < s.dispatched.length, raises n = false) →
      Stands raises chunks s
  | stopped {before after : List Bytes} {chunk : Bytes} {gs : Dispatched} {i : Nat} :
      chunks = before ++ chunk :: after → after.flatten = [] →
      (scanRss chunks.flatten).frames = (scanRss before.flatten).frames ++ gs → i < gs.length →
      raises ((scanRss before.flatten).frames.length + i) = true →
      (∀ n < (scanRss before.flatten).frames.length + i, raises n = false) →
      s.dispatched = (scanRss before.flatten).frames ++ gs.take (i + 1) →
      s.buffer.length ≤ s.received →
      (scanFrom (s.received - s.buffer.length) [] s.buffer).frames = gs → Stands raises chunks s
  | replayed {before after : List Bytes} {chunk : Bytes} {n : Nat} :
      chunks = before ++ chunk :: after → after.flatten ≠ [] →
      n < (scanRss (before ++ [chunk]).flatten).frames.length → raises n = true →
      ¬ s.dispatched.Nodup → Stands raises chunks s

/-- What is found in a buffer does not depend on what was found before. -/
theorem frames_scanFrom (k : Nat) (fs : Dispatched) (b : Bytes) :
    (scanFrom k fs b).frames = fs ++ (scanFrom k [] b).frames := by
  have hprior := Scan.steps_frames frameStart frameEnd (⟨none, k, []⟩ : Scan UInt8) fs b
  rw [List.append_nil] at hprior
  exact congrArg Scan.frames hprior

theorem Kept.stands (h : Kept chunks.flatten s) (hquiet : ∀ n < s.dispatched.length, raises n = false)
    (chunk : Bytes) : Stands raises (chunks ++ [chunk]) (receive raises s chunk) := by
  obtain ⟨gs, hframes, ⟨hkept, hnew⟩ | ⟨i, hi, hraise, hbefore, hchunk, hout⟩⟩ :=
    h.next raises chunk
  · rw [← flatten_concat] at hkept hframes
    refine .kept hkept ?_
    intro n hn
    rw [hkept.dispatched, hframes, List.length_append] at hn
    by_cases hold : n < s.dispatched.length
    · exact hquiet n hold
    · have hindex := hnew (n - s.dispatched.length) (by omega)
      rwa [Nat.add_sub_cancel' (Nat.le_of_not_lt hold)] at hindex
  · have hd := h.dispatched
    have hlen : s.buffer.length ≤ s.received := h.received ▸ h.suffix.length_le
    obtain ⟨hle, hscan⟩ := h.extend chunk
    rw [← flatten_concat] at hframes hscan
    have hbuffer : s.dispatched ++ (scanFrom (s.received + chunk.length - (s.buffer ++ chunk).length)
        [] (s.buffer ++ chunk)).frames = s.dispatched ++ gs := by
      rw [← frames_scanFrom, hscan, hframes]
    rw [hd] at hraise hframes hbefore
    refine .stopped rfl rfl hframes hi hraise ?_ (by rw [hout, hd]) (by rw [hout]; exact hle)
      (by rw [hout]; exact List.append_cancel_left hbuffer)
    intro n hn
    by_cases hold : n < (scanRss chunks.flatten).frames.length
    · exact hquiet n (hd ▸ hold)
    · have hindex := hbefore (n - (scanRss chunks.flatten).frames.length) (by omega)
      rwa [Nat.add_sub_cancel' (Nat.le_of_not_lt hold)] at hindex

/-- A frame that was left in the buffer is dispatched again by the next bytes. -/
theorem receive_again {fs gs : Dispatched} {i : Nat} {chunk : Bytes}
    (hlen : s.buffer.length ≤ s.received) (hchunk : chunk ≠ []) (hi : i < gs.length)
    (hdispatched : s.dispatched = fs ++ gs.take (i + 1))
    (hbuffer : (scanFrom (s.received - s.buffer.length) [] s.buffer).frames = gs) :
    ¬ (receive raises s chunk).dispatched.Nodup := by
  obtain ⟨f, hs, rfl⟩ : ∃ f hs, gs = f :: hs := by
    rcases gs with - | ⟨f, hs⟩
    · exact absurd hi (Nat.not_lt_zero i)
    · exact ⟨f, hs, rfl⟩
  have hread : s.received + chunk.length - (s.buffer ++ chunk).length =
      s.received - s.buffer.length := by
    rw [List.length_append]
    omega
  obtain ⟨gs, hframes, hout⟩ := receive_cases raises hlen hchunk
  have hnew : (scanFrom (s.received - s.buffer.length) [] (s.buffer ++ chunk)).frames = gs := by
    rw [frames_scanFrom, hread] at hframes
    exact List.append_cancel_left hframes
  obtain ⟨more, rfl⟩ : ∃ more, gs = f :: more := by
    have hgrows := Scan.frames_grow frameStart frameEnd
      (scanFrom (s.received - s.buffer.length) [] s.buffer) chunk
    rw [← Scan.steps_append, hnew, hbuffer] at hgrows
    obtain ⟨more, hmore⟩ := hgrows
    exact ⟨hs ++ more, hmore.symm⟩
  have hold : f ∈ s.dispatched := by
    rw [hdispatched]
    simp
  have hagain : ∃ rest, (receive raises s chunk).dispatched = s.dispatched ++ f :: rest := by
    obtain ⟨rest, -, -, -, -, hout⟩ | ⟨j, -, -, -, hout⟩ := hout
    · exact ⟨more, by rw [hout]⟩
    · exact ⟨more.take j, by rw [hout, List.take_succ_cons]⟩
  obtain ⟨rest, hrest⟩ := hagain
  rw [hrest]
  intro hnodup
  exact (List.disjoint_of_nodup_append hnodup) hold List.mem_cons_self

theorem stands_receive (h : Stands raises chunks s) (hlen : s.buffer.length ≤ s.received)
    (chunk : Bytes) : Stands raises (chunks ++ [chunk]) (receive raises s chunk) := by
  cases h with
  | kept h hquiet => exact h.stands hquiet chunk
  | @stopped before after failing gs i hchunks hafter hframes hi hraise hquiet hdispatched hbuf
      hbuffer =>
    have hlonger : chunks ++ [chunk] = before ++ failing :: (after ++ [chunk]) := by
      rw [hchunks]
      simp
    by_cases hchunk : chunk = []
    · subst hchunk
      refine .stopped hlonger (by simp [hafter]) ?_ hi hraise hquiet hdispatched hbuf hbuffer
      rw [flatten_concat, List.append_nil]
      exact hframes
    · have hflat : (before ++ [failing]).flatten = chunks.flatten := by
        rw [hchunks]
        simp [hafter]
      refine .replayed hlonger (by simp [hafter, hchunk]) ?_ hraise
        (receive_again hlen hchunk hi hdispatched hbuffer)
      rw [hflat, hframes, List.length_append]
      omega
  | @replayed before after failing n hchunks hafter hn hraise hdup =>
    have hlonger : chunks ++ [chunk] = before ++ failing :: (after ++ [chunk]) := by
      rw [hchunks]
      simp
    refine .replayed hlonger ?_ hn hraise ?_
    · intro hnil
      rw [flatten_concat] at hnil
      exact hafter (List.append_eq_nil_iff.mp hnil).1
    · intro hnodup
      exact hdup (hnodup.sublist (receive_grows raises hlen chunk).2.sublist)

theorem stands_listen (raises : Raises) (chunks : List Bytes) :
    Stands raises chunks (listen raises chunks) := by
  induction chunks using List.reverseRecOn with
  | nil => exact .kept kept_empty fun n hn => absurd hn (Nat.not_lt_zero n)
  | append_singleton chunks chunk ih =>
    rw [listen_append]
    exact stands_receive ih (listen_buffer raises chunks) chunk

theorem scanRss_grows {before after : List Bytes} (h : chunks = before ++ after) :
    (scanRss before.flatten).frames <+: (scanRss chunks.flatten).frames := by
  rw [h, List.flatten_append, scanRss, scanRss, scan_append]
  exact Scan.frames_grow frameStart frameEnd _ _

/-- Every frame of the stream is dispatched exactly once and in its order, unless a dispatch raises:
the listener forgets which frames of its buffer it has dispatched, so that the frames behind wait
for more bytes, which replay the earlier ones. The last frame may fail if nothing follows. -/
theorem dispatched_once_iff (raises : Raises) (chunks : List Bytes) :
    (listen raises chunks).dispatched = (scanRss chunks.flatten).frames ↔
    ∀ n < (scanRss chunks.flatten).frames.length, raises n = true →
      n + 1 = (scanRss chunks.flatten).frames.length ∧
      ∀ before after, chunks = before ++ after →
        (scanRss before.flatten).frames = (scanRss chunks.flatten).frames →
        after.flatten = [] := by
  have hstands := stands_listen raises chunks
  constructor
  · intro honce n hn hraise
    cases hstands with
    | kept h hquiet =>
      rw [← honce] at hn
      rw [hquiet n hn] at hraise
      cases hraise
    | @stopped before after failing gs i hchunks hafter hframes hi _ hquiet hdispatched _ _ =>
      have htake : gs.take (i + 1) = gs := by
        rw [honce, hframes] at hdispatched
        exact (List.append_cancel_left hdispatched).symm
      have hlast : gs.length ≤ i + 1 := List.take_eq_self_iff _ |>.mp htake
      have hge : (scanRss before.flatten).frames.length + i ≤ n := by
        by_contra hlt
        rw [hquiet n (Nat.lt_of_not_le hlt)] at hraise
        cases hraise
      rw [hframes, List.length_append] at hn ⊢
      refine ⟨by omega, ?_⟩
      intro pre post hsplit hpre
      rw [hchunks] at hsplit
      obtain ⟨more, rfl, hmore⟩ | ⟨more, rfl, -⟩ := List.append_eq_append_iff.mp hsplit
      · rcases more with - | ⟨first, more⟩
        · rw [List.append_nil] at hpre
          have hlen := congrArg List.length hpre
          rw [List.length_append] at hlen
          omega
        · have hrest : after = more ++ post := (List.cons.inj hmore).2
          rw [hrest, List.flatten_append] at hafter
          exact (List.append_eq_nil_iff.mp hafter).2
      · have hle := (scanRss_grows (rfl : pre ++ more = pre ++ more)).length_le
        rw [hpre, List.length_append] at hle
        omega
    | replayed _ _ _ _ hdup =>
      rw [honce] at hdup
      exact (hdup (scan_nodup _)).elim
  · intro hcond
    cases hstands with
    | kept h _ => exact h.dispatched
    | @stopped before after failing gs i hchunks hafter hframes hi hraise _ hdispatched _ _ =>
      have hlast := (hcond ((scanRss before.flatten).frames.length + i)
        (by rw [hframes, List.length_append]; omega) hraise).1
      rw [hframes, List.length_append] at hlast
      rw [hdispatched, hframes, List.take_of_length_le (by omega)]
    | @replayed before after failing n hchunks hafter hn hraise _ =>
      have hsplit : chunks = (before ++ [failing]) ++ after := by
        rw [hchunks]
        simp
      have hgrows := scanRss_grows hsplit
      have hle := hgrows.length_le
      obtain ⟨hlast, hrest⟩ := hcond n (by omega) hraise
      exact (hafter (hrest _ _ hsplit (hgrows.eq_of_length_le (by omega)))).elim

/-- The first of two frames fails: the second waits, and the next byte brings both. -/
theorem dispatched_again :
    (listen (fun n => n = 0) [frameOf "IN1ON" ++ frameOf "IN2ON"]).dispatched.map Prod.snd =
      [frameOf "IN1ON"] ∧
    (listen (fun n => n = 0) [frameOf "IN1ON" ++ frameOf "IN2ON", [0x00]]).dispatched.map Prod.snd =
      [frameOf "IN1ON", frameOf "IN1ON", frameOf "IN2ON"] ∧
    (listen (fun n => n = 0) [frameOf "IN1ON" ++ frameOf "IN2ON", [0x00]]).dispatched ≠
      (scanRss [frameOf "IN1ON" ++ frameOf "IN2ON", [0x00]].flatten).frames := by decide

end Failures
end ParkIt.GateIn
