import ParkIt.Booth.Config
import ParkIt.Lib.Turns
import Mathlib.Algebra.Order.Ring.Rat

/-! The barrier of the exit: openings take turns at the opener's lock. -/
namespace ParkIt.Booth

open Effects ByteString Transition Turns

inductive Command where
  | opening
  | closing
deriving DecidableEq, Repr

inductive RelayOp where
  | connect (device : Text) (baudrate : Int)
  | write (c : Command) (bytes : Bytes)
  | sleep (seconds : Rat)
  | disconnect
deriving DecidableEq

abbrev RelayOp.Ans : RelayOp → Type
  | .connect _ _ | .write _ _ => Bool
  | .sleep _ | .disconnect => Unit

abbrev Relay (α : Type) := Prog RelayOp RelayOp.Ans Empty α

def onRelay (op : RelayOp) : Relay op.Ans := Prog.perform op

/-- How long an operation takes at least. -/
def RelayOp.delay : RelayOp → Rat
  | .sleep seconds => seconds
  | _ => 0

namespace GateOpener
variable (o : GateOpener)

/-- `self._close_bytes and self.close_delay_s > 0`. -/
def Closes : Prop := o.closeBytes ≠ [] ∧ 0 < o.closeDelayS

instance : Decidable o.Closes := inferInstanceAs (Decidable (_ ∧ _))

/-- `finally: ser.close()`. -/
def leave (ok : Bool) : Relay Bool := do
  onRelay .disconnect
  pure ok

def shut : Relay Bool := do
  if ← onRelay (.write .closing o.closeBytes) then leave true else leave false

def hold : Relay Bool := do
  onRelay (.sleep o.closeDelayS)
  o.shut

def pulse : Relay Bool := do
  if ← onRelay (.write .opening o.openBytes) then
    if o.Closes then o.hold else leave true
  else leave false

def reach : Relay Bool := do
  if ← onRelay (.connect o.device o.baudrate) then o.pulse else pure false

/-- `_open_sync`, in a thread of its own while the call holds the lock. -/
def openSync : Relay Bool := if o.openBytes = [] then pure false else o.reach

end GateOpener

/-- The live opener, and the calls of the openers that there have been, each with its own lock. -/
structure Barrier where
  opener : GateOpener
  number : ℕ := 0
  sys : Sys ℕ GateOpener Rat RelayOp RelayOp.Ans Empty Bool := { now := 0 }

inductive BarrierEvent where
  | ask
  | swap (o : GateOpener)
  | turn (l : Label ℕ GateOpener)

/-- A POS client, the card reader or a paid deduct asks for an opening; the refresher puts another
opener in place; or the calls go on. -/
inductive BarrierStep : Barrier → BarrierEvent → Barrier → Prop
  | ask {b : Barrier} {sys} :
      Step GateOpener.openSync RelayOp.delay b.sys (.call b.number b.opener) sys →
      BarrierStep b .ask { b with sys }
  | swap {b : Barrier} (o : GateOpener) :
      BarrierStep b (.swap o) { b with opener := o, number := b.number + 1 }
  | turn {b : Barrier} {l sys} : (∀ k c, l ≠ .call k c) →
      Step GateOpener.openSync RelayOp.delay b.sys l sys →
      BarrierStep b (.turn l) { b with sys }

/-- The opener is replaced while no opening is on or waited for, and no task is cancelled whose
thread has begun. -/
def Calm (b : Barrier) : BarrierEvent → Prop
  | .swap _ => ∀ k, b.sys.line k = []
  | .turn l => Undisturbed (fun _ => True) b.sys l
  | .ask => True

/-- A command for the relay, with whether the write came back without an exception. -/
structure Sent where
  call : ℕ
  command : Command
  ok : Bool
  time : Rat
deriving DecidableEq, Repr

def sent? : ℕ × Event Rat RelayOp RelayOp.Ans → Option Sent
  | (i, ⟨.write c _, ok, time⟩) => some ⟨i, c, ok, time⟩
  | _ => none

namespace Barrier
variable (b : Barrier)

/-- The commands for the relay, oldest first. -/
def sent : List Sent := b.sys.log.filterMap fun x => sent? x.2

def sentBy (i : ℕ) : List Sent := b.sent.filter fun x => x.call = i

end Barrier

/-- What an opening that is over has sent, and what it has answered. -/
inductive Wrote (o : GateOpener) (i : ℕ) : List Sent → Bool → Prop
  | nothing : Wrote o i [] false
  | failed (t : Rat) : Wrote o i [⟨i, .opening, false, t⟩] false
  | opened (t : Rat) : ¬ o.Closes → Wrote o i [⟨i, .opening, true, t⟩] true
  | closed (t u : Rat) (ok : Bool) : o.Closes → t + o.closeDelayS ≤ u →
      Wrote o i [⟨i, .opening, true, t⟩, ⟨i, .closing, ok, u⟩] ok

/-- How far an opening is. -/
inductive Stage (o : GateOpener) (i : ℕ) : List Sent → Relay Bool → Rat → Prop
  | begun {q u} : q = o.reach → Stage o i [] q u
  | ready {q u} : q = o.pulse → Stage o i [] q u
  | holding {q t u} : o.Closes → t ≤ u → q = o.hold → Stage o i [⟨i, .opening, true, t⟩] q u
  | awake {q t u} : o.Closes → t + o.closeDelayS ≤ u → q = o.shut →
      Stage o i [⟨i, .opening, true, t⟩] q u
  | leaving {w ok q u} : Wrote o i w ok → q = GateOpener.leave ok → Stage o i w q u
  | ended {w ok q u} : Wrote o i w ok → q = pure ok → Stage o i w q u

section Stages
variable {o : GateOpener} {i : ℕ} {w : List Sent} {op : RelayOp} {k : op.Ans → Relay Bool}
  {u v t : Rat} {q : Relay Bool} {es : List (Event Rat RelayOp RelayOp.Ans)}

theorem stage_step (h : Stage o i w (.call op k) u) (hv : u + op.delay ≤ v) (a : op.Ans) :
    Stage o i (w ++ (sent? (i, ⟨op, a, v⟩)).toList) (k a) v := by
  cases h with
  | begun h =>
    cases h
    cases a
    · exact .ended .nothing rfl
    · exact .ready rfl
  | ready h =>
    cases h
    cases a
    · exact .leaving (.failed v) rfl
    · by_cases hcloses : o.Closes
      · refine .holding hcloses le_rfl ?_
        exact if_pos hcloses
      · refine .leaving (.opened v hcloses) ?_
        exact if_neg hcloses
  | @holding q t u hcloses ht h =>
    cases h
    refine .awake hcloses ?_ rfl
    exact (add_le_add ht le_rfl).trans hv
  | @awake q t u hcloses ht h =>
    cases h
    have hu : t + o.closeDelayS ≤ v := ht.trans ((add_zero u).ge.trans hv)
    cases a
    · exact .leaving (.closed t v false hcloses hu) rfl
    · exact .leaving (.closed t v true hcloses hu) rfl
  | leaving hw h =>
    cases h
    rw [show (sent? (i, ⟨.disconnect, a, v⟩)).toList = [] from rfl, List.append_nil]
    exact .ended hw rfl
  | ended hw h => cases h

theorem stage_run (h : Timed RelayOp.delay o.openSync t es q u) :
    Stage o i (es.filterMap fun e => sent? (i, e)) q u := by
  induction h with
  | nil =>
    unfold GateOpener.openSync
    split
    · exact .ended .nothing rfl
    · exact .begun rfl
  | @snoc es op k u a v _ hv ih =>
    rw [List.filterMap_append]
    have hone : [(⟨op, a, v⟩ : Event Rat RelayOp RelayOp.Ans)].filterMap (fun e => sent? (i, e)) =
        (sent? (i, ⟨op, a, v⟩)).toList := by
      cases h : sent? (i, ⟨op, a, v⟩) <;> simp [h]
    rw [hone]
    exact stage_step ih hv a

end Stages

section Runs
variable {b b' : Barrier} {l : BarrierEvent} {xs : List (BarrierEvent × Barrier)}
  {turns : List (Turns.Turn ℕ GateOpener Rat RelayOp RelayOp.Ans Empty Bool)}

abbrev Opening := Turns.Turn ℕ GateOpener Rat RelayOp RelayOp.Ans Empty Bool

def commands (n : Opening) : List Sent := n.events.filterMap fun e => sent? (n.call, e)

/-- What holds in every state of a calm run. -/
structure Orderly (b : Barrier) : Prop where
  lined : Lined (fun _ => True) b.sys
  dated : Dated b.sys
  taken : ∃ turns, Taken GateOpener.openSync RelayOp.delay (fun _ => True) b.sys turns
  live : ∀ k, k ≠ b.number → b.sys.line k = []

theorem orderly_step (h : BarrierStep b l b') (hl : Calm b l) (hb : Orderly b) : Orderly b' := by
  obtain ⟨turns, hturns⟩ := hb.taken
  cases h with
  | ask hstep =>
    refine ⟨lined_step hstep (fun _ k _ => hb.live k) hb.lined, dated_step hstep hb.dated,
      taken_step hstep hb.lined hturns, fun k hk => ?_⟩
    refine line_step hstep (fun c hc => ?_) (hb.live k hk)
    cases hc
    exact hk rfl
  | swap o => exact ⟨hb.lined, hb.dated, hb.taken, fun k _ => hl k⟩
  | turn hcall hstep =>
    exact ⟨lined_step hstep hl hb.lined, dated_step hstep hb.dated,
      taken_step hstep hb.lined hturns, fun k hk => line_step hstep (hcall k) (hb.live k hk)⟩

theorem fresh_orderly (h : b.sys.Fresh) : Orderly b := by
  refine ⟨h.lined, ⟨?_, fun x hx => ?_⟩, ⟨[], h.taken⟩, fun k _ => h.line k⟩
  · rw [h.log]
    exact List.Pairwise.nil
  · rw [h.log] at hx
    cases hx

theorem sent_eq (h : Taken GateOpener.openSync RelayOp.delay (fun _ => True) b.sys turns) :
    b.sent = turns.flatMap commands := by
  have hlog : b.sys.log = turns.flatMap Turns.Turn.entries := by simpa using h.log
  unfold Barrier.sent
  rw [hlog, List.filterMap_flatMap]
  refine List.flatMap_congr fun n _ => ?_
  rw [Turns.Turn.entries, List.filterMap_map]
  rfl

theorem stage_of_taken (h : Taken GateOpener.openSync RelayOp.delay (fun _ => True) b.sys turns)
    {n : Opening} (hn : n ∈ turns) : Stage n.cause n.call (commands n) n.rest n.stop :=
  stage_run (h.timed n hn)

/-- The commands of an opening are the opening one, and then the closing one in its time. -/
theorem commands_cases {o : GateOpener} {i : ℕ} {w : List Sent} {q : Relay Bool} {u : Rat}
    (h : Stage o i w q u) : w = [] ∨ (∃ ok t, w = [⟨i, .opening, ok, t⟩]) ∨
      ∃ ok t u, t + o.closeDelayS ≤ u ∧ w = [⟨i, .opening, true, t⟩, ⟨i, .closing, ok, u⟩] := by
  have hwrote : ∀ {ok}, Wrote o i w ok → w = [] ∨ (∃ ok t, w = [⟨i, .opening, ok, t⟩]) ∨
      ∃ ok t u, t + o.closeDelayS ≤ u ∧ w = [⟨i, .opening, true, t⟩, ⟨i, .closing, ok, u⟩] := by
    intro ok hw
    cases hw with
    | nothing => exact Or.inl rfl
    | failed t => exact Or.inr (Or.inl ⟨false, t, rfl⟩)
    | opened t _ => exact Or.inr (Or.inl ⟨true, t, rfl⟩)
    | closed t u ok _ hu => exact Or.inr (Or.inr ⟨ok, t, u, hu, rfl⟩)
  cases h with
  | begun h | ready h => exact Or.inl rfl
  | @holding q t u _ _ h | @awake q t u _ _ h => exact Or.inr (Or.inl ⟨true, t, rfl⟩)
  | leaving hw h | ended hw h => exact hwrote hw

theorem commands_call {n : Opening} {x : Sent} (hx : x ∈ commands n) : x.call = n.call := by
  obtain ⟨⟨op, a, v⟩, -, he⟩ := List.mem_filterMap.mp hx
  cases op with
  | write c bytes =>
    cases he
    rfl
  | connect _ _ | sleep _ | disconnect => cases he

/-- The commands of a call that has begun are those of its own turn. -/
theorem sentBy_eq (h : Taken GateOpener.openSync RelayOp.delay (fun _ => True) b.sys turns)
    {n : Opening} (hn : n ∈ turns) : b.sentBy n.call = commands n := by
  obtain ⟨l₁, l₂, rfl⟩ := List.mem_iff_append.mp hn
  have horder := h.order
  rw [List.map_append, List.map_cons] at horder
  obtain ⟨-, hright, hleft⟩ := List.pairwise_append.mp horder
  have hothers : ∀ l : List Opening, (∀ m ∈ l, m.call ≠ n.call) →
      (l.flatMap commands).filter (fun x => x.call = n.call) = [] := by
    intro l hl
    refine List.filter_eq_nil_iff.mpr fun x hx hcall => ?_
    obtain ⟨m, hm, hxm⟩ := List.mem_flatMap.mp hx
    exact hl m hm ((commands_call hxm).symm.trans (of_decide_eq_true hcall))
  have hself : (commands n).filter (fun x => x.call = n.call) = commands n :=
    List.filter_eq_self.mpr fun x hx => decide_eq_true (commands_call hx)
  rw [Barrier.sentBy, sent_eq h, List.flatMap_append, List.flatMap_cons, List.filter_append,
    List.filter_append, hself, hothers l₁ fun m hm => ?_, hothers l₂ fun m hm => ?_,
    List.append_nil, List.nil_append]
  · exact Nat.ne_of_gt ((List.pairwise_cons.mp hright).1 _ (List.mem_map_of_mem hm))
  · exact Nat.ne_of_lt (hleft _ (List.mem_map_of_mem hm) _ List.mem_cons_self)

/-- What has become of the openings. -/
structure Kept (b : Barrier) : Prop where
  closes : ∀ pre d post, b.sent = pre ++ d :: post → d.command = .closing →
    ∃ pre' c k o, pre = pre' ++ [c] ∧ c.command = .opening ∧ c.ok = true ∧ c.call = d.call ∧
      b.sys.calls[d.call]? = some (k, o) ∧ c.time + o.closeDelayS ≤ d.time
  uncut : ∀ pre c mid d post, b.sent = pre ++ c :: (mid ++ d :: post) → d.command = .closing →
    ∃ k o, b.sys.calls[d.call]? = some (k, o) ∧ c.time + o.closeDelayS ≤ d.time
  order : ((b.sent.filter fun x => x.command = .opening).map (·.call)).Pairwise (· < ·)
  answers : ∀ i ok, (i, .ok ok) ∈ b.sys.results →
    ∃ k o, b.sys.calls[i]? = some (k, o) ∧ Wrote o i (b.sentBy i) ok

theorem closes_of_taken (h : Taken GateOpener.openSync RelayOp.delay (fun _ => True) b.sys turns)
    {pre post : List Sent} {d : Sent} (hsent : b.sent = pre ++ d :: post)
    (hd : d.command = .closing) :
    ∃ pre' c k o, pre = pre' ++ [c] ∧ c.command = .opening ∧ c.ok = true ∧ c.call = d.call ∧
      b.sys.calls[d.call]? = some (k, o) ∧ c.time + o.closeDelayS ≤ d.time := by
  rw [sent_eq h] at hsent
  obtain ⟨l₁, n, l₂, p, q, rfl, hcommands, rfl⟩ := flatMap_split hsent
  have hn : n ∈ l₁ ++ n :: l₂ := List.mem_append_right _ List.mem_cons_self
  have hk : b.sys.calls[n.call]? = some (n.lock, n.cause) := (h.known n hn).1
  rcases commands_cases (stage_of_taken h hn) with hw | ⟨ok, t, hw⟩ | ⟨ok, t, u, hu, hw⟩
  · rw [hw] at hcommands
    exact absurd hcommands (by simp)
  · rw [hw] at hcommands
    rcases p with _ | ⟨c, p⟩
    · cases hcommands
      cases hd
    · exact absurd hcommands (by simp)
  · rw [hw] at hcommands
    rcases p with _ | ⟨c, _ | ⟨c', p⟩⟩
    · cases hcommands
      cases hd
    · cases hcommands
      exact ⟨_, _, n.lock, n.cause, rfl, rfl, rfl, rfl, hk, hu⟩
    · exact absurd hcommands (by simp)

theorem sent_sorted (h : Dated b.sys) : b.sent.Pairwise fun x y => x.time ≤ y.time := by
  have htime : ∀ x c, sent? x = some c → c.time = x.2.time := by
    rintro ⟨i, op, a, v⟩ c hc
    cases op with
    | write _ _ =>
      cases hc
      rfl
    | connect _ _ | sleep _ | disconnect => cases hc
  refine List.pairwise_filterMap.mpr (h.sorted.imp fun {x y} hxy c hc d hd => ?_)
  rw [htime x.2 c hc, htime y.2 d hd]
  exact hxy

theorem order_of_taken (h : Taken GateOpener.openSync RelayOp.delay (fun _ => True) b.sys turns) :
    ((b.sent.filter fun x => x.command = .opening).map (·.call)).Pairwise (· < ·) := by
  have horder := List.pairwise_map.mp h.order
  rw [sent_eq h, List.filter_flatMap, List.map_flatMap]
  refine List.pairwise_flatMap.mpr ⟨fun n hn => ?_, horder.imp fun {m n} hmn x hx y hy => ?_⟩
  · rcases commands_cases (stage_of_taken h hn) with hw | ⟨ok, t, hw⟩ | ⟨ok, t, u, -, hw⟩ <;>
      rw [hw] <;> simp
  · obtain ⟨c, hc, rfl⟩ := List.mem_map.mp hx
    obtain ⟨d, hd, rfl⟩ := List.mem_map.mp hy
    rw [commands_call (List.mem_of_mem_filter hc), commands_call (List.mem_of_mem_filter hd)]
    exact hmn

theorem answers_of_taken (h : Taken GateOpener.openSync RelayOp.delay (fun _ => True) b.sys turns)
    {i : ℕ} {ok : Bool} (hi : (i, .ok ok) ∈ b.sys.results) :
    ∃ k o, b.sys.calls[i]? = some (k, o) ∧ Wrote o i (b.sentBy i) ok := by
  obtain ⟨-, -, -, hturn⟩ := h.results _ hi
  obtain ⟨n, hn, rfl, hout⟩ := hturn trivial
  obtain ⟨hknown, -⟩ := h.known n hn
  have hrest : n.rest = pure ok := by
    rcases hr : n.rest with a | e | ⟨op, cont⟩ <;> rw [hr] at hout
    · cases hout
      rfl
    · cases hout
    · cases hout
  refine ⟨n.lock, n.cause, hknown, ?_⟩
  rw [sentBy_eq h hn]
  have hstage := stage_of_taken h hn
  rw [hrest] at hstage
  generalize commands n = w at hstage ⊢
  cases hstage with
  | ended hw hq =>
    cases hq
    exact hw
  | begun hq | ready hq | holding _ _ hq | awake _ _ hq | leaving _ hq => cases hq

/-- In every calm run, however often the gate is asked for, no opening is cut short. -/
theorem barrier_stays_open (hb : b.sys.Fresh)
    (h : Path (fun b l b' => BarrierStep b l b' ∧ Calm b l) b xs) : Kept (finish b xs) := by
  have hend : Orderly (finish b xs) :=
    h.invariant (fun _ _ _ hstep => orderly_step hstep.1 hstep.2) (fresh_orderly hb)
  obtain ⟨turns, hturns⟩ := hend.taken
  refine ⟨fun pre d post => closes_of_taken hturns, fun pre c mid d post hsent hd => ?_,
    order_of_taken hturns, fun i ok => answers_of_taken hturns⟩
  have hsplit : (finish b xs).sent = (pre ++ c :: mid) ++ d :: post := by
    rw [hsent, List.append_assoc]
    rfl
  obtain ⟨pre', c₀, k, o, hlast, -, -, -, hcall, htime⟩ := closes_of_taken hturns hsplit hd
  refine ⟨k, o, hcall, le_trans (add_le_add ?_ le_rfl) htime⟩
  have hsorted := sent_sorted hend.dated
  rw [hsplit, hlast] at hsorted
  have hmem : c ∈ pre' ++ [c₀] := hlast ▸ List.mem_append_right _ List.mem_cons_self
  rcases List.mem_append.mp hmem with hc | hc
  · exact (List.pairwise_append.mp (List.pairwise_append.mp hsorted).1).2.2 c hc c₀
      (List.mem_singleton_self c₀)
  · rw [List.mem_singleton.mp hc]

end Runs

section Exit

/-- A relay that takes one byte to lift the arm, and another one to let it down after three
seconds. -/
def exitOpener : GateOpener where
  gateId := "EXIT"
  gateDbId := 2
  device := some "/dev/ttyUSB0"
  baudrate := 9600
  openCommandHex := some "a0"
  closeCommandHex := some "a1"
  closeDelayS := 3
  openBytes := [0xa0]
  closeBytes := [0xa1]

def exitBarrier : Barrier where
  opener := exitOpener

theorem exit_fresh : exitBarrier.sys.Fresh := ⟨fun _ => rfl, fun _ => rfl, rfl, rfl⟩



/-- A second card is read while the arm is up for the first one. -/
theorem exit_path : ∃ xs, Path (fun b l b' => BarrierStep b l b' ∧ Calm b l) exitBarrier xs ∧
    (finish exitBarrier xs).sent = [⟨0, .opening, true, 0⟩, ⟨0, .closing, true, 3⟩] ∧
      (finish exitBarrier xs).sys.line 0 = [1] := by
  refine ⟨[(_, _), (_, _), (_, _), (_, _), (_, _), (_, _), (_, _), (_, _), (_, _), (_, _)],
    ⟨⟨.ask (.call 0 exitOpener), trivial⟩,
      ⟨.turn (fun _ _ => by simp) (.begin (i := 0) rfl rfl rfl), trivial⟩,
      ⟨.turn (fun _ _ => by simp)
        (.go (i := 0) (o := .connect (some "/dev/ttyUSB0") 9600) true rfl rfl (by decide +kernel)),
        trivial⟩,
      ⟨.turn (fun _ _ => by simp)
        (.go (i := 0) (o := .write .opening [0xa0]) true rfl rfl (by decide +kernel)), trivial⟩,
      ⟨.ask (.call 0 exitOpener), trivial⟩,
      ⟨.turn (fun _ _ => by simp) (.tick (t := 3) (by decide +kernel)), trivial⟩,
      ⟨.turn (fun _ _ => by simp) (.go (i := 0) (o := .sleep 3) () rfl rfl (by decide +kernel)),
        trivial⟩,
      ⟨.turn (fun _ _ => by simp)
        (.go (i := 0) (o := .write .closing [0xa1]) true rfl rfl (by decide +kernel)), trivial⟩,
      ⟨.turn (fun _ _ => by simp) (.go (i := 0) (o := .disconnect) () rfl rfl (by decide +kernel)),
        trivial⟩,
      ⟨.turn (fun _ _ => by simp) (.finish (i := 0) rfl rfl rfl), trivial⟩, trivial⟩, ?_, ?_⟩
  · decide +kernel
  · decide +kernel

theorem barrier_stays_open_exit : ∃ xs : List (BarrierEvent × Barrier),
    Kept (finish exitBarrier xs) ∧
      (finish exitBarrier xs).sent = [⟨0, .opening, true, 0⟩, ⟨0, .closing, true, 3⟩] := by
  obtain ⟨xs, hpath, hsent, -⟩ := exit_path
  exact ⟨xs, barrier_stays_open exit_fresh hpath, hsent⟩

end Exit
end ParkIt.Booth
