import Mathlib.Data.List.Induction
import ParkIt.Frontend.GateStore

/-! What takes the vehicle off the screen of the POS. -/
namespace ParkIt.Frontend

open Transition

/-- What is on the screen is cleared or replaced. -/
def Lost (s s' : Page) : Prop :=
  ∃ t, s.store.currentTransaction = some t ∧ s'.store.currentTransaction ≠ some t

/-- The request that an event begins. -/
def Page.begins (s : Page) : Event → Option Request
  | .call a => some (a.request s.store)
  | .handleWsEvent (.vehicleDetected cardNumber) =>
    (cardNumber.filter (· ≠ "")).map fun card => .lookup none (some card) none
  | _ => none

/-- The events that start a timer. -/
def Event.startsTimer : Event → Bool
  | .handleWsEvent (.deductResult status) => status = "SUCCESS"
  | _ => false

/-- The requests that have begun, each with what was on the screen then. -/
def begun : Page → List (Event × Page) → List (Request × Option Id)
  | _, [] => []
  | s, (e, s') :: xs => ((s.begins e).map (·, s.store.shown)).toList ++ begun s' xs

/-- What was on the screen when the timers were started. -/
def timersStarted : Page → List (Event × Page) → List (Option Id)
  | _, [] => []
  | s, (e, s') :: xs => (if e.startsTimer then [s.store.shown] else []) ++ timersStarted s' xs

/-- The requests whose success clears the screen. -/
def Request.clears : Request → Bool
  | .openGate _ | .rfid _ _ _ | .emoneyResult _ _ _ _ _ _ _ _ => true
  | _ => false

/-- A success that concerns what is on the screen: a gate that has been opened for it, or its
payment. -/
def Request.Settles (r : Request) (shownThen : Option Id) (a : Answer) (shownNow : Option Id) :
    Prop :=
  match r with
  | .openGate _ => shownThen = shownNow
  | .rfid _ _ _ | .emoneyResult _ _ _ _ _ _ _ _ => a.transactionId = shownNow
  | _ => False

/-- Request `n` is a lookup, and no lookup has begun after it. -/
def LatestLookup (rs : List (Request × Option Id)) (n : Nat) : Prop :=
  (∃ q, rs[n]? = some q ∧ q.1.isLookup = true) ∧
    ∀ m q, rs[m]? = some q → q.1.isLookup = true → m ≤ n

/-- After `xs`, the event may take the vehicle off the screen: it is the answer to the lookup that
has begun last, the success of what is on the screen, the vehicle has gone, or the operator says
so. -/
def Caused (xs : List (Event × Page)) : Event → Prop
  | .answer n a => LatestLookup (begun {} xs) n ∨ ∃ r shown,
      (begun {} xs)[n]? = some (r, shown) ∧ a.success = true ∧
        r.Settles shown a (finish {} xs).store.shown
  | .timer n => (timersStarted {} xs)[n]? = some (finish {} xs).store.shown
  | .handleWsEvent .vehiclePassed | .handleWsEvent .vehicleLeft => True
  | .setTransaction _ | .clearTransaction => True
  | _ => False

/-- In a run that starts with the fresh store, what takes the vehicle off the screen may do so. -/
def LossesCaused (xs : List (Event × Page)) : Prop :=
  ∀ pre e s post, xs = pre ++ (e, s) :: post → Lost (finish {} pre) s → Caused pre e

/-- An answer or a timer comes for what is on the screen, or the screen is empty; an answer that
finds what is on the screen already does no harm. -/
def Orderly (s : Page) : Event → Prop
  | .answer n a => ∀ f t, s.fetch? n = some f → s.store.currentTransaction = some t →
      (f.request.isLookup = true → a.transaction = none ∨ a.transaction = some t ∨
        s.latestLookup = some n) ∧
      (f.request.clears = true → a.success = true → f.request.Settles f.shown a (some t.row.id))
  | .timer n => ∀ w t, s.timer? n = some w → s.store.currentTransaction = some t →
      w.shown = some t.row.id
  | _ => True

/-- What the page remembers is what has happened. -/
structure Remembers (xs : List (Event × Page)) (s : Page) : Prop where
  nextFetch : s.nextFetch = (begun {} xs).length
  fetches : ∀ f ∈ s.fetches, (begun {} xs)[f.number]? = some (f.request, f.shown)
  latest : ∀ n, s.latestLookup = some n ↔ LatestLookup (begun {} xs) n
  nextTimer : s.nextTimer = (timersStarted {} xs).length
  timers : ∀ w ∈ s.timers, (timersStarted {} xs)[w.number]? = some w.shown

section Steps
variable {s : Page} {e : Event} {xs ys : List (Event × Page)} {f : Fetch} {w : Timer}

theorem begun_append {s : Page} : begun s (xs ++ ys) = begun s xs ++ begun (finish s xs) ys := by
  induction xs generalizing s with
  | nil => rfl
  | cons x xs ih =>
    rw [List.cons_append, begun, begun, finish_cons, ih, List.append_assoc]

theorem timersStarted_append {s : Page} :
    timersStarted s (xs ++ ys) = timersStarted s xs ++ timersStarted (finish s xs) ys := by
  induction xs generalizing s with
  | nil => rfl
  | cons x xs ih =>
    rw [List.cons_append, timersStarted, timersStarted, finish_cons, ih, List.append_assoc]

/-- What a step does to the requests on their way and to the timers. -/
structure Keeps (s s' : Page) (r : Option Request) (starts : Bool) : Prop where
  nextFetch : s'.nextFetch = s.nextFetch + r.toList.length
  fetches : ∀ f ∈ s'.fetches, f ∈ s.fetches ∨ r = some f.request ∧ f.number = s.nextFetch ∧
    f.shown = s.store.shown
  latest : s'.latestLookup =
    if r.any (·.isLookup) then some s.nextFetch else s.latestLookup
  nextTimer : s'.nextTimer = s.nextTimer + if starts then 1 else 0
  timers : ∀ w ∈ s'.timers, w ∈ s.timers ∨
    starts = true ∧ w.number = s.nextTimer ∧ w.shown = s.store.shown

/-- Nothing begins. -/
theorem keeps_none {s' : Page} (hnext : s'.nextFetch = s.nextFetch)
    (hfetches : ∀ f ∈ s'.fetches, f ∈ s.fetches) (hlatest : s'.latestLookup = s.latestLookup)
    (hnextTimer : s'.nextTimer = s.nextTimer) (htimers : ∀ w ∈ s'.timers, w ∈ s.timers) :
    Keeps s s' none false :=
  ⟨hnext, fun f hf => .inl (hfetches f hf), hlatest, hnextTimer, fun w hw => .inl (htimers w hw)⟩

theorem keeps_store (g : GateStore) : Keeps s { s with store := g } none false :=
  keeps_none rfl (fun _ hf => hf) rfl rfl fun _ hw => hw

theorem keeps_begin (a : Action) : Keeps s (s.begin a) (some (a.request s.store)) false := by
  refine ⟨rfl, fun f hf => ?_, rfl, rfl, fun w hw => .inl hw⟩
  rcases List.mem_append.mp hf with hf | hf
  · exact .inl hf
  · obtain rfl := List.mem_singleton.mp hf
    exact .inr ⟨rfl, rfl, rfl⟩

theorem keeps_startTimer : Keeps s s.startTimer none true := by
  refine ⟨rfl, fun f hf => .inl hf, rfl, rfl, fun w hw => ?_⟩
  rcases List.mem_append.mp hw with hw | hw
  · exact .inl hw
  · obtain rfl := List.mem_singleton.mp hw
    exact .inr ⟨rfl, rfl, rfl⟩

theorem keeps_handleWsEvent (s : Page) (e : WsEvent) : Keeps s (s.handleWsEvent e)
    (s.begins (.handleWsEvent e)) (Event.handleWsEvent e).startsTimer := by
  cases e with
  | vehicleDetected cardNumber =>
    simp only [Page.handleWsEvent, Page.begins, Event.startsTimer]
    cases cardNumber.filter (· ≠ "") with
    | none => exact keeps_store _
    | some card =>
      have hbegin := keeps_begin (s := { s with store.paymentState := .vehiclePresent })
        (.lookupTransaction none (some card) none)
      exact ⟨hbegin.nextFetch, hbegin.fetches, hbegin.latest, hbegin.nextTimer, hbegin.timers⟩
  | deductResult status =>
    simp only [Page.handleWsEvent, Page.begins, Event.startsTimer]
    split_ifs with hsuccess
    · have hstart := keeps_startTimer (s := { s with store.emoneyPaymentState := .success })
      rw [decide_eq_true hsuccess]
      exact ⟨hstart.nextFetch, hstart.fetches, hstart.latest, hstart.nextTimer, hstart.timers⟩
    all_goals
      rw [decide_eq_false hsuccess]
      exact keeps_store _
  | cameraSnapshot snapshotType url =>
    simp only [Page.handleWsEvent, Page.begins, Event.startsTimer]
    split_ifs
    · exact keeps_store _
    · exact keeps_store s.store
  | other type => exact keeps_store s.store
  | _ => exact keeps_store _

theorem keeps_next (s : Page) (e : Event) : Keeps s (s.next e) (s.begins e) e.startsTimer := by
  cases e with
  | call a => exact keeps_begin a
  | handleWsEvent e => exact keeps_handleWsEvent s e
  | answer n a =>
    simp only [Page.next]
    cases s.fetch? n with
    | none => exact keeps_store s.store
    | some f =>
      exact keeps_none rfl (fun _ hf => (List.mem_filter.mp hf).1) rfl rfl fun _ hw => hw
  | timer n =>
    simp only [Page.next]
    cases s.timer? n with
    | none => exact keeps_store s.store
    | some w =>
      exact keeps_none rfl (fun _ hf => hf) rfl rfl fun _ hw => (List.mem_filter.mp hw).1
  | wait d => exact keeps_none rfl (fun _ hf => hf) rfl rfl fun _ hw => hw
  | _ => exact keeps_store _

theorem begun_snoc (s : Page) (xs : List (Event × Page)) (e : Event) :
    begun s (xs ++ [(e, (finish s xs).next e)]) = begun s xs ++
      (((finish s xs).begins e).map (·, (finish s xs).store.shown)).toList := by
  rw [begun_append, begun, begun, List.append_nil]

theorem timersStarted_snoc (s : Page) (xs : List (Event × Page)) (e : Event) :
    timersStarted s (xs ++ [(e, (finish s xs).next e)]) =
      timersStarted s xs ++ if e.startsTimer then [(finish s xs).store.shown] else [] := by
  rw [timersStarted_append, timersStarted, timersStarted, List.append_nil]

section Lookups
variable {rs : List (Request × Option Id)} {q : Request × Option Id} {n : Nat}

theorem latestLookup_snoc (hq : q.1.isLookup = true) :
    LatestLookup (rs ++ [q]) n ↔ n = rs.length := by
  have hlast : (rs ++ [q])[rs.length]? = some q := by simp
  have hbound : ∀ {m p}, (rs ++ [q])[m]? = some p → m ≤ rs.length := by
    intro m p hp
    have hlt := (List.getElem?_eq_some_iff.mp hp).1
    rw [List.length_append, List.length_singleton] at hlt
    omega
  constructor
  · rintro ⟨⟨p, hp, -⟩, hmax⟩
    exact le_antisymm (hbound hp) (hmax _ _ hlast hq)
  · rintro rfl
    exact ⟨⟨q, hlast, hq⟩, fun m p hp _ => hbound hp⟩

theorem latestLookup_snoc_other (hq : q.1.isLookup = false) :
    LatestLookup (rs ++ [q]) n ↔ LatestLookup rs n := by
  -- a lookup of the longer list is one of the shorter list
  have hiff : ∀ (m : Nat) (p : Request × Option Id), p.1.isLookup = true →
      ((rs ++ [q])[m]? = some p ↔ rs[m]? = some p) := by
    intro m p hp
    rcases lt_or_ge m rs.length with hlt | hge
    · rw [List.getElem?_append_left hlt]
    · rw [List.getElem?_append_right hge, List.getElem?_eq_none hge]
      refine iff_of_false (fun h => ?_) (Option.some_ne_none p).symm
      obtain rfl := List.mem_singleton.mp (List.mem_of_getElem? h)
      exact Bool.noConfusion (hq.symm.trans hp)
  constructor
  · rintro ⟨⟨p, hp, hlookup⟩, hmax⟩
    exact ⟨⟨p, (hiff n p hlookup).mp hp, hlookup⟩,
      fun m p' hp' hl => hmax m p' ((hiff m p' hl).mpr hp') hl⟩
  · rintro ⟨⟨p, hp, hlookup⟩, hmax⟩
    exact ⟨⟨p, (hiff n p hlookup).mpr hp, hlookup⟩,
      fun m p' hp' hl => hmax m p' ((hiff m p' hl).mp hp') hl⟩

end Lookups

/-- What has happened before stays where it was. -/
theorem getElem?_append_of_some {α : Type} {l l' : List α} {m : Nat} {x : α}
    (h : l[m]? = some x) : (l ++ l')[m]? = some x := by
  rw [List.getElem?_append_left (List.getElem?_eq_some_iff.mp h).1, h]

theorem latest_step {s s' : Page} {r : Option Request} {starts : Bool}
    {rs : List (Request × Option Id)} {n : Nat} (hkeeps : Keeps s s' r starts)
    (hnext : s.nextFetch = rs.length) (hlatest : s.latestLookup = some n ↔ LatestLookup rs n) :
    s'.latestLookup = some n ↔
      LatestLookup (rs ++ (r.map (·, s.store.shown)).toList) n := by
  rw [hkeeps.latest]
  cases r with
  | none =>
    rw [Option.map_none, Option.toList_none, List.append_nil]
    exact hlatest
  | some r =>
    rw [Option.map_some, Option.toList_some, Option.any_some]
    cases hlookup : r.isLookup with
    | true => rw [latestLookup_snoc hlookup, if_pos rfl, hnext, Option.some.injEq, eq_comm]
    | false =>
      rw [latestLookup_snoc_other hlookup]
      exact hlatest

theorem remembers_step (h : Remembers xs (finish {} xs)) (e : Event) :
    Remembers (xs ++ [(e, (finish {} xs).next e)]) ((finish {} xs).next e) := by
  have hkeeps := keeps_next (finish {} xs) e
  have hbegun := begun_snoc {} xs e
  have hstarted := timersStarted_snoc {} xs e
  generalize finish {} xs = s at *
  refine ⟨?_, fun f hf => ?_, fun n => ?_, ?_, fun w hw => ?_⟩
  · rw [hkeeps.nextFetch, h.nextFetch, hbegun, List.length_append]
    cases s.begins e <;> rfl
  · rw [hbegun]
    rcases hkeeps.fetches f hf with hf | ⟨hr, hnumber, hshown⟩
    · exact getElem?_append_of_some (h.fetches f hf)
    · rw [hr, hnumber, h.nextFetch, hshown]
      simp
  · rw [hbegun]
    exact latest_step hkeeps h.nextFetch (h.latest n)
  · rw [hkeeps.nextTimer, h.nextTimer, hstarted, List.length_append]
    cases e.startsTimer <;> rfl
  · rw [hstarted]
    rcases hkeeps.timers w hw with hw | ⟨hstarts, hnumber, hshown⟩
    · exact getElem?_append_of_some (h.timers w hw)
    · rw [hstarts, hnumber, h.nextTimer, hshown]
      simp

theorem remembers_run (h : Path PageStep {} xs) : Remembers xs (finish {} xs) := by
  induction xs using List.reverseRecOn with
  | nil =>
    refine ⟨rfl, fun f hf => ?_, fun n => ?_, rfl, fun w hw => ?_⟩
    · cases hf
    · refine iff_of_false (fun hn => ?_) ?_
      · cases hn
      · rintro ⟨⟨q, hq, -⟩, -⟩
        cases hq
    · cases hw
  | append_singleton xs x ih =>
    obtain ⟨e, s'⟩ := x
    obtain ⟨hpre, rfl, -⟩ := path_append.mp h
    rw [finish_append]
    exact remembers_step (ih hpre) e

end Steps

section Losses
variable {s s' : Page} {e : Event} {xs : List (Event × Page)} {n : Nat} {a : Answer} {f : Fetch}
  {t : ShownTransaction} {r : Request}

theorem not_lost (h : s'.store.currentTransaction = s.store.currentTransaction) : ¬ Lost s s' := by
  rintro ⟨t, ht, hne⟩
  exact hne (h.trans ht)

theorem settle_lookup {g : GateStore} {now : Int} (hr : r.isLookup = true) :
    (g.settle now r a).currentTransaction = a.transaction.or g.currentTransaction := by
  cases r with
  | lookup barcode cardNumber plateNumber =>
    rw [GateStore.settle]
    cases a.transaction <;> rfl
  | _ => cases hr

theorem settle_clears {g : GateStore} {now : Int} (hr : r.clears = true) :
    (g.settle now r a).currentTransaction = if a.success then none else g.currentTransaction := by
  cases r with
  | openGate _ | rfid _ _ _ | emoneyResult _ _ _ _ _ _ _ _ =>
    rw [GateStore.settle]
    cases a.success <;> rfl
  | _ => cases hr

theorem settle_other {g : GateStore} {now : Int} (hlookup : r.isLookup = false)
    (hclears : r.clears = false) :
    (g.settle now r a).currentTransaction = g.currentTransaction := by
  cases r with
  | cash _ _ _ _ _ _ =>
    rw [GateStore.settle]
    cases a.success <;> rfl
  | emoneyDeduct _ _ _ _ => rfl
  | lookup _ _ _ => cases hlookup
  | _ => cases hclears

/-- Callbacks that leave the screen alone. -/
theorem current_next (xs : List (Event × Page)) (s : Page) (e : Event) :
    (∃ n a, e = .answer n a) ∨ (∃ n, e = .timer n) ∨ Orderly s e ∧ (Caused xs e ∨
      (s.next e).store.currentTransaction = s.store.currentTransaction) := by
  cases e with
  | answer n a => exact .inl ⟨n, a, rfl⟩
  | timer n => exact .inr (.inl ⟨n, rfl⟩)
  | setTransaction t => exact .inr (.inr ⟨trivial, .inl trivial⟩)
  | clearTransaction => exact .inr (.inr ⟨trivial, .inl trivial⟩)
  | set x => exact .inr (.inr ⟨trivial, .inr (by cases x <;> rfl)⟩)
  | call a => exact .inr (.inr ⟨trivial, .inr rfl⟩)
  | tick =>
    refine .inr (.inr ⟨trivial, .inr ?_⟩)
    simp only [Page.next, GateStore.tick]
    split <;> rfl
  | wait d => exact .inr (.inr ⟨trivial, .inr rfl⟩)
  | handleWsEvent e =>
    refine .inr (.inr ⟨trivial, ?_⟩)
    cases e with
    | vehiclePassed => exact .inl trivial
    | vehicleLeft => exact .inl trivial
    | vehicleDetected cardNumber =>
      right
      simp only [Page.next, Page.handleWsEvent]
      split <;> rfl
    | deductResult status =>
      right
      simp only [Page.next, Page.handleWsEvent]
      split_ifs <;> rfl
    | cameraSnapshot snapshotType url =>
      right
      simp only [Page.next, Page.handleWsEvent]
      split_ifs <;> rfl
    | _ => exact .inr rfl

theorem fetch_mem (h : s.fetch? n = some f) : f ∈ s.fetches ∧ f.number = n :=
  ⟨List.mem_of_find?_eq_some h, by simpa using List.find?_some h⟩

theorem lost_iff (ht : s.store.currentTransaction = some t) :
    Lost s s' ↔ s'.store.currentTransaction ≠ some t := by
  constructor
  · rintro ⟨t', ht', hne⟩
    obtain rfl := Option.some.inj (ht.symm.trans ht')
    exact hne
  · exact fun hne => ⟨t, ht, hne⟩

/-- For the answer to a request on its way. -/
theorem caused_answer (h : Remembers xs s) (hs : finish {} xs = s) (hf : s.fetch? n = some f) :
    Caused xs (.answer n a) ↔ s.latestLookup = some n ∨
      a.success = true ∧ f.request.Settles f.shown a s.store.shown := by
  obtain ⟨hmem, rfl⟩ := fetch_mem hf
  have hbegun := h.fetches f hmem
  rw [Caused, ← h.latest, hs]
  refine or_congr_right ⟨?_, fun hsettles => ⟨_, _, hbegun, hsettles⟩⟩
  rintro ⟨r, shown, hr, hsettles⟩
  obtain ⟨rfl, rfl⟩ := Prod.mk.inj (Option.some.inj (hbegun.symm.trans hr))
  exact hsettles

theorem orderly_answer (hf : s.fetch? n = some f) (ht : s.store.currentTransaction = some t) :
    Orderly s (.answer n a) ↔
      (f.request.isLookup = true → a.transaction = none ∨ a.transaction = some t ∨
        s.latestLookup = some n) ∧
      (f.request.clears = true → a.success = true →
        f.request.Settles f.shown a (some t.row.id)) := by
  constructor
  · exact fun h => h f t hf ht
  · intro h f' t' hf' ht'
    obtain rfl := Option.some.inj (hf.symm.trans hf')
    obtain rfl := Option.some.inj (ht.symm.trans ht')
    exact h

/-- A lookup settles nothing, and what settles is no lookup. -/
theorem Request.Settles.clears {shown shown' : Option Id} (h : r.Settles shown a shown') :
    r.clears = true ∧ r.isLookup = false := by
  cases r with
  | openGate _ | rfid _ _ _ | emoneyResult _ _ _ _ _ _ _ _ => exact ⟨rfl, rfl⟩
  | _ => exact h.elim

theorem Request.clears_of_isLookup (h : r.isLookup = true) : r.clears = false := by
  cases r with
  | lookup _ _ _ => rfl
  | _ => cases h

/-- The latest lookup is a lookup. -/
theorem latest_isLookup (h : Remembers xs s) (hf : s.fetch? n = some f)
    (hlatest : s.latestLookup = some n) : f.request.isLookup = true := by
  obtain ⟨⟨q, hq, hlookup⟩, -⟩ := (h.latest n).mp hlatest
  obtain ⟨hmem, rfl⟩ := fetch_mem hf
  obtain rfl := Option.some.inj ((h.fetches f hmem).symm.trans hq)
  exact hlookup

/-- For a request on its way and a vehicle on the screen. -/
theorem losses_settle (h : Remembers xs s) (hf : s.fetch? n = some f)
    (ht : s.store.currentTransaction = some t) :
    ((s.store.settle s.now f.request a).currentTransaction ≠ some t →
        s.latestLookup = some n ∨
          a.success = true ∧ f.request.Settles f.shown a (some t.row.id)) ↔
      (f.request.isLookup = true → a.transaction = none ∨ a.transaction = some t ∨
        s.latestLookup = some n) ∧
      (f.request.clears = true → a.success = true →
        f.request.Settles f.shown a (some t.row.id)) := by
  cases hlookup : f.request.isLookup with
  | true =>
    have hnot : ¬ f.request.Settles f.shown a (some t.row.id) := fun hsettles =>
      Bool.noConfusion (hlookup.symm.trans hsettles.clears.2)
    rw [settle_lookup hlookup, ht, Request.clears_of_isLookup hlookup]
    cases a.transaction with
    | none => simp
    | some t' => simp [hnot, or_iff_not_imp_left]
  | false =>
    have hlatest : s.latestLookup ≠ some n := fun hn =>
      Bool.noConfusion (hlookup.symm.trans (latest_isLookup h hf hn))
    cases hclears : f.request.clears with
    | true =>
      rw [settle_clears hclears, ht]
      cases a.success <;> simp [hlatest]
    | false =>
      rw [settle_other hlookup hclears, ht]
      simp

theorem losses_answer (h : Remembers xs s) (hs : finish {} xs = s) :
    (Lost s (s.next (.answer n a)) → Caused xs (.answer n a)) ↔ Orderly s (.answer n a) := by
  cases hf : s.fetch? n with
  | none =>
    have hnext : s.next (.answer n a) = s := by rw [Page.next, hf]
    refine iff_of_true (fun hlost => ?_) fun f t hsome => ?_
    · exact absurd hlost (not_lost (congrArg (·.store.currentTransaction) hnext))
    · cases hf.symm.trans hsome
  | some f =>
    have hstore : (s.next (.answer n a)).store = s.store.settle s.now f.request a := by
      rw [Page.next, hf]
    cases ht : s.store.currentTransaction with
    | none =>
      refine iff_of_true (fun hlost => ?_) fun f t _ ht' => ?_
      · obtain ⟨t, ht', -⟩ := hlost
        cases ht.symm.trans ht'
      · cases ht.symm.trans ht'
    | some t =>
      have hshown : s.store.shown = some t.row.id := by rw [GateStore.shown, ht, Option.map_some]
      rw [caused_answer h hs hf, orderly_answer hf ht, lost_iff ht, hstore, hshown]
      exact losses_settle h hf ht

theorem losses_timer (h : Remembers xs s) (hs : finish {} xs = s) :
    (Lost s (s.next (.timer n)) → Caused xs (.timer n)) ↔ Orderly s (.timer n) := by
  cases hw : s.timer? n with
  | none =>
    have hnext : s.next (.timer n) = s := by rw [Page.next, hw]
    refine iff_of_true (fun hlost => ?_) fun w t hsome => ?_
    · exact absurd hlost (not_lost (congrArg (·.store.currentTransaction) hnext))
    · cases hw.symm.trans hsome
  | some w =>
    have hnumber : w.number = n := by simpa using List.find?_some hw
    have hstarted := h.timers w (List.mem_of_find?_eq_some hw)
    rw [hnumber] at hstarted
    have hgone : (s.next (.timer n)).store.currentTransaction = none := by
      rw [Page.next, hw]
      rfl
    cases ht : s.store.currentTransaction with
    | none =>
      refine iff_of_true (fun hlost => ?_) fun w t _ ht' => ?_
      · obtain ⟨t, ht', -⟩ := hlost
        cases ht.symm.trans ht'
      · cases ht.symm.trans ht'
    | some t =>
      have hcaused : Caused xs (.timer n) ↔ w.shown = some t.row.id := by
        rw [Caused, hstarted, hs, GateStore.shown, ht, Option.map_some, Option.some.injEq]
      rw [hcaused, lost_iff ht, hgone]
      constructor
      · intro hshown w' t' hw' ht'
        obtain rfl := Option.some.inj (hw.symm.trans hw')
        obtain rfl := Option.some.inj (ht.symm.trans ht')
        exact hshown (Option.some_ne_none t).symm
      · exact fun horderly _ => horderly w t hw ht

theorem losses_step (h : Remembers xs s) (hs : finish {} xs = s) :
    (Lost s (s.next e) → Caused xs e) ↔ Orderly s e := by
  rcases current_next xs s e with ⟨n, a, rfl⟩ | ⟨n, rfl⟩ | ⟨horderly, hcaused | hkept⟩
  · exact losses_answer h hs
  · exact losses_timer h hs
  · exact iff_of_true (fun _ => hcaused) horderly
  · exact iff_of_true (fun hlost => absurd hlost (not_lost hkept)) horderly

/-- The vehicle is only taken off the screen by what may do so, exactly if all answers and timers
come in order. -/
theorem lossesCaused_iff (h : Path PageStep {} xs) :
    LossesCaused xs ↔ Path (fun s e _ => Orderly s e) {} xs := by
  constructor
  · intro hcaused
    refine path_of_split fun pre e s post heq => ?_
    obtain ⟨hpre, rfl, -⟩ := path_append.mp (heq ▸ h)
    exact (losses_step (remembers_run hpre) rfl).mp (hcaused pre e _ post heq)
  · rintro horderly pre e s post rfl
    obtain ⟨hpre, rfl, -⟩ := path_append.mp h
    exact (losses_step (remembers_run hpre) rfl).mpr (path_append.mp horderly).2.1

def ticketStay : ParkingTransaction := { id := 1, barcode := some "T1", entryTime := ⟨0, 0⟩ }

def nextStay : ParkingTransaction := { id := 2, barcode := some "T2", entryTime := ⟨0, 0⟩ }

def scan (barcode : String) : Event := .call (.lookupTransaction (some barcode) none none)

def found (number : Nat) (t : ParkingTransaction) : Event :=
  .answer number (.lookup true (some t) (some 3000))

/-- A car is looked up, and the gate is opened for it. -/
def visit : List Event :=
  [scan "T1", found 0 ticketStay, .call (.openGate 1), .answer 1 (.control true)]

theorem lossesCaused_visit : LossesCaused (trace Page.next {} visit) := by
  refine (lossesCaused_iff (trace_path Page.next {} visit)).mpr ⟨trivial, ?_, trivial, ?_, trivial⟩
  · intro f t _ ht
    cases ht
  · intro f t hf ht
    obtain rfl := Option.some.inj hf
    obtain rfl := Option.some.inj ht
    refine ⟨fun hlookup => ?_, fun _ _ => rfl⟩
    cases hlookup

/-- The first car pays by e-money and leaves, and within three seconds the second one is there. -/
def twoVisits : List Event :=
  [scan "T1", found 0 ticketStay, .handleWsEvent (.deductResult "SUCCESS"),
    .handleWsEvent .vehiclePassed, scan "T2", found 1 nextStay]

/-- The timer of the first car takes the second one off the screen. -/
theorem timer_late : let xs := trace Page.next {} twoVisits
    Path PageStep {} (xs ++ [(.timer 0, (finish {} xs).next (.timer 0))]) ∧
      Lost (finish {} xs) ((finish {} xs).next (.timer 0)) ∧ ¬ Caused xs (.timer 0) := by
  intro xs
  refine ⟨path_append.mpr ⟨trace_path Page.next {} twoVisits, rfl, trivial⟩, ?_, ?_⟩
  · exact ⟨_, rfl, (Option.some_ne_none _).symm⟩
  · intro hcaused
    have hshown := Option.some.inj hcaused
    revert hshown
    decide

end Losses

end ParkIt.Frontend
