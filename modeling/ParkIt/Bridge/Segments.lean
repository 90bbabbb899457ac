import ParkIt.Bridge.Exits
import ParkIt.Bridge.Taps
import ParkIt.Lib.Merging

/-! Which card numbers the poller reads from the keys, however long the cards take. -/
namespace ParkIt.Bridge

open Merging

section Reads
variable {flushIdle : Nat} {busy : Nat → Nat} {now n free t : Nat} {cur : Option Tap} {c : Tap}
  {d : Char} {group cards : List Tap} {past : List (List Char)} {s : ReadLoop} {es : List KeyEvent}

/-- The digits of the cards, one after the other. -/
def typed (group : List Tap) : List Char := (group.map Tap.digits).flatten

theorem typed_append (cs : List Tap) : typed (group ++ cs) = typed group ++ typed cs := by
  rw [typed, List.map_append, List.flatten_append]
  rfl

theorem typed_one : typed [c] = c.digits := List.append_nil c.digits

theorem typed_press : typed (group ++ [c.press d t]) = typed (group ++ [c]) ++ [d] := by
  rw [typed_append, typed_append, typed_one, typed_one, List.append_assoc]
  rfl

theorem typed_start : typed (group ++ [c] ++ [.start d t]) = typed (group ++ [c]) ++ [d] := by
  rw [typed_append, typed_one]
  rfl

theorem typed_enter : typed (group ++ [{ c with enter := some t }]) = typed (group ++ [c]) := by
  rw [typed_append, typed_append]
  rfl

theorem typed_ne : typed (group ++ [c]) ≠ [] := by
  rw [typed_append, typed_one]
  exact List.append_ne_nil_of_right_ne_nil _ c.digits_ne

variable (flushIdle busy) in
/-- The loop at `now`, after the events until then: the buffers in `past` are flushed, the group
that the current card joins has begun when the poller was free from `free` on. -/
inductive Tracks (now : Nat) (past : List (List Char)) (free : Nat) :
    List Tap → Option Tap → ReadLoop → Prop
  | between {s : ReadLoop} (hbuffer : s.buffer = []) (hflushed : s.flushed = past)
      (hfree : free ≤ s.now) (hnow : s.now ≤ max free now) : Tracks now past free [] none s
  | typing {group : List Tap} {c : Tap} {s : ReadLoop} (hbuffer : s.buffer = typed (group ++ [c]))
      (hlast : s.lastDigitAt = some (c.taken free)) (hflushed : s.flushed = past)
      (henter : c.enter = none) (hpressed : c.last ≤ now) (htaken : c.taken free ≤ s.now)
      (hidle : s.now = c.taken free ∨ s.now < c.taken free + flushIdle)
      (hnow : s.now ≤ max (c.taken free) now) : Tracks now past free group (some c) s
  | timedOut {group : List Tap} {c : Tap} {s : ReadLoop} (hbuffer : s.buffer = [])
      (hflushed : s.flushed = past ++ [typed (group ++ [c])]) (henter : c.enter = none)
      (hpressed : c.last ≤ now) (hidle : c.taken free + flushIdle ≤ max (c.taken free) now)
      (hfree : c.taken free + flushIdle + busy past.length ≤ s.now)
      (hnow : s.now ≤ max (c.taken free + flushIdle + busy past.length) now) :
      Tracks now past free group (some c) s

theorem timeout_empty (h : s.buffer = []) : s.timeout flushIdle = none := if_pos h

theorem timeout_typing {last : Nat} (h : s.buffer ≠ []) (hlast : s.lastDigitAt = some last) :
    s.timeout flushIdle = some (flushIdle - (s.now - last)) := by
  rw [ReadLoop.timeout, if_neg h, hlast]
  rfl

/-- The time since the last digit is up at the same instant, whenever the loop has looked at it. -/
theorem timeout_ends (h : s.buffer = typed (group ++ [c]))
    (hlast : s.lastDigitAt = some (c.taken free)) (htaken : c.taken free ≤ s.now)
    (hidle : s.now = c.taken free ∨ s.now < c.taken free + flushIdle) :
    ∃ w, s.timeout flushIdle = some w ∧ s.now + w = c.taken free + flushIdle := by
  refine ⟨_, timeout_typing (h ▸ typed_ne) hlast, ?_⟩
  omega

theorem await_empty (h : s.buffer = []) : s.awaitUntil flushIdle busy t = s := by
  rw [ReadLoop.awaitUntil, timeout_empty h]

/-- The next event comes at `t`: the time is up first, or the event is taken. -/
theorem tracks_await (h : Tracks flushIdle busy now past free group cur s) (hle : now ≤ t) :
    Tracks flushIdle busy t past free group cur (s.awaitUntil flushIdle busy t) ∧
      ((s.awaitUntil flushIdle busy t).buffer ≠ [] → ∀ c ∈ cur,
        max t (c.taken free) < c.taken free + flushIdle) := by
  cases h with
  | between hbuffer hflushed hfree hnow =>
    rw [await_empty hbuffer]
    exact ⟨.between hbuffer hflushed hfree (by omega), fun h => absurd hbuffer h⟩
  | @typing group c _ hbuffer hlast hflushed henter hpressed htaken hidle hnow =>
    obtain ⟨w, hw, hends⟩ := timeout_ends hbuffer hlast htaken hidle
    simp only [ReadLoop.awaitUntil, hw, hends]
    split
    · refine ⟨.timedOut rfl ?_ henter (hpressed.trans hle) (by omega) ?_ ?_, fun h => absurd rfl h⟩
      · rw [ReadLoop.flushAt, hflushed, hbuffer]
      · rw [ReadLoop.flushAt, hflushed]
      · rw [ReadLoop.flushAt, hflushed]
        exact Nat.le_max_left ..
    · rename_i hin
      refine ⟨.typing hbuffer hlast hflushed henter (hpressed.trans hle) htaken hidle (by omega),
        fun _ c' hc => ?_⟩
      obtain rfl := Option.some.inj hc
      omega
  | timedOut hbuffer hflushed henter hpressed hidle hfree hnow =>
    rw [await_empty hbuffer]
    exact ⟨.timedOut hbuffer hflushed henter (hpressed.trans hle) (by omega) hfree (by omega),
      fun h => absurd hbuffer h⟩

theorem groups_joined (h : c.Joined flushIdle free cards.head?) :
    groups flushIdle busy free n group (c :: cards) =
      groups flushIdle busy free n (group ++ [c]) cards := if_pos h

theorem groups_apart (h : ¬ c.Joined flushIdle free cards.head?) :
    groups flushIdle busy free n group (c :: cards) = (group ++ [c]) ::
      groups flushIdle busy (c.flushedAt flushIdle free + busy n) (n + 1) [] cards := if_neg h

variable (flushIdle) in
/-- However the current card goes on, it has begun when it began. -/
theorem taps_first (c : Tap) (es : List KeyEvent) :
    ∃ c', (taps flushIdle (some c) es).head? = some c' ∧ c'.first = c.first := by
  induction es generalizing c with
  | nil => exact ⟨c, rfl, rfl⟩
  | cons e es ih =>
    obtain ⟨key, t⟩ := e
    cases key with
    | digit d =>
      by_cases hin : t < c.last + flushIdle
      · rw [taps_press flushIdle hin]
        exact ih (c.press d t)
      · rw [taps_next flushIdle hin]
        exact ⟨c, rfl, rfl⟩
    | enter => exact ⟨_, rfl, rfl⟩
    | other =>
      rw [taps_other]
      exact ih c

theorem joined_start_iff (henter : c.enter = none) :
    c.Joined flushIdle free (taps flushIdle (some (.start d t)) es).head? ↔
      max t (c.taken free) < c.taken free + flushIdle := by
  obtain ⟨c', hhead, hfirst⟩ := taps_first flushIdle (.start d t) es
  rw [Tap.Joined, hhead, and_iff_right henter]
  constructor
  · rintro ⟨c'', hc, hin⟩
    obtain rfl := Option.some.inj hc
    rwa [hfirst] at hin
  · intro hin
    exact ⟨c', rfl, by rwa [hfirst]⟩

variable (flushIdle busy) in
/-- What the loop flushes from here on are the groups of the cards that are typed. -/
def Follows (now : Nat) (es : List KeyEvent) : Prop :=
  ∀ {past free group cur s}, Tracks flushIdle busy now past free group cur s →
    (s.read flushIdle busy es).flushed =
      past ++ (groups flushIdle busy free past.length group (taps flushIdle cur es)).map typed

theorem not_joined_none : ¬ c.Joined flushIdle free none := by
  rintro ⟨-, d, hd, -⟩
  cases hd

theorem not_joined_enter {next : Option Tap} :
    ¬ ({ c with enter := some t } : Tap).Joined flushIdle free next := by
  rintro ⟨h, -⟩
  cases h

theorem follows_nil : Follows flushIdle busy now [] := by
  intro past free group cur s h
  cases h with
  | between hbuffer hflushed hfree hnow =>
    rw [ReadLoop.read, timeout_empty hbuffer]
    exact hflushed.trans (List.append_nil past).symm
  | typing hbuffer hlast hflushed henter hpressed htaken hidle hnow =>
    obtain ⟨w, hw, hends⟩ := timeout_ends hbuffer hlast htaken hidle
    rw [ReadLoop.read, hw, taps, groups_apart not_joined_none]
    change s.flushed ++ [s.buffer] = _
    rw [hflushed, hbuffer]
    rfl
  | timedOut hbuffer hflushed henter hpressed hidle hfree hnow =>
    rw [ReadLoop.read, timeout_empty hbuffer, taps, groups_apart not_joined_none]
    exact hflushed

/-- The buffer of a group is flushed, and the next group begins. -/
theorem follows_flushed {k : Nat} {rest : List (List Tap)}
    (h : s.flushed = past ++ [typed group] ++
      (groups flushIdle busy k (past ++ [typed group]).length [] cards).map typed)
    (hrest : rest = group :: groups flushIdle busy k (past.length + 1) [] cards) :
    s.flushed = past ++ rest.map typed := by
  rw [h, hrest, List.length_append, List.append_assoc]
  rfl

/-- A digit has been taken that makes the current card what it is. -/
theorem tracks_digit (hbuffer : s.buffer ++ [d] = typed (group ++ [c]))
    (hflushed : s.flushed = past)
    (henter : c.enter = none) (hpressed : c.last = t) (htaken : max s.now t = c.taken free) :
    Tracks flushIdle busy t past free group (some c) (s.take busy ⟨.digit d, t⟩) :=
  .typing hbuffer (congrArg some htaken) hflushed henter hpressed.le htaken.ge (.inl htaken)
    (htaken.le.trans (Nat.le_max_left ..))

theorem take_empty (h : s.buffer = []) :
    s.take busy ⟨.enter, t⟩ = { s with now := max s.now t } := if_pos h

theorem take_enter (h : s.buffer ≠ []) :
    s.take busy ⟨.enter, t⟩ = s.flushAt busy (max s.now t) := if_neg h

theorem flushedAt_enter : ({ c with enter := some t } : Tap).flushedAt flushIdle free =
    min (max t (c.taken free)) (c.taken free + flushIdle) := rfl

section Events
variable (hnext : Follows flushIdle busy t es)
  (hawait : s.buffer ≠ [] → ∀ c ∈ cur, max t (c.taken free) < c.taken free + flushIdle)
  (h : Tracks flushIdle busy t past free group cur s)
include hnext hawait h

theorem follows_digit :
    ((s.take busy ⟨.digit d, t⟩).read flushIdle busy es).flushed = past ++
      (groups flushIdle busy free past.length group (taps flushIdle cur (⟨.digit d, t⟩ :: es))).map
        typed := by
  cases h with
  | between hbuffer hflushed hfree hnow =>
    rw [taps_start]
    refine hnext (tracks_digit ?_ hflushed rfl rfl ?_)
    · rw [hbuffer]
      rfl
    · change _ = max t free
      omega
  | @typing group c _ hbuffer hlast hflushed henter hpressed htaken hidle hnow =>
    have hin := hawait (hbuffer ▸ typed_ne) c rfl
    have htime : max s.now t = max t free := by
      unfold Tap.taken at *
      omega
    by_cases hsame : t < c.last + flushIdle
    · rw [taps_press flushIdle hsame]
      exact hnext (tracks_digit (hbuffer ▸ typed_press.symm) hflushed henter rfl htime)
    · rw [taps_next flushIdle hsame, groups_joined ((joined_start_iff henter).mpr hin)]
      exact hnext (tracks_digit (hbuffer ▸ typed_start.symm) hflushed rfl rfl htime)
  | @timedOut group c _ hbuffer hflushed henter hpressed hidle hfree hnow =>
    have hnot : ¬ t < c.last + flushIdle := by
      unfold Tap.taken at hidle
      omega
    have hapart : ¬ c.Joined flushIdle free (taps flushIdle (some (.start d t)) es).head? := by
      rw [joined_start_iff henter]
      omega
    rw [taps_next flushIdle hnot]
    refine follows_flushed (hnext (tracks_digit ?_ hflushed rfl rfl ?_)) (groups_apart hapart)
    · rw [hbuffer]
      rfl
    · rw [Tap.flushedAt, henter]
      change _ = max t (c.taken free + flushIdle + busy past.length)
      omega

theorem follows_enter :
    ((s.take busy ⟨.enter, t⟩).read flushIdle busy es).flushed = past ++
      (groups flushIdle busy free past.length group (taps flushIdle cur (⟨.enter, t⟩ :: es))).map
        typed := by
  cases h with
  | between hbuffer hflushed hfree hnow =>
    rw [taps_enter_none, take_empty hbuffer]
    refine hnext (.between hbuffer hflushed ?_ ?_)
    · exact hfree.trans (Nat.le_max_left ..)
    · change max s.now t ≤ max free t
      omega
  | @typing group c _ hbuffer hlast hflushed henter hpressed htaken hidle hnow =>
    have hne : s.buffer ≠ [] := hbuffer ▸ typed_ne
    have hin := hawait hne c rfl
    have htime : max s.now t = max t (c.taken free) := by omega
    rw [taps_enter_some, take_enter hne]
    refine follows_flushed (hnext (.between rfl ?_ ?_ ?_)) (groups_apart not_joined_enter)
    · rw [ReadLoop.flushAt, hflushed, hbuffer, typed_enter]
    · rw [flushedAt_enter, ReadLoop.flushAt, hflushed]
      change _ ≤ max s.now t + busy past.length
      omega
    · rw [flushedAt_enter, ReadLoop.flushAt, hflushed]
      change max s.now t + busy past.length ≤ _
      omega
  | @timedOut group c _ hbuffer hflushed henter hpressed hidle hfree hnow =>
    rw [taps_enter_some, take_empty hbuffer]
    refine follows_flushed (hnext (.between hbuffer ?_ ?_ ?_)) (groups_apart not_joined_enter)
    · rw [typed_enter]
      exact hflushed
    · rw [flushedAt_enter]
      change _ ≤ max s.now t
      omega
    · rw [flushedAt_enter]
      change max s.now t ≤ _
      omega

theorem follows_other :
    ((s.take busy ⟨.other, t⟩).read flushIdle busy es).flushed = past ++
      (groups flushIdle busy free past.length group (taps flushIdle cur (⟨.other, t⟩ :: es))).map
        typed := by
  rw [taps_other]
  refine hnext ?_
  cases h with
  | between hbuffer hflushed hfree hnow =>
    refine .between hbuffer hflushed (hfree.trans (Nat.le_max_left ..)) ?_
    change max s.now t ≤ max free t
    omega
  | @typing group c _ hbuffer hlast hflushed henter hpressed htaken hidle hnow =>
    have hin := hawait (hbuffer ▸ typed_ne) c rfl
    refine .typing hbuffer hlast hflushed henter hpressed (htaken.trans (Nat.le_max_left ..))
      (.inr ?_) ?_
    · change max s.now t < _
      omega
    · change max s.now t ≤ _
      omega
  | @timedOut group c _ hbuffer hflushed henter hpressed hidle hfree hnow =>
    refine .timedOut hbuffer hflushed henter hpressed hidle (hfree.trans (Nat.le_max_left ..)) ?_
    change max s.now t ≤ _
    omega

end Events

theorem follows_sorted (hsorted : es.Pairwise fun e e' => e.pressedAt ≤ e'.pressedAt)
    (hafter : ∀ e ∈ es, now ≤ e.pressedAt) : Follows flushIdle busy now es := by
  induction es generalizing now with
  | nil => exact follows_nil
  | cons e es ih =>
    intro past free group cur s h
    obtain ⟨hfirst, hrest⟩ := List.pairwise_cons.mp hsorted
    have hnext : Follows flushIdle busy e.pressedAt es := ih hrest hfirst
    obtain ⟨htracks, hawait⟩ := tracks_await h (hafter e List.mem_cons_self)
    rw [ReadLoop.read]
    obtain ⟨key, t⟩ := e
    cases key with
    | digit d => exact follows_digit hnext hawait htracks
    | enter => exact follows_enter hnext hawait htracks
    | other => exact follows_other hnext hawait htracks

/-- The poller flushes the groups of cards that it cannot tell apart. -/
theorem read_flushed (hsorted : es.Pairwise fun e e' => e.pressedAt ≤ e'.pressedAt) :
    (({} : ReadLoop).read flushIdle busy es).flushed =
      (groups flushIdle busy 0 0 [] (taps flushIdle none es)).map typed :=
  follows_sorted hsorted (fun e _ => Nat.zero_le e.pressedAt)
    (.between rfl rfl (Nat.le_refl 0) (Nat.le_refl 0))

theorem groups_ne : ∀ g ∈ groups flushIdle busy free n group cards, g ≠ [] := by
  induction cards generalizing free n group with
  | nil => exact fun g hg => absurd hg List.not_mem_nil
  | cons c cards ih =>
    by_cases hjoined : c.Joined flushIdle free cards.head?
    · rw [groups_joined hjoined]
      exact ih
    · rw [groups_apart hjoined, List.forall_mem_cons]
      exact ⟨List.concat_ne_nil c group, ih⟩

/-- The groups are the cards in their order. -/
theorem groups_flatten (h : cards ≠ [] ∨ group = []) :
    (groups flushIdle busy free n group cards).flatten = group ++ cards := by
  induction cards generalizing free n group with
  | nil =>
    obtain rfl := h.resolve_left (not_not.mpr rfl)
    rfl
  | cons c cards ih =>
    by_cases hjoined : c.Joined flushIdle free cards.head?
    · have hmore : cards ≠ [] := by
        rintro rfl
        exact not_joined_none hjoined
      rw [groups_joined hjoined, ih (.inl hmore), List.append_assoc]
      rfl
    · rw [groups_apart hjoined, List.flatten_cons, ih (.inr rfl), List.append_assoc]
      rfl

variable {cfg : Poller}

theorem handed_eq (buffers : List (List Char)) :
    cfg.handed buffers = (long cfg.minCardLen buffers).map String.ofList := by
  induction buffers with
  | nil => rfl
  | cons b buffers ih =>
    rw [Poller.handed, List.filterMap_cons, Poller.cardNumber?, long, List.filter_cons]
    by_cases hshort : b.length < cfg.minCardLen
    · rw [if_pos hshort, if_neg fun hlong => Nat.not_le.mpr hshort (of_decide_eq_true hlong)]
      exact ih
    · rw [if_neg hshort, if_pos (decide_eq_true (Nat.le_of_not_lt hshort)), List.map_cons]
      exact congrArg (String.ofList b :: ·) ih

theorem handed_inj {bs cs : List (List Char)} : cfg.handed bs = cfg.handed cs ↔
    long cfg.minCardLen bs = long cfg.minCardLen cs := by
  have hinj : Function.Injective String.ofList := fun _ _ => String.ofList_injective
  rw [handed_eq, handed_eq, (List.map_injective_iff.mpr hinj).eq_iff]

variable (cfg busy) in
/-- The poller hands over the cards as they are typed, in their order and unmixed, exactly where
what it takes for one card is one card, or too short for one. -/
theorem handed_typed_iff (hsorted : es.Pairwise fun e e' => e.pressedAt ≤ e'.pressedAt) :
    cfg.handed (({} : ReadLoop).read flushIdle busy es).flushed =
        cfg.handed ((taps flushIdle none es).map Tap.digits) ↔
      ∀ group ∈ groups flushIdle busy 0 0 [] (taps flushIdle none es),
        Harmless cfg.minCardLen (group.map Tap.digits) := by
  rw [read_flushed hsorted, handed_inj]
  have hcards : (groups flushIdle busy 0 0 [] (taps flushIdle none es)).flatten =
      taps flushIdle none es := groups_flatten (.inr rfl)
  have hne : ∀ g ∈ groups flushIdle busy 0 0 [] (taps flushIdle none es), g ≠ [] := groups_ne
  generalize groups flushIdle busy 0 0 [] (taps flushIdle none es) = gs at hcards hne
  have hdigits : (taps flushIdle none es).map Tap.digits =
      (gs.map (List.map Tap.digits)).flatten := by
    rw [← hcards, List.map_flatten]
  have htyped : gs.map typed = (gs.map (List.map Tap.digits)).map List.flatten := by
    rw [List.map_map]
    rfl
  rw [hdigits, htyped, long_join_iff, List.forall_mem_map]
  · intro g hg
    obtain ⟨group, hgroup, rfl⟩ := List.mem_map.mp hg
    exact fun hnil => hne group hgroup (List.map_eq_nil_iff.mp hnil)
  · intro g hg b hb
    obtain ⟨group, -, rfl⟩ := List.mem_map.mp hg
    obtain ⟨c, -, rfl⟩ := List.mem_map.mp hb
    exact c.digits_ne

/-- The digits of a card, ten milliseconds apart. -/
def keys (start : Nat) (digits : List Char) : List KeyEvent :=
  digits.mapIdx fun i d => ⟨.digit d, start + 10 * i⟩

/-- Three cards, one a second, without ENTER. -/
def threeCards : List KeyEvent :=
  keys 0 "111111".toList ++ keys 1000 "222222".toList ++ keys 2000 "333333".toList

theorem threeCards_prompt :
    exitPoller.handed (({} : ReadLoop).read 200 (fun _ => 500) threeCards).flushed =
      exitPoller.handed ((taps 200 none threeCards).map Tap.digits) := by
  have hsorted : threeCards.Pairwise fun e e' => e.pressedAt ≤ e'.pressedAt := by decide
  exact (handed_typed_iff (fun _ => 500) exitPoller hsorted).mpr (by decide)

/-- The gate closes three seconds after the first card has opened it. -/
theorem threeCards_merged :
    exitPoller.handed (({} : ReadLoop).read 200 (fun _ => 3000) threeCards).flushed =
        ["111111", "222222333333"] ∧
      ¬ exitPoller.handed (({} : ReadLoop).read 200 (fun _ => 3000) threeCards).flushed =
        exitPoller.handed ((taps 200 none threeCards).map Tap.digits) := by
  decide

end Reads
end ParkIt.Bridge
