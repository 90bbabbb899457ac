import ParkIt.Bridge.Clients

/-! The keys that the card reader types, and the cards that the poller reads from them. -/
namespace ParkIt.Bridge

inductive Key where
  | digit (d : Char)
  | enter
  /-- What the loop passes over: other keys, releases of keys, other kinds of events. -/
  | other
deriving DecidableEq, Repr

structure KeyEvent where
  key : Key
  /-- When it is put in the queue. -/
  pressedAt : Nat
deriving DecidableEq, Repr

/-- The loop of `_run` over the events of the device, at its head, and what it has flushed. -/
structure ReadLoop where
  now : Nat := 0
  buffer : List Char := []
  lastDigitAt : Option Nat := none
  flushed : List (List Char) := []
deriving DecidableEq, Repr

section Loop
variable (flushIdle : Nat) (busy : Nat → Nat)

namespace ReadLoop

/-- The loop waits for its `n`th buffer to be processed, which takes `busy n`. -/
def flushAt (s : ReadLoop) (t : Nat) : ReadLoop where
  now := t + busy s.flushed.length
  flushed := s.flushed ++ [s.buffer]

def timeout (s : ReadLoop) : Option Nat :=
  if s.buffer = [] then none
  else s.lastDigitAt.map fun last => flushIdle - (s.now - last)

/-- The loop waits for an event that is put in the queue at `t`. A timeout of zero does not look at
the queue, and once the buffer is flushed the loop waits without a timeout. -/
def awaitUntil (s : ReadLoop) (t : Nat) : ReadLoop :=
  match s.timeout flushIdle with
  | none => s
  | some w => if s.now + w ≤ max s.now t then s.flushAt busy (s.now + w) else s

def take (s : ReadLoop) (e : KeyEvent) : ReadLoop :=
  let now := max s.now e.pressedAt
  match e.key with
  | .digit d => { s with now, buffer := s.buffer ++ [d], lastDigitAt := some now }
  | .enter => if s.buffer = [] then { s with now } else s.flushAt busy now
  | .other => { s with now }

/-- The loop over all events, until it waits without a timeout. -/
def read : ReadLoop → List KeyEvent → ReadLoop
  | s, [] =>
    match s.timeout flushIdle with
    | none => s
    | some w => s.flushAt busy (s.now + w)
  | s, e :: es => read ((s.awaitUntil flushIdle busy e.pressedAt).take busy e) es

end ReadLoop
end Loop

/-- The card that a flushed buffer hands to `handleCard`. -/
def Poller.cardNumber? (cfg : Poller) (buffer : List Char) : Option String :=
  if buffer.length < cfg.minCardLen then none else some (String.ofList buffer)

theorem Poller.flushBuffer_card {cfg : Poller} {buffer : List Char} {card : String}
    (h : cfg.cardNumber? buffer = some card) (slots : Nat) :
    cfg.flushBuffer slots buffer = cfg.handleCard slots card := by
  unfold Poller.cardNumber? at h
  unfold Poller.flushBuffer
  split at h
  · cases h
  · rename_i hlong
    rw [if_neg hlong, Option.some.inj h]

theorem Poller.flushBuffer_none {cfg : Poller} {buffer : List Char}
    (h : cfg.cardNumber? buffer = none) (slots : Nat) :
    cfg.flushBuffer slots buffer =
      if cfg.minInvalidFeedbackLen ≤ buffer.length then
        broadcast (.cardScanned (cfg.tooShort (String.ofList buffer))) slots
      else pure () := by
  unfold Poller.cardNumber? at h
  unfold Poller.flushBuffer
  split at h
  · rename_i hshort
    exact if_pos hshort
  · cases h

/-- The card numbers of the flushed buffers. -/
def Poller.handed (cfg : Poller) (flushed : List (List Char)) : List String :=
  flushed.filterMap cfg.cardNumber?

/-- A card as it is typed: when its first and its last digit are pressed, and the ENTER that
follows it. -/
structure Tap where
  digits : List Char
  digits_ne : digits ≠ []
  first : Nat
  last : Nat
  enter : Option Nat

def Tap.start (d : Char) (t : Nat) : Tap where
  digits := [d]
  digits_ne := List.cons_ne_nil d []
  first := t
  last := t
  enter := none

def Tap.press (c : Tap) (d : Char) (t : Nat) : Tap :=
  { c with digits := c.digits ++ [d], digits_ne := List.concat_ne_nil d c.digits, last := t }

section Taps
variable (flushIdle : Nat)

/-- The cards of the events: a digit less than `flushIdle` after the last one is of the same card,
unless ENTER is pressed in between. -/
def taps : Option Tap → List KeyEvent → List Tap
  | none, [] => []
  | some c, [] => [c]
  | cur, e :: es =>
    match e.key, cur with
    | .digit d, none => taps (some (.start d e.pressedAt)) es
    | .digit d, some c =>
      if e.pressedAt < c.last + flushIdle then taps (some (c.press d e.pressedAt)) es
      else c :: taps (some (.start d e.pressedAt)) es
    | .enter, none => taps none es
    | .enter, some c => { c with enter := some e.pressedAt } :: taps none es
    | .other, cur => taps cur es

section Equations
variable {cur : Option Tap} {c : Tap} {d : Char} {t : Nat} {es : List KeyEvent}

@[simp] theorem taps_start : taps flushIdle none (⟨.digit d, t⟩ :: es) =
    taps flushIdle (some (.start d t)) es := rfl

theorem taps_press (h : t < c.last + flushIdle) :
    taps flushIdle (some c) (⟨.digit d, t⟩ :: es) = taps flushIdle (some (c.press d t)) es :=
  if_pos h

theorem taps_next (h : ¬ t < c.last + flushIdle) :
    taps flushIdle (some c) (⟨.digit d, t⟩ :: es) =
      c :: taps flushIdle (some (.start d t)) es := if_neg h

@[simp] theorem taps_enter_none : taps flushIdle none (⟨.enter, t⟩ :: es) =
    taps flushIdle none es := rfl

@[simp] theorem taps_enter_some : taps flushIdle (some c) (⟨.enter, t⟩ :: es) =
    { c with enter := some t } :: taps flushIdle none es := rfl

@[simp] theorem taps_other : taps flushIdle cur (⟨.other, t⟩ :: es) = taps flushIdle cur es := by
  cases cur <;> rfl

end Equations

namespace Tap

/-- The last digit of a card is taken when it is pressed, or when the poller is free. -/
def taken (c : Tap) (free : Nat) : Nat := max c.last free

/-- The poller, free from `free` on, has taken the next card's first digit before the time since the
last digit of this one is up. -/
def Joined (c : Tap) (free : Nat) (next : Option Tap) : Prop :=
  c.enter = none ∧ ∃ d ∈ next, max d.first (c.taken free) < c.taken free + flushIdle

instance (c : Tap) (free : Nat) (next : Option Tap) : Decidable (c.Joined flushIdle free next) :=
  inferInstanceAs (Decidable (c.enter = none ∧
    ∃ d ∈ next, max d.first (c.taken free) < c.taken free + flushIdle))

/-- When the buffer that ends with this card is flushed. -/
def flushedAt (c : Tap) (free : Nat) : Nat :=
  c.enter.elim (c.taken free + flushIdle) fun t =>
    min (max t (c.taken free)) (c.taken free + flushIdle)

end Tap

variable (busy : Nat → Nat)

/-- The cards in groups that the poller cannot tell apart. It is free from `free` on, when `n`
buffers have been processed. -/
def groups : (free n : Nat) → (group cards : List Tap) → List (List Tap)
  | _, _, _, [] => []
  | free, n, group, c :: cards =>
    if c.Joined flushIdle free cards.head? then groups free n (group ++ [c]) cards
    else (group ++ [c]) :: groups (c.flushedAt flushIdle free + busy n) (n + 1) [] cards

end Taps
end ParkIt.Bridge
