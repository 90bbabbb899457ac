import Mathlib.Order.Lattice
import Mathlib.Data.List.Pairwise
import Mathlib.Data.List.Nodup

/-! A stream that one consumer group reads: what it has not been given, and what is pending. -/
namespace ConsumerGroup

variable {Id Body Name : Type} [LinearOrder Id]

/-- Where a read starts: at what the group has not been given, or among what one consumer still
has to acknowledge. -/
inductive ReadFrom (Id : Type) where
  | new
  | pending (after : Option Id)

/-- The entries, the newest one that the group has been given, and the ones that have been given
to a consumer and are not acknowledged. -/
structure Stream (Id Body Name : Type) [LinearOrder Id] where
  entries : List (Id × Body)
  last : Option Id
  pending : List (Id × Name)
  ordered : entries.Pairwise fun a b => a.1 < b.1
  given : ∀ p ∈ pending, ∃ l ∈ last, p.1 ≤ l

namespace Stream

def empty : Stream Id Body Name := ⟨[], none, [], .nil, by simp⟩

section Operations
variable (s : Stream Id Body Name)

def pendingIds : List Id := s.pending.map Prod.fst

def undelivered : List (Id × Body) := s.entries.filter fun e => s.last.all (· < e.1)

theorem ordered_add {id : Id} (body : Body) (h : ∀ e ∈ s.entries, e.1 < id) :
    (s.entries ++ [(id, body)]).Pairwise fun a b => a.1 < b.1 := by
  refine List.pairwise_append.mpr ⟨s.ordered, List.pairwise_singleton _ _, fun a ha b hb => ?_⟩
  rw [List.mem_singleton.mp hb]
  exact h a ha

/-- An entry gets an identifier that is greater than every earlier one. -/
def add (id : Id) (body : Body) (h : ∀ e ∈ s.entries, e.1 < id) : Stream Id Body Name :=
  { s with entries := s.entries ++ [(id, body)], ordered := s.ordered_add body h }

/-- The newest identifier after some entries have been given as well. -/
def newest (es : List (Id × Body)) : Option Id := (es.getLast?.map Prod.fst).or s.last

def newPending (name : Name) (es : List (Id × Body)) : List (Id × Name) :=
  s.pending ++ es.map fun e => (e.1, name)

theorem undelivered_newer {e : Id × Body} (he : e ∈ s.undelivered) {l : Id} (hl : l ∈ s.last) :
    l < e.1 := by
  have hall := (List.mem_filter.mp he).2
  rw [Option.mem_def.mp hl] at hall
  exact of_decide_eq_true hall

theorem ordered_undelivered (n : Nat) :
    (s.undelivered.take n).Pairwise fun a b => a.1 < b.1 :=
  (s.ordered.sublist List.filter_sublist).sublist (List.take_sublist n _)

theorem given_read (name : Name) (n : Nat) :
    ∀ p ∈ s.newPending name (s.undelivered.take n),
      ∃ l ∈ s.newest (s.undelivered.take n), p.1 ≤ l := by
  intro p hp
  have hsorted := s.ordered_undelivered n
  have hnewer : ∀ e ∈ s.undelivered.take n, ∀ l ∈ s.last, l < e.1 :=
    fun e he l hl => s.undelivered_newer (List.mem_of_mem_take he) hl
  generalize s.undelivered.take n = es at hp hsorted hnewer ⊢
  rcases List.eq_nil_or_concat es with rfl | ⟨before, e, rfl⟩
  · exact s.given p (by simpa [newPending] using hp)
  · rw [List.concat_eq_append] at hp hsorted hnewer ⊢
    refine ⟨e.1, by simp [newest], ?_⟩
    rcases List.mem_append.mp hp with hp | hp
    · obtain ⟨l, hl, hle⟩ := s.given p hp
      exact hle.trans (hnewer e (by simp) l hl).le
    · obtain ⟨a, ha, rfl⟩ := List.mem_map.mp hp
      rcases List.mem_append.mp ha with ha | ha
      · exact ((List.pairwise_append.mp hsorted).2.2 a ha e (by simp)).le
      · rw [List.mem_singleton.mp ha]

/-- A read by a consumer: of what is new, which becomes pending, or again of what is pending. -/
def read [DecidableEq Name] (name : Name) : ReadFrom Id → Nat →
    List (Id × Body) × Stream Id Body Name
  | .new, n =>
    (s.undelivered.take n,
      { s with
        last := s.newest (s.undelivered.take n)
        pending := s.newPending name (s.undelivered.take n)
        given := s.given_read name n })
  | .pending after, n =>
    let own := s.pending.filter fun p => p.2 = name ∧ after.all (· < p.1)
    ((own.filterMap fun p => s.entries.find? (·.1 = p.1)).take n, s)

def ack (id : Id) : Stream Id Body Name :=
  { s with
    pending := s.pending.filter (·.1 ≠ id)
    given := fun p hp => s.given p (List.mem_of_mem_filter hp) }

end Operations

section Lemmas
variable {s : Stream Id Body Name} {name : Name} {n : Nat} {i id : Id}

@[simp] theorem mem_pendingIds_ack :
    i ∈ (s.ack id).pendingIds ↔ i ∈ s.pendingIds ∧ i ≠ id := by
  simp only [pendingIds, ack, List.mem_map, List.mem_filter]
  constructor
  · rintro ⟨p, ⟨hp, hne⟩, rfl⟩
    exact ⟨⟨p, hp, rfl⟩, by simpa using hne⟩
  · rintro ⟨⟨p, hp, rfl⟩, hne⟩
    exact ⟨p, ⟨hp, by simpa using hne⟩, rfl⟩

variable [DecidableEq Name]

/-- A read of what is new gives nothing that is pending. -/
theorem read_not_pending (name : Name) (h : id ∈ s.pendingIds) :
    id ∉ (s.read name .new n).1.map Prod.fst := by
  intro hread
  obtain ⟨p, hp, rfl⟩ := List.mem_map.mp h
  obtain ⟨e, he, heq⟩ := List.mem_map.mp hread
  obtain ⟨l, hl, hle⟩ := s.given p hp
  have hlt := s.undelivered_newer (List.mem_of_mem_take he) hl
  rw [heq] at hlt
  exact not_lt.mpr hle hlt

theorem read_nodup (name : Name) : ((s.read name .new n).1.map Prod.fst).Nodup :=
  List.pairwise_map.mpr ((s.ordered_undelivered n).imp ne_of_lt)

theorem pendingIds_read (name : Name) :
    (s.read name .new n).2.pendingIds = s.pendingIds ++ (s.read name .new n).1.map Prod.fst := by
  simp [pendingIds, read, newPending, Function.comp_def]

end Lemmas
end Stream

/-- What a group does with its entries over time. -/
inductive Event (Id : Type) where
  | delivered (id : Id)
  | acked (id : Id)
deriving DecidableEq

/-- The entry is acknowledged or delivered. -/
def Resolved (id : Id) (history : List (Event Id)) : Prop :=
  .acked id ∈ history ∨ .delivered id ∈ history

/-- Every delivery is followed by an acknowledgement or by another delivery of the entry. -/
def Redelivered {Id : Type} : List (Event Id) → Prop
  | [] => True
  | .delivered id :: history => Resolved id history ∧ Redelivered history
  | .acked _ :: history => Redelivered history

def decidableRedelivered : (history : List (Event Id)) → Decidable (Redelivered history)
  | [] => .isTrue trivial
  | .delivered _ :: history =>
    have := decidableRedelivered history
    inferInstanceAs (Decidable ((_ ∈ history ∨ _ ∈ history) ∧ Redelivered history))
  | .acked _ :: history => decidableRedelivered history

instance (history : List (Event Id)) : Decidable (Redelivered history) :=
  decidableRedelivered history

section Histories
variable {Id : Type} {id : Id} {ids : List Id} {history : List (Event Id)}

theorem resolved_deliveries (h : id ∉ ids) :
    Resolved id (ids.map .delivered ++ history) ↔ Resolved id history := by
  simp [Resolved, h]

/-- Several entries are delivered at once. -/
theorem redelivered_deliveries (h : ids.Nodup) :
    Redelivered (ids.map .delivered ++ history) ↔
      (∀ id ∈ ids, Resolved id history) ∧ Redelivered history := by
  induction ids with
  | nil => simp
  | cons i ids ih =>
    obtain ⟨hi, hnodup⟩ := List.nodup_cons.mp h
    change Resolved i (ids.map .delivered ++ history) ∧
      Redelivered (ids.map .delivered ++ history) ↔ _
    rw [resolved_deliveries hi, ih hnodup, List.forall_mem_cons, and_assoc]

end Histories
end ConsumerGroup
