import ParkIt.Entries.Runs

/-! What is on record, and what a handler has behind it when it opens a gate. -/
namespace ParkIt.Entries

open Effects Sessions GateIn Transition UniqueIndex

section Records
variable {g : Note} {o : EntryOp} {ra : Option o.Ans} {n : Nat} {gateId : String} {w : Way}
  {cardNumber : String} {m : MemberRow} {day : Int}

theorem committed_record {origin : Origin} (h : .committed origin w ∈ g.record o ra) :
    (⟨o, ra⟩ : (o : EntryOp) × Option o.Ans) = ⟨.lane .commit, some true⟩ ∧
      g.origin = some origin ∧ g.phase = .stored w := by
  unfold Note.record at h
  split at h
  · simp at h
  · simp at h
  · simp at h
  · split at h
    · rename_i ho hp
      cases List.mem_singleton.mp h
      exact ⟨rfl, ho, hp⟩
    · simp at h
  · simp at h

theorem found_record (h : .found n cardNumber m ∈ g.record o ra) :
    (⟨o, ra⟩ : (o : EntryOp) × Option o.Ans) =
      ⟨.lane (.memberByCard cardNumber), some (some (some m))⟩ := by
  unfold Note.record at h
  split at h
  · simp at h
  · simp only [Option.mem_toList, Option.map_eq_some_iff] at h
    obtain ⟨_, -, he⟩ := h
    cases he
    rfl
  · simp at h
  · split at h <;> simp at h
  · simp at h

theorem dated_record (h : .dated n day ∈ g.record o ra) :
    (⟨o, ra⟩ : (o : EntryOp) × Option o.Ans) = ⟨.lane .today, some day⟩ := by
  unfold Note.record at h
  split at h
  · simp at h
  · simp at h
  · simp only [Option.mem_toList, Option.map_eq_some_iff] at h
    obtain ⟨_, -, he⟩ := h
    cases he
    rfl
  · split at h <;> simp at h
  · simp at h

/-- What has been looked at for a way in. -/
def Way.Looked (log : List Entry) (n : Nat) (event : Option GateIn.GateEvent) : Way → Prop
  | .ticket _ _ => event = some .ticketButtonPressed
  | .card _ cardNumber m day => (∃ channel, event = some (.rfidCardRead cardNumber channel)) ∧
      .found n cardNumber m ∈ log ∧ ∀ t ∈ day, .dated n t ∈ log

/-- What a handler has behind it. -/
def Note.Backed (log : List Entry) (g : Note) : Prop := ∀ n gateId, g.origin = some (n, gateId) →
  match g.phase with
  | .member gate cardNumber m day => (Way.card gate cardNumber m day).Looked log n g.event
  | .ready w | .stored w => w.Looked log n g.event ∧ w.Vetted
  | .committed w => w.Looked log n g.event ∧ w.Vetted ∧ .committed (n, gateId) w ∈ log
  | _ => True

theorem Way.Looked.mono {log log' : List Entry} {event : Option GateIn.GateEvent}
    (h : w.Looked log n event) (hlog : log ⊆ log') : w.Looked log' n event := by
  cases w with
  | ticket gate barcode => exact h
  | card gate cardNumber m day => exact ⟨h.1, hlog h.2.1, fun t ht => hlog (h.2.2 t ht)⟩

theorem Note.Backed.mono {log log' : List Entry} (h : g.Backed log) (hlog : log ⊆ log') :
    g.Backed log' := by
  intro n gateId ho
  have hg := h n gateId ho
  cases hp : g.phase with
  | member gate cardNumber m day =>
    rw [hp] at hg
    exact hg.mono hlog
  | ready w | stored w =>
    rw [hp] at hg
    exact ⟨hg.1.mono hlog, hg.2⟩
  | committed w =>
    rw [hp] at hg
    exact ⟨hg.1.mono hlog, hg.2.1, hlog hg.2.2⟩
  | _ => trivial

theorem backed_closed {log : List Entry} {p : Phase} (hp : p = .closed ∨ p = .exiting ∨
    p = .paying ∨ p = .begun ∨ ∃ gate, p = .found gate) :
    ({ g with phase := p } : Note).Backed log := by
  intro n gateId _
  rcases hp with rfl | rfl | rfl | rfl | ⟨gate, rfl⟩ <;> trivial

/-- A handler goes on with more behind it. -/
theorem backed_next {log : List Entry} {a : o.Ans} (hallow : g.Allows o) (hfair : Fair o a)
    (hg : g.Backed log) :
    ({ g with phase := g.phase.next o a } : Note).Backed (log ++ g.record o (some a)) := by
  have hstay : g.phase.next o a = g.phase →
      ({ g with phase := g.phase.next o a } : Note).Backed (log ++ g.record o (some a)) := by
    intro hsame
    rw [hsame]
    exact hg.mono (List.subset_append_left _ _)
  rcases o with o | o
  swap
  · exact hstay rfl
  cases o with
  | gateByCode =>
    have hp : g.phase = .begun := hallow
    refine backed_closed ?_
    rw [hp]
    rcases a with _ | _ | gate
    · exact Or.inl rfl
    · exact Or.inl rfl
    · exact Or.inr (Or.inr (Or.inr (Or.inr ⟨gate, rfl⟩)))
  | uuid =>
    obtain ⟨gate, hp, hevent⟩ := hallow
    have hnext : g.phase.next (.lane .uuid) a = .ready (.ticket gate a) := by rw [hp]; rfl
    rw [hnext]
    exact fun n gateId ho => ⟨hevent, hfair⟩
  | memberByCard cardNumber =>
    obtain ⟨gate, channel, hp, -, hevent⟩ := hallow
    rcases a with _ | _ | m
    · exact backed_closed (Or.inl (by rw [hp]; rfl))
    · exact backed_closed (Or.inl (by rw [hp]; rfl))
    · have hnext : g.phase.next (.lane (.memberByCard cardNumber)) (some (some m)) =
          .member gate cardNumber m none := by rw [hp]; rfl
      rw [hnext]
      intro n gateId ho
      refine ⟨⟨channel, hevent⟩, List.mem_append_right _ ?_, nofun⟩
      have ho : g.origin = some (n, gateId) := ho
      simp [Note.record, ho]
  | today =>
    cases hp : g.phase with
    | member gate cardNumber m day =>
      have hnext : g.phase.next (.lane .today) a = .member gate cardNumber m (some a) := by
        rw [hp]; rfl
      rw [← hp, hnext]
      intro n gateId ho
      have hold := hg n gateId ho
      rw [hp] at hold
      refine ⟨hold.1, List.mem_append_left _ hold.2.1, ?_⟩
      rintro _ ⟨⟩
      have ho : g.origin = some (n, gateId) := ho
      exact List.mem_append_right _ (by simp [Note.record, ho])
    | _ =>
      rw [← hp]
      exact hstay (by rw [hp]; rfl)
  | unclosed cardNumber =>
    obtain ⟨gate, card, m, day, hp, hvetted⟩ := hallow
    by_cases ha : a = some false
    · have hnext : g.phase.next (.lane (.unclosed cardNumber)) a =
          .ready (.card gate card m day) := by rw [hp, ha]; rfl
      rw [hnext]
      intro n gateId ho
      have hold := hg n gateId ho
      rw [hp] at hold
      exact ⟨hold.mono (List.subset_append_left _ _), hvetted⟩
    · exact backed_closed (Or.inl (by rw [hp]; exact if_neg ha))
  | createEntry e =>
    obtain ⟨w, hp, -, -⟩ := hallow
    cases a with
    | none => exact backed_closed (Or.inl (by rw [hp]; rfl))
    | some barcode =>
      have hnext : g.phase.next (.lane (.createEntry e)) (some barcode) = .stored w := by
        rw [hp]; rfl
      rw [hnext]
      intro n gateId ho
      have hold := hg n gateId ho
      rw [hp] at hold
      exact ⟨hold.1.mono (List.subset_append_left _ _), hold.2⟩
  | commit =>
    rcases hallow with hp | hp | ⟨w, hp⟩
    · exact hstay (by rw [hp]; rfl)
    · exact hstay (by rw [hp]; rfl)
    · cases a with
      | false => exact backed_closed (Or.inl (by rw [hp]; rfl))
      | true =>
        have hnext : g.phase.next (.lane .commit) true = .committed w := by rw [hp]; rfl
        rw [hnext]
        intro n gateId ho
        have ho : g.origin = some (n, gateId) := ho
        have hold := hg n gateId ho
        rw [hp] at hold
        refine ⟨hold.1.mono (List.subset_append_left _ _), hold.2, List.mem_append_right _ ?_⟩
        simp [Note.record, ho, hp]
  | processRfidPayment gateOutId cardNumber =>
    obtain ⟨gate, hp⟩ := hallow
    exact backed_closed (Or.inr (Or.inl (by rw [hp]; rfl)))
  | publishCommand c n =>
    obtain ⟨gateId, -, ⟨-, howes⟩ | ⟨w, hp, -⟩⟩ := hallow
    · refine hstay ?_
      cases hp : g.phase with
      | committed w =>
        rw [hp] at howes
        exact absurd trivial howes
      | _ => rfl
    · exact backed_closed (Or.inl (by rw [hp]; rfl))
  | sleep d => exact hstay rfl
  | _ => exact hallow.elim

end Records

section Acts
variable {d d' : Stores} {own own' : Own} {cardNumber : String} {m : MemberRow} {day : Int}

theorem acts_commit (h : Acts (.lane .commit) d own true d' own') : own.xid = none ∨
    ∃ x, own.xid = some x ∧ d.table.own x ≠ [] ∧ d'.table = d.table.commit uniqueIndexes x := by
  cases h with
  | commit hx hne => exact Or.inr ⟨_, hx, hne, rfl⟩
  | commitNothing hx => exact Or.inl hx

theorem acts_member (h : Acts (.lane (.memberByCard cardNumber)) d own (some (some m)) d' own') :
    d.members.lookup cardNumber = some m := by
  generalize ha : some (some m) = a at h
  cases h with
  | memberByCard => exact (Option.some.inj ha).symm
  | memberRaises => cases ha

theorem acts_today (h : Acts (.lane .today) d own day d' own') : d.today = day := by
  cases h
  rfl

/-- The stream gets an entry by the publication of its command only. -/
theorem acts_stream {o : EntryOp} {a : o.Ans} (h : Acts o d own a d' own') :
    d'.stream = d.stream ∨ ∃ c n, o = .lane (.publishCommand c n) ∧
      d'.stream = d.stream ++ [⟨(own.origin.map Prod.snd).getD "", n, c⟩] := by
  cases h with
  | publish | publishLost => exact Or.inr ⟨_, _, rfl, rfl⟩
  | _ => exact Or.inl rfl

end Acts

section Runs
variable {ι : Type} [DecidableEq ι] {s t : EntrySys ι} {l : Label ι EntryOp}
  {xs : List (Label ι EntryOp × EntrySys ι)}

def Backed (s : EntrySys ι) : Prop := ∀ j x, s.session j = some x → x.note.Backed s.log

theorem backed_step (hs : Sound s) (h : Step entryCalls s l t) (hb : Backed s) : Backed t := by
  intro j y hy
  rcases session_back h hy with hback | ⟨-, -, hstart⟩ | ⟨o, a, x, -, htook⟩
  · exact (hb j y hback).mono (log_mono h)
  · rcases hstart with ⟨e, n, gateId, -, -, hnote⟩ | ⟨call, -, -, -, hnote⟩
    · rw [hnote]
      exact fun _ _ _ => trivial
    · rw [hnote]
      exact fun _ _ _ => trivial
  · rw [htook.note, htook.log]
    exact backed_next (htook.allow hs.inProtocol) (acts_fair htook.act) (hb j x htook.before)

/-- A stay is on record when it is in the table for the first time. -/
theorem committed_step (hs : Sound s) (h : Step entryCalls s l t) {origin : Origin} {w : Way}
    (he : .committed origin w ∈ t.log) : .committed origin w ∈ s.log ∨
      ∃ r ∈ t.shared.table.rows, r.origin = some origin ∧ Fresh w r ∧
        ∀ q ∈ s.shared.table.rows, q.tx.id ≠ r.tx.id := by
  rcases log_back h he with he | ⟨j, o, a, x, y, -, htook, he⟩ | ⟨j, o, x, -, he⟩
  · exact Or.inl he
  · obtain ⟨hoa, horigin, hphase⟩ := committed_record he
    cases hoa
    have hfits := hs.fits j x htook.before
    obtain ⟨i, hi, hstored⟩ := hfits.stored w hphase
    obtain hnone | ⟨i', hi', hne, htable⟩ := acts_commit htook.act
    · exact nomatch hi.symm.trans hnone
    · cases hi.symm.trans hi'
      obtain ⟨r, hr⟩ := List.exists_mem_of_ne_nil _ hne
      obtain ⟨ho, hfresh, hid⟩ := hstored r hr
      refine Or.inr ⟨r, ?_, ho.trans horigin, hfresh, hid⟩
      rw [htable]
      exact mem_view.mpr (Or.inr (mem_own.mp hr))
  · exact nomatch (committed_record he).1

theorem found_step (h : Step entryCalls s l t) {n : Nat} {cardNumber : String} {m : MemberRow}
    (he : .found n cardNumber m ∈ t.log) : .found n cardNumber m ∈ s.log ∨
      s.shared.members.lookup cardNumber = some m := by
  rcases log_back h he with he | ⟨j, o, a, x, y, -, htook, he⟩ | ⟨j, o, x, -, he⟩
  · exact Or.inl he
  · cases found_record he
    exact Or.inr (acts_member htook.act)
  · exact nomatch found_record he

theorem dated_step (h : Step entryCalls s l t) {n : Nat} {day : Int}
    (he : .dated n day ∈ t.log) : .dated n day ∈ s.log ∨ s.shared.today = day := by
  rcases log_back h he with he | ⟨j, o, a, x, y, -, htook, he⟩ | ⟨j, o, x, -, he⟩
  · exact Or.inl he
  · cases dated_record he
    exact Or.inr (acts_today htook.act)
  · exact nomatch dated_record he

/-- Who adds a command to a stream, and when. -/
theorem stream_step (hs : Sound s) (h : Step entryCalls s l t) :
    t.shared.stream = s.shared.stream ∨ ∃ j x n gateId c, l = .go j (.lane (.publishCommand c n)) ∧
      s.session j = some x ∧ x.note.origin = some (n, gateId) ∧
      t.shared.stream = s.shared.stream ++ [⟨gateId, n, c⟩] ∧
      (opens c = false ∧ ¬ x.note.phase.Owes ∨
        ∃ w, x.note.phase = .committed w ∧ c = w.opening) ∧
      ∀ y, t.session j = some y → y.note = { x.note with phase := x.note.phase.published } := by
  rcases step_cases hs.inProtocol h with (hsh | ⟨haround, -⟩) | ⟨j, o, a, own', x, rfl, hdid⟩
  · exact Or.inl (by rw [hsh])
  · refine Or.inl ?_
    generalize t.shared = d at haround
    cases haround <;> rfl
  · rcases acts_stream hdid.act with hsame | ⟨c, n, rfl, hadd⟩
    · exact Or.inl hsame
    · obtain ⟨gateId, horigin, hphase⟩ := hdid.allow
      refine Or.inr ⟨j, x, n, gateId, c, rfl, hdid.before, horigin, ?_, hphase,
        fun y hy => (hdid.after y hy).2⟩
      rw [hadd, (hs.fits j x hdid.before).origin, horigin]
      rfl

end Runs
end ParkIt.Entries
