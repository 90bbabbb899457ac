import ParkIt.Auth.Denylist
import Mathlib.Data.Fintype.Basic

/-! A refresh token is used once, as long as its checks and its entries do not cross. -/
namespace ParkIt.Auth

open Effects Sessions Transition

/-- The denylist has been looked at, and the new tokens are not made yet. -/
def Phase.Past : Phase → Prop
  | .passed | .timed _ | .revoked | .access => True
  | _ => False

/-- The denylist has been looked at, and the entry is not written yet. -/
def Phase.Between : Phase → Prop
  | .passed | .timed _ => True
  | _ => False

instance : DecidablePred Phase.Between := fun p => by
  cases p <;> unfold Phase.Between <;> infer_instance

def Call.Refreshes (c : Call) (id : String) : Prop := c.jti = some id ∧ c.wants = some .refresh

instance (c : Call) (id : String) : Decidable (c.Refreshes id) :=
  inferInstanceAs (Decidable (_ ∧ _))

instance (d : Denylist) (key : String) : Decidable (d.InForce key) :=
  match h : d.entry key with
  | none => .isFalse fun ⟨_, ht, _⟩ => by rw [h] at ht; cases ht
  | some t =>
    if ht : d.clock < t then .isTrue ⟨t, h, ht⟩
    else .isFalse fun ⟨u, hu, hlt⟩ => ht (by rw [h] at hu; cases hu; exact hlt)

section Rotation
variable {ι : Type} {settings : TokenSettings} {hash : Token → String} {expOf : String → Int}
  {s t : TokenSys ι} {l : Label ι AuthOp} {j k : ι} {id : String}

/-- When a refresh call looks at the denylist, no other one is between its look and its entry, and
if the token has been revoked, it has not expired yet; or there is an entry that lives. -/
def Rotates (expOf : String → Int) (s : TokenSys ι) (l : Label ι AuthOp) : Prop :=
  match l with
  | .go j (.get _) => ∀ x ∈ s.session j, ∀ id ∈ x.note.call.jti, x.note.call.wants = some .refresh →
      s.shared.InForce (denylistKey id) ∨
        (∀ k, ∀ y ∈ s.session k, k ≠ j → y.note.call.Refreshes id → ¬ y.note.phase.Between) ∧
          (.revoked id ∈ s.log → s.shared.clock < expOf id)
  | _ => True

instance [DecidableEq ι] [Fintype ι] : Decidable (Rotates expOf s l) := by
  unfold Rotates
  split
  · infer_instance
  · infer_instance

/-- At most one pair is made of a refresh token, and every pair that is answered is on record. -/
structure Rotating (s : TokenSys ι) : Prop where
  once : ∀ id, s.log.count (.issued id) ≤ 1
  logged : ∀ j x id pair, s.session j = some x → x.note.call.jti = some id →
    x.rest = .pure (.refreshed (some pair)) → .issued id ∈ s.log

section Phases
variable {exp : Int} {p : Phase} {o : AuthOp} {a : o.Ans}

theorem past_next (h : (p.next exp o a).Past) :
    p.Past ∨ p = .decoded ∧
      (o = .now ∨ ∃ key, (⟨o, a⟩ : (o : AuthOp) × o.Ans) = ⟨.get key, none⟩) := by
  cases p with
  | passed | timed ttl | revoked | access => exact Or.inl trivial
  | begun =>
    cases o with
    | now =>
      simp only [Phase.next] at h
      split at h <;> exact h.elim
    | _ => exact h.elim
  | decoded =>
    cases o with
    | now => exact Or.inr ⟨rfl, Or.inl rfl⟩
    | get key =>
      cases a with
      | none => exact Or.inr ⟨rfl, Or.inr ⟨key, rfl⟩⟩
      | some r => exact h.elim
    | _ => exact h.elim
  | _ => cases o <;> exact h.elim

theorem issued_next (h : p.next exp o a = .issued) : p = .issued ∨ p = .access ∧ o = .uuid := by
  cases p with
  | issued => exact Or.inl rfl
  | access =>
    cases o with
    | uuid => exact Or.inr ⟨rfl, rfl⟩
    | _ => cases h
  | begun =>
    cases o with
    | now =>
      simp only [Phase.next] at h
      split at h <;> cases h
    | _ => cases h
  | decoded =>
    cases o with
    | now =>
      simp only [Phase.next, timedPhase] at h
      split at h <;> cases h
    | get key => cases a <;> cases h
    | _ => cases h
  | passed =>
    cases o with
    | now =>
      simp only [Phase.next, timedPhase] at h
      split at h <;> cases h
    | _ => cases h
  | _ => cases o <;> cases h

end Phases

theorem issued_of_mem_record {x : Note} {o : AuthOp} {a : o.Ans}
    (h : Entry.issued id ∈ x.record expOf o (some a)) :
    x.call.jti = some id ∧ (x.next expOf o a).phase = .issued ∧ x.phase ≠ .issued := by
  simp only [Note.record] at h
  split at h
  · split at h
    · cases h
    · simp at h
  · split at h
    · cases h
    · obtain ⟨id', hid, heq⟩ : ∃ id', x.call.jti = some id' ∧ Entry.issued id' = .issued id := by
        simpa using h
      cases heq
      exact ⟨hid, ‹_›, ‹_›⟩
  · cases h

/-- A refresh call of the token that may still make a pair of it. -/
def Going (s : TokenSys ι) (j : ι) (id : String) : Prop :=
  ∃ x, s.session j = some x ∧ x.note.call.Refreshes id ∧ x.note.phase.Past

/-- At most one call may still make a pair, and none if there is one. -/
structure Single (s : TokenSys ι) (id : String) : Prop where
  unique : ∀ j k, Going s j id → Going s k id → j = k
  spent : .issued id ∈ s.log → (∀ j, ¬ Going s j id) ∧ .revoked id ∈ s.log
  once : s.log.count (.issued id) ≤ 1

/-- A call that finds no entry is the only one. -/
theorem alone_of_rotates (hs : Sound settings hash expOf s) (hsingle : Single s id)
    (hrotates : Rotates expOf s (.go j (.get (denylistKey id))))
    {x : Session AuthOp AuthOp.Ans AuthExc Answer Unit Note} (hx : s.session j = some x)
    (hrefreshes : x.note.call.Refreshes id) (hforce : ¬ s.shared.InForce (denylistKey id)) :
    (∀ k, k ≠ j → ¬ Going s k id) ∧ .issued id ∉ s.log := by
  obtain ⟨hothers, hearly⟩ := (hrotates x hx id hrefreshes.1 hrefreshes.2).resolve_left hforce
  have hnot : .revoked id ∉ s.log := by
    intro hrevoked
    have hclock := hearly hrevoked
    rcases hs.revoked id hrevoked with hexp | ⟨r, hr⟩
    · exact absurd hclock (not_lt.mpr hexp)
    · exact hforce ⟨r, hr, lt_of_lt_of_le hclock (hs.entries id r hr)⟩
  refine ⟨?_, fun hissued => hnot (hsingle.spent hissued).2⟩
  rintro k hk ⟨y, hy, hyrefreshes, hpast⟩
  have hbetween := hothers k y hy hk hyrefreshes
  have hdone : y.note.phase.Done := by
    cases hphase : y.note.phase <;> rw [hphase] at hpast hbetween <;> first
      | exact hpast.elim
      | exact absurd trivial hbetween
      | trivial
  exact hnot (hs.done k y id hy hyrefreshes.1 hdone)

variable [DecidableEq ι]

/-- A call that may make a pair was one before, or has just found no entry. -/
theorem going_back (hs : Sound settings hash expOf s)
    (h : Step (tokenCalls settings hash expOf) s l t) (hk : Going t k id) :
    Going s k id ∨ ∃ x, s.session k = some x ∧ x.note.call.Refreshes id ∧
      l = .go k (.get (denylistKey id)) ∧ ¬ s.shared.InForce (denylistKey id) := by
  obtain ⟨y, hy, hrefreshes, hpast⟩ := hk
  rcases call_back h hy hrefreshes.1 with hy | hbegun | ⟨o, a, x, rfl, hx, hcall, hnext⟩
  · exact Or.inl ⟨y, hy, hrefreshes, hpast⟩
  · rw [hbegun] at hpast
    exact hpast.elim
  · rw [← hcall] at hrefreshes
    rw [hnext] at hpast
    rcases past_next hpast with hpast | ⟨hphase, rfl | ⟨key, heq⟩⟩
    · exact Or.inl ⟨x, hx.before, hrefreshes, hpast⟩
    · have hnone : x.note.call.wants = none := hx.allow hs.promises hphase
      cases hnone.symm.trans hrefreshes.2
    · cases heq
      obtain ⟨id', rfl, hreads⟩ := hx.allow hs.promises
      cases hreads.1.symm.trans hrefreshes.1
      refine Or.inr ⟨x, hx.before, hrefreshes, rfl, fun hforce => ?_⟩
      cases acts_get hx.act hforce

/-- A pair goes on record when the call that makes it comes to its end. -/
theorem issued_step (hs : Sound settings hash expOf s)
    (h : Step (tokenCalls settings hash expOf) s l t) :
    t.log.count (.issued id) = s.log.count (.issued id) ∨
      ∃ k, l = .go k .uuid ∧ Going s k id ∧ ¬ Going t k id ∧ .revoked id ∈ s.log ∧
        t.log.count (.issued id) = s.log.count (.issued id) + 1 := by
  by_cases hmem : ∃ j o a x y, l = .go j o ∧ Took (tokenCalls settings hash expOf) s t j o a x y ∧
      Entry.issued id ∈ x.note.record expOf o (some a)
  · obtain ⟨j, o, a, x, y, rfl, hy, hrecord⟩ := hmem
    obtain ⟨hjti, hphase, hne⟩ := issued_of_mem_record hrecord
    have hnext : x.note.next expOf o a = _ := next_of_jti hjti o a
    have hissued : x.note.phase.next (expOf id) o a = .issued := by
      rw [hnext] at hphase
      exact hphase
    obtain ⟨haccess, rfl⟩ := (issued_next hissued).resolve_left hne
    have hwants : x.note.call.wants = some .refresh :=
      hy.allow hs.promises (by rw [hjti]; rfl)
    refine Or.inr ⟨j, rfl, ⟨x, hy.before, ⟨hjti, hwants⟩, by rw [haccess]; trivial⟩, ?_, ?_, ?_⟩
    · rintro ⟨z, hz, -, hpast⟩
      cases hy.after.symm.trans hz
      have hnote : y.note = x.note.next expOf .uuid a := hy.note
      rw [hnote, hphase] at hpast
      exact hpast
    · exact hs.done j x id hy.before hjti (by rw [haccess]; trivial)
    · have hlog : t.log = s.log ++ x.note.record expOf .uuid (some a) := hy.log
      rw [hlog, List.count_append]
      simp [Note.record, hphase, hne, hjti]
  · refine Or.inl ?_
    cases h with
    | start _ _ | stop _ | during _ _ | outside _ => rfl
    | fail _ _ => exact congrArg (List.count _) (List.append_nil _)
    | go hj hact =>
      refine List.count_append.trans (Nat.add_eq_left.mpr (List.count_eq_zero_of_not_mem ?_))
      exact fun hrecord => hmem ⟨_, _, _, _, _, rfl, ⟨hj, ⟨_, rfl, rfl⟩, hact, session_set_self,
        fun _ hne => Function.update_of_ne hne .., rfl, rfl⟩, hrecord⟩

theorem single_step (hs : Sound settings hash expOf s)
    (h : Step (tokenCalls settings hash expOf) s l t) (hrotates : Rotates expOf s l)
    (hsingle : Single s id) : Single t id := by
  -- a call that has just got through is alone
  have hnew : ∀ k, Going t k id → ¬ Going s k id →
      (∀ j, j ≠ k → ¬ Going s j id) ∧ .issued id ∉ s.log ∧ l = .go k (.get (denylistKey id)) := by
    intro k hk hold
    obtain ⟨x, hx, hrefreshes, rfl, hforce⟩ := (going_back hs h hk).resolve_left hold
    obtain ⟨halone, hissued⟩ := alone_of_rotates hs hsingle hrotates hx hrefreshes hforce
    exact ⟨halone, hissued, rfl⟩
  rcases (issued_step hs h : t.log.count (.issued id) = _ ∨ _) with
    hsame | ⟨k, rfl, hgoing, hgone, hrevoked, hcount⟩
  · refine ⟨fun j k hj hk => ?_, fun hmem => ?_, hsame ▸ hsingle.once⟩
    · by_cases hj' : Going s j id <;> by_cases hk' : Going s k id
      · exact hsingle.unique j k hj' hk'
      · by_contra hne
        exact (hnew k hk hk').1 j hne hj'
      · by_contra hne
        exact (hnew j hj hj').1 k (Ne.symm hne) hk'
      · cases (hnew j hj hj').2.2.symm.trans (hnew k hk hk').2.2
        rfl
    · have hold : .issued id ∈ s.log := by
        rw [← List.count_pos_iff, ← hsame, List.count_pos_iff]
        exact hmem
      obtain ⟨hnone, hrevoked⟩ := hsingle.spent hold
      exact ⟨fun j hj => (hnew j hj (hnone j)).2.1 hold, log_mono h hrevoked⟩
  · have hold : ∀ j, Going t j id → Going s j id := by
      intro j hj
      by_contra hj'
      cases (hnew j hj hj').2.2
    have hfirst : .issued id ∉ s.log := fun hmem => (hsingle.spent hmem).1 k hgoing
    refine ⟨fun j k hj hk => hsingle.unique j k (hold j hj) (hold k hk), fun _ => ⟨?_, ?_⟩, ?_⟩
    · intro j hj
      have hjk := hsingle.unique j k (hold j hj) hgoing
      exact hgone (hjk ▸ hj)
    · exact log_mono h hrevoked
    · rw [hcount, List.count_eq_zero_of_not_mem hfirst]

/-- A call that has made its pair is on record. -/
theorem logged_step (h : Step (tokenCalls settings hash expOf) s l t)
    (hlogged : ∀ j x, s.session j = some x → x.note.call.jti = some id →
      x.note.phase = .issued → .issued id ∈ s.log) :
    ∀ j x, t.session j = some x → x.note.call.jti = some id → x.note.phase = .issued →
      .issued id ∈ t.log := by
  intro j x hx hjti hphase
  rcases call_back h hx hjti with hx | hbegun | ⟨o, a, y, -, hy, hcall, hnext⟩
  · exact log_mono h (hlogged j x hx hjti hphase)
  · cases hbegun.symm.trans hphase
  · have hjti' : y.note.call.jti = some id := hcall ▸ hjti
    rw [hnext] at hphase
    by_cases hissued : y.note.phase = .issued
    · exact log_mono h (hlogged j y hy.before hjti' hissued)
    · have hlog : t.log = s.log ++ y.note.record expOf o (some a) := hy.log
      rw [hlog]
      refine List.mem_append_right _ ?_
      simp [Note.record, next_of_jti hjti', hphase, hissued, hjti']

/-- In every run in which no check of a refresh token crosses the entry of another one, and none
comes after the expiry of a token whose entry has run out, at most one pair is made of it. -/
theorem rotated_once {xs : List (Label ι AuthOp × TokenSys ι)} (hquiet : s.Quiet)
    (hempty : s.shared.entry = fun _ => none)
    (h : Path (fun s l t => Step (tokenCalls settings hash expOf) s l t ∧ Rotates expOf s l) s xs) :
    Rotating (finish s xs) := by
  have hnone : ∀ {j x}, s.session j ≠ some x := fun hj => by simp [hquiet.1] at hj
  have hlog : ∀ {e}, e ∉ s.log := fun he => by simp [hquiet.2] at he
  have hstart : Sound settings hash expOf s := sound_start hquiet hempty
  have hsingle : ∀ id, Single s id := fun id =>
    ⟨fun _ _ ⟨_, hx, _⟩ => absurd hx hnone, fun he => absurd he hlog,
      by rw [hquiet.2]; exact Nat.zero_le 1⟩
  have hend := h.invariant
    (P := fun u => Sound settings hash expOf u ∧ ∀ id, Single u id ∧
      ∀ j x, u.session j = some x → x.note.call.jti = some id → x.note.phase = .issued →
        .issued id ∈ u.log)
    (fun u l' v hstep hu => ⟨sound_step hstep.1 hu.1, fun id =>
      ⟨single_step hu.1 hstep.1 hstep.2 (hu.2 id).1, logged_step hstep.1 (hu.2 id).2⟩⟩)
    ⟨hstart, fun id => ⟨hsingle id, fun _ _ hx => absurd hx hnone⟩⟩
  refine ⟨fun id => (hend.2 id).1.once, fun j x id pair hx hjti hrest => ?_⟩
  have hends := hend.1.promises j x hx
  rw [hrest] at hends
  exact (hend.2 id).2 j x hx hjti (hends.phase id hjti rfl)

end Rotation

section Schedules

def refreshToken : Token := encode ⟨"7", "admin", "admin"⟩ 100 .refresh "a"

theorem presents_refreshToken {c : Call} (h : c.token = some refreshToken) :
    c.Presents fun _ => 100 := by
  intro p hp
  simp only [Call.claims, h, refreshToken, encode, Option.some.injEq] at hp
  exact ⟨"a", by rw [← hp], by decide, by rw [← hp]; rfl⟩

/-- One call after the other; the second one is refused. -/
def refreshedTwice : List (Deed Bool) :=
  [.call true (.refreshTokens refreshToken) 8, .call false (.refreshTokens refreshToken) 8]

theorem rotated_once_twice : Rotating (finish opened (deedRun (fun _ => 100) refreshedTwice)) := by
  have hpath : Path (Step (tokenCalls {} (fun _ => "") fun _ => 100)) opened
      (deedRun (fun _ => 100) refreshedTwice) := by
    refine deedRun_path fun j c n h => ?_
    simp only [refreshedTwice, List.mem_cons, Deed.call.injEq, List.not_mem_nil, or_false] at h
    rcases h with ⟨-, rfl, -⟩ | ⟨-, rfl, -⟩ <;> exact presents_refreshToken rfl
  have hrotates : Path (fun s l _ => Rotates (fun _ => 100) s l) opened
      (deedRun (fun _ => 100) refreshedTwice) := by
    decide +kernel
  exact rotated_once ⟨fun _ => rfl, rfl⟩ rfl (hpath.and hrotates)

/-- Both calls look at the denylist before either of them writes the entry. -/
def refreshedSideBySide : List (Deed Bool) :=
  [.call true (.refreshTokens refreshToken) 2, .call false (.refreshTokens refreshToken) 2,
    .go true 6, .go false 6]

theorem two_pairs_of_one_token : ¬ ∀ xs : List (Label Bool AuthOp × TokenSys Bool),
    Path (Step (tokenCalls {} (fun _ => "") fun _ => 100)) opened xs →
      Rotating (finish opened xs) := by
  intro hall
  have hpath : Path (Step (tokenCalls {} (fun _ => "") fun _ => 100)) opened
      (deedRun (fun _ => 100) refreshedSideBySide) := by
    refine deedRun_path fun j c n h => ?_
    simp only [refreshedSideBySide, List.mem_cons, reduceCtorEq, Deed.call.injEq, List.not_mem_nil,
      or_false] at h
    rcases h with ⟨-, rfl, -⟩ | ⟨-, rfl, -⟩ <;> exact presents_refreshToken rfl
  have htwice : (finish opened (deedRun (fun _ => 100) refreshedSideBySide)).log.count
      (.issued "a") = 2 := by decide +kernel
  have honce := (hall _ hpath).once "a"
  rw [htwice] at honce
  exact absurd honce (by decide)

end Schedules
end ParkIt.Auth
