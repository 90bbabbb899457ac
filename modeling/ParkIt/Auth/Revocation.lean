import ParkIt.Auth.Denylist

/-! A revoked token stays revoked, as long as no read comes when its entry has run out. -/
namespace ParkIt.Auth

open Effects Sessions Transition

section Revocation
variable {ι : Type} {settings : TokenSettings} {hash : Token → String}
  {expOf : String → Int} {s t : TokenSys ι} {l : Label ι AuthOp} {j : ι} {id : String}

/-- No entry has run out when it is read. -/
def InTime (s : TokenSys ι) (l : Label ι AuthOp) : Prop :=
  match l with
  | .go _ (.get key) => ∀ r ∈ s.shared.entry key, s.shared.clock < r
  | _ => True

instance : Decidable (InTime s l) :=
  match l with
  | .go _ (.get key) => inferInstanceAs (Decidable (∀ r ∈ s.shared.entry key, s.shared.clock < r))
  | .go _ .now | .go _ .uuid | .go _ (.set _ _ _) | .start _ | .stop _ | .outside => .isTrue trivial

/-- A call that is not over does not accept a token that was revoked before the call was started,
and no call accepts a token of the other type. -/
structure Revoking (s : TokenSys ι) (xs : List (Label ι AuthOp × TokenSys ι)) : Prop where
  revoked : ∀ pre post id, xs = pre ++ post → .revoked id ∈ (finish s pre).log →
    ∀ j, (finish s pre).session j = none → ∀ x a, (finish s xs).session j = some x →
      x.note.call.jti = some id → x.rest = .pure a → a.accepts = false
  type : ∀ j x a, (finish s xs).session j = some x → x.rest = .pure a → a.accepts = true →
    ∃ p ty, x.note.call.claims = some p ∧ p.type = some ty ∧ x.note.call.wants = some ty

/-- A call that looks for its token has to look at the denylist yet, and finds it there. -/
def Doomed (id : String) (s : TokenSys ι) (g : Note) : Prop :=
  g.call.jti = some id → g.call.wants.isSome →
    g.phase = .begun ∨ g.phase = .over ∨
      g.phase = .decoded ∧ ∃ r, s.shared.entry (denylistKey id) = some r

variable [DecidableEq ι]

theorem doomed_step (hs : Sound settings hash expOf s) (hid : .revoked id ∈ s.log)
    (h : Step (tokenCalls settings hash expOf) s l t) (htime : InTime s l)
    (hdoomed : ∀ x, s.session j = some x → Doomed id s x.note) :
    ∀ x, t.session j = some x → Doomed id t x.note := by
  intro x hx hjti hwants
  have hlasts : ∀ r, s.shared.entry (denylistKey id) = some r →
      ∃ r', t.shared.entry (denylistKey id) = some r' := fun r => entry_lasts hs.promises h
  rcases call_back h hx hjti with hx | hbegun | ⟨o, a, y, rfl, hy, hcall, hnext⟩
  · rcases hdoomed x hx hjti hwants with hphase | hphase | ⟨hphase, r, hr⟩
    · exact Or.inl hphase
    · exact Or.inr (Or.inl hphase)
    · exact Or.inr (Or.inr ⟨hphase, hlasts r hr⟩)
  · exact Or.inl hbegun
  · have hjti' : y.note.call.jti = some id := hcall ▸ hjti
    have hwants' : y.note.call.wants.isSome := hcall ▸ hwants
    have hallow := hy.allow hs.promises
    rw [hnext]
    rcases hdoomed y hy.before hjti' hwants' with hphase | hphase | ⟨hphase, r, hr⟩
    · rw [hphase]
      cases o with
      | now =>
        have hnow : a = s.shared.clock := acts_now hy.act
        simp only [Phase.next]
        by_cases hexp : (expOf id : ℚ) ≤ a
        · rw [if_pos hexp]
          exact Or.inr (Or.inl rfl)
        · rw [if_neg hexp]
          rcases hs.revoked id hid with hover | ⟨r, hr⟩
          · exact absurd hover (hnow ▸ hexp)
          · exact Or.inr (Or.inr ⟨rfl, hlasts r hr⟩)
      | _ => exact Or.inl rfl
    · rw [hphase]
      exact Or.inr (Or.inl (by cases o <;> rfl))
    · rw [hphase]
      cases o with
      | now =>
        have hnone := hallow hphase
        rw [hnone] at hwants'
        cases hwants'
      | get key =>
        obtain ⟨id', rfl, hreads⟩ := hallow
        cases hreads.1.symm.trans hjti'
        have hforce : s.shared.InForce (denylistKey id) := ⟨r, hr, htime r hr⟩
        rw [acts_get hy.act hforce]
        exact Or.inr (Or.inl rfl)
      | uuid | set key value ex => exact Or.inr (Or.inr ⟨rfl, hlasts r hr⟩)

/-- In every run in which no entry is read after it has run out, a revoked token is refused by
every later call. -/
theorem revoked_until_expiry {xs : List (Label ι AuthOp × TokenSys ι)} (hquiet : s.Quiet)
    (hempty : s.shared.entry = fun _ => none)
    (h : Path (fun s l t => Step (tokenCalls settings hash expOf) s l t ∧ InTime s l) s xs) :
    Revoking s xs := by
  have hsteps := h.mono fun _ _ _ h => h.1
  have hstart : Sound settings hash expOf s := sound_start hquiet hempty
  have hend := hsteps.invariant (fun _ _ _ h hs => sound_step h hs) hstart
  have htype : ∀ j x a, (finish s xs).session j = some x → x.rest = .pure a → x.note.Ends a := by
    intro j x a hx ha
    have hends := hend.promises j x hx
    rw [ha] at hends
    exact hends
  refine ⟨?_, fun j x a hx ha => (htype j x a hx ha).type⟩
  rintro pre post id rfl hid j hj x a hx hjti ha
  obtain ⟨hpre, hpost⟩ := path_append.mp h
  have hmiddle : Sound settings hash expOf (finish s pre) :=
    (hpre.mono fun _ _ _ h => h.1).invariant (fun _ _ _ h hs => sound_step h hs) hstart
  have hdoomed : ∀ y, (finish s pre).session j = some y → Doomed id (finish s pre) y.note := by
    intro y hy
    rw [hj] at hy
    cases hy
  have hlast := hpost.invariant
    (P := fun u => Sound settings hash expOf u ∧ .revoked id ∈ u.log ∧
      ∀ y, u.session j = some y → Doomed id u y.note)
    (fun u l' v hstep hu => ⟨sound_step hstep.1 hu.1, log_mono hstep.1 hu.2.1,
      doomed_step hu.1 hu.2.1 hstep.1 hstep.2 hu.2.2⟩) ⟨hmiddle, hid, hdoomed⟩
  rw [finish_append] at hx
  have hends := htype j x a (by rw [finish_append]; exact hx) ha
  cases haccepts : a.accepts with
  | false => rfl
  | true =>
    obtain ⟨p, ty, -, -, hwants⟩ := hends.type haccepts
    have hphase := hends.phase id hjti haccepts
    have hdoom := hlast.2.2 x hx hjti (by rw [hwants]; rfl)
    rw [hphase] at hdoom
    cases a <;> simp [Answer.phase] at hdoom

end Revocation

section Schedules

/-- A token with the claims that `create_access_token` gives it. -/
def accessToken : Token := encode ⟨"7", "admin", "admin"⟩ 100 .access "a"

/-- The token is revoked, and a call comes afterwards. -/
def revokedEarly : List (Deed Bool) :=
  [.tick 99, .call true (.revokeToken accessToken) 4, .call false (.isTokenValid accessToken) 2]

theorem presents_accessToken {c : Call} (h : c.token = some accessToken) :
    c.Presents fun _ => 100 := by
  intro p hp
  simp only [Call.claims, h, accessToken, encode, Option.some.injEq] at hp
  exact ⟨"a", by rw [← hp], by decide, by rw [← hp]; rfl⟩

theorem revokedEarly_path : Path (Step (tokenCalls {} (fun _ => "") fun _ => 100)) opened
    (deedRun (fun _ => 100) revokedEarly) := by
  refine deedRun_path fun j c n h => ?_
  simp only [revokedEarly, List.mem_cons, reduceCtorEq, Deed.call.injEq, List.not_mem_nil,
    or_false, false_or] at h
  rcases h with ⟨-, rfl, -⟩ | ⟨-, rfl, -⟩ <;> exact presents_accessToken rfl

theorem revoked_until_expiry_early : Revoking opened (deedRun (fun _ => 100) revokedEarly) := by
  have htime : Path (fun s l _ => InTime s l) opened (deedRun (fun _ => 100) revokedEarly) := by
    decide +kernel
  exact revoked_until_expiry ⟨fun _ => rfl, rfl⟩ rfl (revokedEarly_path.and htime)

/-- The call reads the clock before the token expires, and the denylist after the entry has. -/
def revokedLate : List (Deed Bool) :=
  [.tick 99, .call true (.revokeToken accessToken) 4, .tick (199 / 2),
    .call false (.isTokenValid accessToken) 1, .tick (201 / 2), .go false 1]

/-- A revoked token is accepted by a call that is under way when the token expires. -/
theorem revoked_token_accepted : ¬ ∀ xs : List (Label Bool AuthOp × TokenSys Bool),
    Path (Step (tokenCalls {} (fun _ => "") fun _ => 100)) opened xs → Revoking opened xs := by
  intro hall
  have hpath : Path (Step (tokenCalls {} (fun _ => "") fun _ => 100)) opened
      (deedRun (fun _ => 100) revokedLate) := by
    refine deedRun_path fun j c n h => ?_
    simp only [revokedLate, List.mem_cons, reduceCtorEq, Deed.call.injEq, List.not_mem_nil,
      or_false, false_or] at h
    rcases h with ⟨-, rfl, -⟩ | ⟨-, rfl, -⟩ <;> exact presents_accessToken rfl
  have hrevoking := hall _ hpath
  obtain ⟨xs, hxs⟩ : ∃ xs, xs = deedRun (fun _ => 100) revokedLate := ⟨_, rfl⟩
  rw [← hxs] at hrevoking
  have hlog : .revoked "a" ∈ (finish opened (xs.take 6)).log := by
    rw [hxs]
    decide +kernel
  have hidle : ((finish opened (xs.take 6)).session false).isNone = true := by
    rw [hxs]
    decide +kernel
  have hends : ((finish opened xs).session false).bind Session.answer =
      some (.validated (some ⟨"7", "admin", "admin", some 100, some .access, "a"⟩)) := by
    rw [hxs]
    decide +kernel
  have hcall : ((finish opened xs).session false).map (fun x => x.note.call.jti) =
      some (some "a") := by
    rw [hxs]
    decide +kernel
  obtain ⟨x, hx, ha⟩ := Option.bind_eq_some_iff.mp hends
  rw [hx] at hcall
  have hrefused := hrevoking.revoked _ _ "a" (List.take_append_drop 6 xs).symm hlog false
    (Option.isNone_iff_eq_none.mp hidle) x _ hx (Option.some.inj hcall) (rest_of_answer ha)
  cases hrefused

end Schedules
end ParkIt.Auth
