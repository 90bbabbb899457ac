import ParkIt.Bridge.Clients

/-! Whether the gate is opened for a card that the API has granted its exit. -/
namespace ParkIt.Bridge

open Effects

abbrev BridgeJournal := Journal BridgeOp BridgeOp.Ans

abbrev BridgeAnswers := Answers BridgeOp BridgeOp.Ans

/-- The number of clients that a look at the set has found. -/
def size? : Effects.Exchange BridgeOp BridgeOp.Ans → Option Nat
  | ⟨.used, n⟩ => some n
  | _ => none

def result? : Effects.Exchange BridgeOp BridgeOp.Ans → Option ExitResult
  | ⟨.rfidExit _ _ _, r⟩ => some r
  | _ => none

def sizes (j : BridgeJournal) : List Nat := j.filterMap size?

def results (j : BridgeJournal) : List ExitResult := j.filterMap result?

def opens (j : BridgeJournal) : Nat := j.countP fun x => x.op = .openGate

/-- The API has answered with success. -/
def Granted (j : BridgeJournal) : Prop := ∃ r ∈ results j, r.success = true

/-- Whenever the broadcast looks at the set, as many clients are registered as when it began. -/
def Undisturbed (j : BridgeJournal) : Prop := ∀ n ∈ sizes j, ∀ m ∈ sizes j, n = m

instance (j : BridgeJournal) : Decidable (Granted j) :=
  inferInstanceAs (Decidable (∃ r ∈ results j, r.success = true))

instance (j : BridgeJournal) : Decidable (Undisturbed j) :=
  inferInstanceAs (Decidable (∀ n ∈ sizes j, ∀ m ∈ sizes j, n = m))

/-- Neither the API nor the gate is concerned. -/
def Quiet (k : BridgeJournal) : Prop := results k = [] ∧ opens k = 0

section Journals
variable {j k : BridgeJournal}

@[simp] theorem sizes_append : sizes (j ++ k) = sizes j ++ sizes k := List.filterMap_append ..

@[simp] theorem results_append : results (j ++ k) = results j ++ results k :=
  List.filterMap_append ..

@[simp] theorem opens_append : opens (j ++ k) = opens j + opens k := List.countP_append ..

theorem Quiet.append (hj : Quiet j) (hk : Quiet k) : Quiet (j ++ k) := by
  refine ⟨?_, ?_⟩
  · rw [results_append, hj.1, hk.1]
    rfl
  · rw [opens_append, hj.2, hk.2]

end Journals

/-- What a step of a broadcast has added to the journal. -/
def Adds (j j' : BridgeJournal) (P : BridgeJournal → Prop) : Prop :=
  ∃ k, j' = j ++ k ∧ Quiet k ∧ P k

section Broadcasts
variable {env : BridgeAnswers} {j j' : BridgeJournal} {payload : Payload} {used : Nat}

theorem Adds.after {P Q : BridgeJournal → Prop} {k : BridgeJournal} (hk : Quiet k)
    (h : Adds (j ++ k) j' P) (hPQ : ∀ l, P l → Q (k ++ l)) : Adds j j' Q := by
  obtain ⟨l, rfl, hl, hP⟩ := h
  exact ⟨k ++ l, List.append_assoc .., hk.append hl, hPQ l hP⟩

/-- The iteration ends where no look at the set finds another number of clients. -/
theorem sendFrom_ensures (left p : Nat) (stale : List Ws) (j : BridgeJournal) :
    Prog.Ensures env.exec (sendFrom payload used left p stale) j
      (fun _ j' => Adds j j' fun k => ∀ n ∈ sizes k, n = used)
      fun _ j' => Adds j j' fun k => ¬ ∀ n ∈ sizes k, n = used := by
  induction left generalizing p stale j with
  | zero =>
    rw [sendFrom, Prog.ensures_bind, Answers.ensures_perform]
    split
    · rename_i hne
      exact ⟨[⟨.used, env j .used⟩], rfl, ⟨rfl, rfl⟩, fun h => hne (h _ List.mem_cons_self)⟩
    · rename_i heq
      refine ⟨[⟨.used, env j .used⟩], rfl, ⟨rfl, rfl⟩, fun n hn => ?_⟩
      exact List.mem_singleton.mp hn ▸ not_not.mp heq
  | succ left ih =>
    rw [sendFrom, Prog.ensures_bind, Answers.ensures_perform]
    split
    · rename_i hne
      exact ⟨[⟨.used, env j .used⟩], rfl, ⟨rfl, rfl⟩, fun h => hne (h _ List.mem_cons_self)⟩
    · rename_i heq
      have hsize : env j .used = used := not_not.mp heq
      rw [Prog.ensures_bind, Answers.ensures_perform]
      generalize hj : env.record j .used = j₁
      have hrest : ∀ k stale, Quiet k → sizes k = [] → Prog.Ensures env.exec
          (sendFrom payload used left (p + 1) stale) (j₁ ++ k)
          (fun _ j' => Adds j j' fun k => ∀ n ∈ sizes k, n = used)
          fun _ j' => Adds j j' fun k => ¬ ∀ n ∈ sizes k, n = used := by
        intro k stale hk hsizes
        have hlook : Quiet ([⟨.used, env j .used⟩] ++ k) := Quiet.append ⟨rfl, rfl⟩ hk
        have hall : ∀ l, (∀ n ∈ sizes ([⟨.used, env j .used⟩] ++ k ++ l), n = used) ↔
            ∀ n ∈ sizes l, n = used := by
          intro l
          rw [sizes_append, sizes_append, hsizes, List.append_nil]
          exact ⟨fun h n hn => h n (List.mem_cons_of_mem _ hn), fun h n hn =>
            (List.mem_cons.mp hn).elim (fun h => h.trans hsize) (h n)⟩
        rw [← hj, Answers.record, List.append_assoc]
        exact (ih (p + 1) stale _).mono
          (fun _ _ h => h.after hlook fun l hl => (hall l).mpr hl)
          fun _ _ h => h.after hlook fun l hl hl' => hl ((hall l).mp hl')
      split
      · exact hrest [⟨.slot p, env j₁ (.slot p)⟩] stale ⟨rfl, rfl⟩ rfl
      · rename_i ws _
        rw [Prog.ensures_bind, Answers.ensures_perform]
        have hsent : env.record (env.record j₁ (.slot p)) (.send ws payload) =
            j₁ ++ [⟨.slot p, env j₁ (.slot p)⟩,
              ⟨.send ws payload, env (env.record j₁ (.slot p)) (.send ws payload)⟩] :=
          List.append_assoc ..
        rw [hsent]
        split
        · exact hrest _ stale ⟨rfl, rfl⟩ rfl
        · exact hrest _ (stale ++ [ws]) ⟨rfl, rfl⟩ rfl

theorem discardAll_ensures (stale : List Ws) (j : BridgeJournal) :
    Prog.Ensures env.exec (discardAll stale) j (fun _ j' => Adds j j' fun k => sizes k = [])
      fun _ _ => False := by
  induction stale generalizing j with
  | nil => exact ⟨[], (List.append_nil j).symm, ⟨rfl, rfl⟩, rfl⟩
  | cons ws rest ih =>
    refine (ih (env.record j (.discard ws))).mono (fun _ j' h => ?_) fun _ _ h => h
    exact Adds.after (k := [⟨.discard ws, env j (.discard ws)⟩]) ⟨rfl, rfl⟩ h fun l hl => hl

theorem broadcast_ensures (slots : Nat) (j : BridgeJournal) :
    Prog.Ensures env.exec (broadcast payload slots) j (fun _ j' => Adds j j' Undisturbed)
      fun _ j' => Adds j j' fun k => ¬ Undisturbed k := by
  rw [broadcast, Prog.ensures_bind, Answers.ensures_perform]
  have hlook : Quiet [⟨.used, env j .used⟩] := ⟨rfl, rfl⟩
  have hone : Undisturbed [⟨.used, env j .used⟩] := by
    intro n hn m hm
    exact (List.mem_singleton.mp hn).trans (List.mem_singleton.mp hm).symm
  split
  · exact ⟨_, rfl, hlook, hone⟩
  · have hiff : ∀ l, Undisturbed ([⟨.used, env j .used⟩] ++ l) ↔
        ∀ n ∈ sizes l, n = env j .used := by
      intro l
      rw [Undisturbed, sizes_append]
      constructor
      · exact fun h n hn => h n (List.mem_cons_of_mem _ hn) _ List.mem_cons_self
      · intro h n hn m hm
        have hall : ∀ n ∈ env j .used :: sizes l, n = env j .used := fun n hn =>
          (List.mem_cons.mp hn).elim id (h n)
        exact (hall n hn).trans (hall m hm).symm
    refine (sendFrom_ensures slots 0 [] (env.record j .used)).bind
      (fun _ _ h => h.after hlook fun l hl hl' => hl ((hiff l).mp hl')) fun stale j₁ h => ?_
    refine (discardAll_ensures stale j₁).mono (fun _ j₂ h' => ?_) fun _ _ h => h.elim
    obtain ⟨k, rfl, hk, hsizes⟩ := h
    obtain ⟨l, rfl, hl, hnone⟩ := h'
    refine ⟨[⟨.used, env j .used⟩] ++ (k ++ l), ?_, hlook.append (hk.append hl), ?_⟩
    · simp only [Answers.record, List.append_assoc]
    · rw [hiff, sizes_append, hnone, List.append_nil]
      exact hsizes

end Broadcasts

section Cards
variable {env : BridgeAnswers} {cfg : Poller} {slots : Nat} {card : String}

/-- What is written down of the handling of a card. -/
def cardJournal (env : BridgeAnswers) (cfg : Poller) (slots : Nat) (card : String) :
    BridgeJournal :=
  ((cfg.handleCard slots card).run env.exec []).2

/-- A card that has been granted opens the gate once, or not at all where the broadcast fails. -/
theorem granted_opens (h : Granted (cardJournal env cfg slots card)) :
    opens (cardJournal env cfg slots card) =
      if Undisturbed (cardJournal env cfg slots card) then 1 else 0 := by
  have hcard : Prog.Ensures env.exec (cfg.handleCard slots card) []
      (fun _ j => Granted j → Undisturbed j ∧ opens j = 1)
      fun _ j => Granted j → ¬ Undisturbed j ∧ opens j = 0 := by
    rw [Poller.handleCard, Prog.ensures_bind, Answers.ensures_perform, Prog.ensures_bind,
      Answers.ensures_perform]
    split
    · rintro ⟨r, hr, -⟩
      cases hr
    · rw [Prog.ensures_bind, Answers.ensures_perform, Prog.ensures_bind, Answers.ensures_perform]
      generalize hj : env.record _ (.rfidExit cfg.gateId cfg.gateDbId card) = j
      generalize hr : env _ (.rfidExit cfg.gateId cfg.gateDbId card) = r
      have hresults : results j = [r] := by
        rw [← hj, ← hr]
        rfl
      have hsizes : ∀ k, sizes (j ++ k) = sizes k := fun k => by
        rw [sizes_append, ← hj]
        rfl
      have hopens : opens j = 0 := by
        rw [← hj]
        rfl
      refine (broadcast_ensures slots j).bind (fun _ j' h _ => ?_) fun _ j' h => ?_
      · obtain ⟨k, rfl, hk, hdisturbed⟩ := h
        rw [Undisturbed, hsizes, opens_append, hopens, hk.2]
        exact ⟨hdisturbed, rfl⟩
      · obtain ⟨k, rfl, hk, hundisturbed⟩ := h
        split
        · rw [Prog.ensures_bind, Answers.ensures_perform]
          intro _
          rw [Answers.record, List.append_assoc, Undisturbed, hsizes, sizes_append, opens_append,
            opens_append, hopens, hk.2]
          exact ⟨(List.append_nil (sizes k)).symm ▸ hundisturbed, rfl⟩
        · rename_i hfailed
          rintro ⟨r', hr', hsuccess⟩
          rw [results_append, hresults, hk.1] at hr'
          exact absurd (List.mem_singleton.mp hr' ▸ hsuccess) hfailed
  have hrun := h
  unfold Prog.Ensures at hcard
  unfold cardJournal at hrun ⊢
  rcases hresult : (cfg.handleCard slots card).run env.exec [] with ⟨e | u, j⟩
  · rw [hresult] at hcard hrun
    rw [if_neg (hcard hrun).1]
    exact (hcard hrun).2
  · rw [hresult] at hcard hrun
    rw [if_pos (hcard hrun).1]
    exact (hcard hrun).2

/-- The gate is opened once for a granted card where every look of its broadcast at the set finds
as many clients as the first one. -/
theorem opened_once_iff (h : Granted (cardJournal env cfg slots card)) :
    opens (cardJournal env cfg slots card) = 1 ↔ Undisturbed (cardJournal env cfg slots card) := by
  rw [granted_opens h]
  split <;> simp_all

/-- A booth whose API grants every exit, with the table of clients as it is after some journal. -/
def grantingBooth (table : BridgeJournal → List (Option Ws)) (reachable : Ws → Bool) :
    BridgeAnswers := fun j o =>
  match o with
  | .used => (table j).countP Option.isSome
  | .slot p => (table j)[p]?.join
  | .send ws _ => reachable ws
  | .time => 5000
  | .lastCard => {}
  | .rfidExit _ _ _ => { success := true, message := "OK", transactionId := some 4 }
  | .openGate => true
  | .add _ | .discard _ | .close _ | .serve _ | .setLastCard _ => ()

def exitPoller : Poller := { gateId := "OUT1", gateDbId := 7 }

/-- Two clients, one of which cannot be reached. -/
def steadyBooth : BridgeAnswers := grantingBooth (fun _ => [some 1, none, some 2]) (· = 1)

theorem opened_once_steady : opens (cardJournal steadyBooth exitPoller 8 "0123456789") = 1 :=
  (opened_once_iff (by decide)).mpr (by decide)

def isSend : BridgeOp → Bool
  | .send _ _ => true
  | _ => false

/-- A second client connects while the first one is sent to. -/
def busyBooth : BridgeAnswers :=
  grantingBooth (fun j => if j.any (isSend ·.op) then [some 1, some 2] else [some 1]) fun _ => true

theorem granted_unopened :
    Granted (cardJournal busyBooth exitPoller 8 "0123456789") ∧
      ¬ opens (cardJournal busyBooth exitPoller 8 "0123456789") = 1 := by
  decide

end Cards
end ParkIt.Bridge
