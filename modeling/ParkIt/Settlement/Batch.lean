import ParkIt.Settlement.Run
import ParkIt.Lib.Chunks

/-! Settlement files with the rows they were made of, and what they do to the tables. -/
namespace ParkIt

namespace Settlement

/-- A file: its reader, its rows as they were fetched, and its record. -/
structure Batch where
  readerId : Id
  rows : List EmoneyTransaction
  record : EmoneySettlement

namespace Batch
variable (b : Batch)

def ids : List Id := b.rows.map (·.id)

def total : Int := (b.rows.map (·.amountDeducted)).sum

/-- The header, and then the payloads in upper case. -/
def content : String :=
  padded 3 b.rows.length ++ padded 10 b.total.toNat ++ "\n" ++
    String.join (b.rows.map fun e => upper (e.settlementPayloadHex.getD "") ++ "\n")

/-- The record agrees with the rows. -/
structure Proper (sha256 : String → String) : Prop where
  size : 1 ≤ b.rows.length ∧ b.rows.length ≤ maxTrxPerFile
  reader : ∀ e ∈ b.rows, e.emoneyReaderId = some b.readerId
  count : b.record.totalTransactions = b.rows.length
  amount : b.record.totalAmount = b.total
  hash : b.record.fileContentHash = sha256 b.content

/-- The row after the batch has been linked. -/
def link (e : EmoneyTransaction) : EmoneyTransaction :=
  if b.ids.contains e.id then { e with settlementBatchId := some b.record.id } else e

end Batch

def linkAll (bs : List Batch) (e : EmoneyTransaction) : EmoneyTransaction :=
  bs.foldl (fun e b => b.link e) e

end Settlement

open Settlement

def Db.settle (db : Db) (b : Batch) : Db :=
  { db with settlements := db.settlements ++ [b.record] }.link b.ids b.record.id

def Db.settleAll (db : Db) (bs : List Batch) : Db := bs.foldl Db.settle db

/-- The MID and the TID of a reader that has both. -/
def Db.names (db : Db) (readerId : Id) : Option (String × String) :=
  (db.readers.find? fun r => r.id = readerId).bind fun r =>
    (truthy r.mid).bind fun mid => (truthy r.tid).map fun tid => (mid, tid)

/-- What a run has to settle: unsettled rows of readers with MID and TID. -/
def Db.Due (db : Db) (e : EmoneyTransaction) : Prop :=
  e.Unsettled ∧ ∃ r ∈ e.emoneyReaderId, db.names r ≠ none

instance (db : Db) (e : EmoneyTransaction) : Decidable (db.Due e) :=
  inferInstanceAs (Decidable (_ ∧ _))

namespace Settlement

section Linked
variable {bs : List Batch} {b : Batch} {db : Db} {e e' : EmoneyTransaction} {r : Id}

theorem buildSettlementContent_ok {payloads : List String} {total : Int} {content : String}
    (h : buildSettlementContent payloads total = .ok content) :
    content = padded 3 payloads.length ++ padded 10 total.toNat ++ "\n" ++
      String.join (payloads.map fun p => upper p ++ "\n") := by
  unfold buildSettlementContent at h
  split at h
  · cases h
  · split at h
    · cases h
    · exact (Except.ok.inj h).symm

theorem link_id : (b.link e).id = e.id := by
  unfold Batch.link
  split <;> rfl

theorem linkAll_cons : linkAll (b :: bs) e = linkAll bs (b.link e) := rfl

/-- A row is left alone, or linked to a batch with its id. -/
theorem linkAll_cases (bs : List Batch) (e : EmoneyTransaction) :
    linkAll bs e = e ∨
      ∃ b ∈ bs, e.id ∈ b.ids ∧ linkAll bs e = { e with settlementBatchId := some b.record.id } := by
  induction bs generalizing e with
  | nil => exact Or.inl rfl
  | cons b bs ih =>
    rw [linkAll_cons]
    by_cases hb : e.id ∈ b.ids
    · have hlink : b.link e = { e with settlementBatchId := some b.record.id } :=
        if_pos (List.contains_iff_mem.mpr hb)
      rcases ih (b.link e) with heq | ⟨b', hb', hid, heq⟩
      · exact Or.inr ⟨b, List.mem_cons_self, hb, heq.trans hlink⟩
      · rw [link_id] at hid
        refine Or.inr ⟨b', List.mem_cons_of_mem _ hb', hid, heq.trans ?_⟩
        rw [hlink]
    · have hlink : b.link e = e := if_neg fun h => hb (List.contains_iff_mem.mp h)
      rw [hlink]
      rcases ih e with heq | ⟨b', hb', hid, heq⟩
      · exact Or.inl heq
      · exact Or.inr ⟨b', List.mem_cons_of_mem _ hb', hid, heq⟩

/-- A row with an id of a batch does not stay unlinked. -/
theorem linkAll_linked (hb : b ∈ bs) (hid : e.id ∈ b.ids) :
    (linkAll bs e).settlementBatchId ≠ none := by
  have hkeep : ∀ (bs : List Batch) (e : EmoneyTransaction), e.settlementBatchId ≠ none →
      (linkAll bs e).settlementBatchId ≠ none := by
    intro bs e he
    rcases linkAll_cases bs e with heq | ⟨b, -, -, heq⟩ <;> rw [heq]
    · exact he
    · exact Option.some_ne_none _
  induction bs generalizing e with
  | nil => cases hb
  | cons b' bs ih =>
    rw [linkAll_cons]
    rcases List.mem_cons.mp hb with rfl | hb
    · apply hkeep
      have hlink : b.link e = { e with settlementBatchId := some b.record.id } :=
        if_pos (List.contains_iff_mem.mpr hid)
      rw [hlink]
      exact Option.some_ne_none _
    · exact ih hb (by rwa [link_id])

theorem linkAll_id : (linkAll bs e).id = e.id := by
  rcases linkAll_cases bs e with heq | ⟨b, -, -, heq⟩ <;> rw [heq]

theorem settleAll_append (db : Db) (bs bs' : List Batch) :
    db.settleAll (bs ++ bs') = (db.settleAll bs).settleAll bs' := List.foldl_append

theorem settleAll_emoney (db : Db) (bs : List Batch) :
    (db.settleAll bs).emoney = db.emoney.map (linkAll bs) := by
  induction bs generalizing db with
  | nil => exact (List.map_id _).symm
  | cons b bs ih =>
    have hsettle : (db.settle b).emoney = db.emoney.map b.link := rfl
    change ((db.settle b).settleAll bs).emoney = _
    rw [ih, hsettle, List.map_map]
    rfl

theorem settleAll_settlements (db : Db) (bs : List Batch) :
    (db.settleAll bs).settlements = db.settlements ++ bs.map (·.record) := by
  induction bs generalizing db with
  | nil => exact (List.append_nil _).symm
  | cons b bs ih =>
    have hsettle : (db.settle b).settlements = db.settlements ++ [b.record] := rfl
    change ((db.settle b).settleAll bs).settlements = _
    rw [ih, hsettle, List.append_assoc]
    rfl

theorem settleAll_readers (db : Db) (bs : List Batch) :
    (db.settleAll bs).readers = db.readers := by
  induction bs generalizing db with
  | nil => rfl
  | cons b bs ih => exact ih (db.settle b)

theorem settleAll_names (db : Db) (bs : List Batch) (r : Id) :
    (db.settleAll bs).names r = db.names r := by
  unfold Db.names
  rw [settleAll_readers]

theorem settleAll_due (db : Db) (bs : List Batch) (e : EmoneyTransaction) :
    (db.settleAll bs).Due e ↔ db.Due e := by
  unfold Db.Due
  simp only [settleAll_names]

theorem settleAll_ids (db : Db) (bs : List Batch) :
    (db.settleAll bs).emoney.map (·.id) = db.emoney.map (·.id) := by
  rw [settleAll_emoney, List.map_map]
  exact List.map_congr_left fun _ _ => linkAll_id

/-- The rows that are still unlinked have not been touched. -/
theorem unlinked_settleAll (h : e ∈ (db.settleAll bs).emoney) (hnone : e.settlementBatchId = none) :
    e ∈ db.emoney ∧ ∀ b ∈ bs, e.id ∉ b.ids := by
  rw [settleAll_emoney] at h
  obtain ⟨e₀, he₀, rfl⟩ := List.mem_map.mp h
  have hfree : ∀ b ∈ bs, e₀.id ∉ b.ids := fun b hb hid => linkAll_linked hb hid hnone
  rcases linkAll_cases bs e₀ with heq | ⟨b, hb, hid, -⟩
  · rw [heq]
    exact ⟨he₀, hfree⟩
  · exact (hfree b hb hid).elim

/-- And no batch touches the rows that are not its own. -/
theorem mem_settleAll (h : e ∈ db.emoney) (hfree : ∀ b ∈ bs, e.id ∉ b.ids) :
    e ∈ (db.settleAll bs).emoney := by
  rw [settleAll_emoney]
  refine List.mem_map.mpr ⟨e, h, ?_⟩
  rcases linkAll_cases bs e with heq | ⟨b, hb, hid, -⟩
  · exact heq
  · exact (hfree b hb hid).elim

end Linked
end Settlement
end ParkIt
