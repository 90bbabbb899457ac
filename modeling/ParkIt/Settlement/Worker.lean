import ParkIt.Services.Transaction
import ParkIt.Settlement.File

/-! The settlement job: one file for each chunk of a reader's unsettled deducts. -/
namespace ParkIt.Settlement

open Effects

def settlementDir : String := "/var/lib/parking/settlements"
def maxTrxPerFile : Nat := 999
def qrCardTypeCode : Int := 0x09

/-- Asia/Jakarta. -/
def jakartaOffset : Int := 7 * DateTime.microsPerHour

/-- The cron job has a Redis client in its context, the manual trigger has none. -/
structure Ctx where
  redis : Bool
deriving DecidableEq, Repr

inductive JobExc where
  | value (msg : String)
  | unicode
  | os
  | db
deriving DecidableEq, Repr

/-- What the job asks of Redis, the database and the disk; Redis answers `none` when it fails. -/
inductive JobOp where
  | now
  | setLock (key : String)
  | makedirs
  | unsettledReaders
  | reader (i : Id)
  | unsettled (readerId : Id)
  | incrBatch (key : String)
  | expireBatch (key : String)
  | writeFile (path content : String)
  | insertSettlement (s : EmoneySettlement)
  | link (ids : List Id) (settlement : Id)
  | commit
  | enqueueUpload (settlement : Id)

abbrev JobOp.Ans : JobOp → Type
  | .now => DateTime
  | .setLock _ => Option Bool
  | .unsettledReaders => List Id
  | .reader _ => Option EmoneyReader
  | .unsettled _ => List EmoneyTransaction
  | .incrBatch _ => Option Nat
  | .insertSettlement _ => Id
  | .makedirs | .expireBatch _ | .writeFile _ _ | .link _ _ | .commit | .enqueueUpload _ => Unit

abbrev Job (α : Type) := Prog JobOp JobOp.Ans JobExc α

def ask (o : JobOp) : Job o.Ans := Prog.perform o

inductive Outcome where
  | skippedLocked
  | success (filesGenerated totalTransactions : Nat)
deriving DecidableEq, Repr

def orValueError {α : Type} : Except String α → Job α
  | .ok a => pure a
  | .error msg => Prog.raise (.value msg)

/-- May this run go on? Without Redis in the context nothing is locked. -/
def lease (ctx : Ctx) : Job Bool :=
  if ctx.redis then do
    let now ← ask .now
    let acquired ← ask (.setLock s!"lock:settlement:{datePart now.localTime}")
    pure (acquired.getD false)
  else pure true

/-- `date().isoformat()`. -/
def isoDate (t : LocalTime) : String :=
  padded 4 t.year ++ "-" ++ padded 2 t.month ++ "-" ++ padded 2 t.day

def nextBatchNumber (ctx : Ctx) (readerId : Id) (date : String) : Job Nat :=
  if ctx.redis then do
    let key := s!"settlement:batch:{readerId}:{date}"
    match ← ask (.incrBatch key) with
    | none => pure 1
    | some n =>
      if n = 1 then do
        ask (.expireBatch key)
        pure n
      else pure n
  else pure 1

def enqueueUpload (ctx : Ctx) (settlement : Id) : Job Unit :=
  if ctx.redis then ask (.enqueueUpload settlement) else pure ()

section Job
variable (sha256 : String → String) (ctx : Ctx) (now : DateTime)

/-- One file and its record; the commit ends the transaction. -/
def settleChunk (readerId : Id) (mid tid : String) (chunk : List EmoneyTransaction) :
    Job Unit := do
  let batchNumber ← nextBatchNumber ctx readerId (isoDate now.localTime)
  let chunkTotal := (chunk.map (·.amountDeducted)).sum
  let filename := generateFilename now.localTime mid tid batchNumber
  let content ← orValueError
    (buildSettlementContent (chunk.map (·.settlementPayloadHex.getD "")) chunkTotal)
  let filePath := settlementDir ++ "/" ++ filename
  ask (.writeFile filePath content)
  let settlement ← ask (.insertSettlement
    { id := 0, filename, filePath, batchDate := now.date, batchNumber,
      totalTransactions := chunk.length, totalAmount := chunkTotal, status := "GENERATED",
      fileContentHash := sha256 content })
  ask (.link (chunk.map (·.id)) settlement)
  ask .commit
  enqueueUpload ctx settlement

def settleChunks (readerId : Id) (mid tid : String) :
    List (List EmoneyTransaction) → Nat × Nat → Job (Nat × Nat)
  | [], done => pure done
  | chunk :: chunks, done => do
    settleChunk sha256 ctx now readerId mid tid chunk
    settleChunks readerId mid tid chunks (done.1 + 1, done.2 + chunk.length)

/-- `transactions[i : i + MAX_TRX_PER_FILE]` for `i` in steps of the maximum. -/
def chunksOf (transactions : List EmoneyTransaction) : List (List EmoneyTransaction) :=
  (List.range ((transactions.length + (maxTrxPerFile - 1)) / maxTrxPerFile)).map fun i =>
    (transactions.drop (i * maxTrxPerFile)).take maxTrxPerFile

/-- A reader without MID or TID is skipped. -/
def settleReader (readerId : Id) (done : Nat × Nat) : Job (Nat × Nat) := do
  match ← ask (.reader readerId) with
  | none => pure done
  | some reader =>
    match truthy reader.mid, truthy reader.tid with
    | some mid, some tid => do
      let transactions ← ask (.unsettled readerId)
      settleChunks sha256 ctx now readerId mid tid (chunksOf transactions) done
    | _, _ => pure done

def settleReaders : List Id → Nat × Nat → Job (Nat × Nat)
  | [], done => pure done
  | readerId :: readerIds, done => do
    let done ← settleReader sha256 ctx now readerId done
    settleReaders readerIds done

def generateSettlementFile : Job Outcome := do
  if !(← lease ctx) then pure .skippedLocked
  else do
    ask .makedirs
    match ← ask .unsettledReaders with
    | [] => pure (.success 0 0)
    | readerIds => do
      let now ← ask .now
      let (files, transactions) ← settleReaders sha256 ctx now readerIds (0, 0)
      pure (.success files transactions)

end Job
end ParkIt.Settlement
