import Protonet.Database

/-!
# The persistence worker

Requests queue up for one writer thread, which inserts them in batches and reports every request
of a batch. Timings and sizes carried for display are left out.
-/
namespace Protonet.Worker
open Record Database

def PERSISTENCE_QUEUE_CAPACITY : ℕ := 10000
def MAX_BATCH : ℕ := 100

structure PersistRequest where
  record : FlaggedFileRecord
  source : Option PeerId
  receivedAt : ℕ
  gossipValidation : Option (RecordId × PeerId)
  deriving DecidableEq

inductive PersistError
  | storageSafety (reason : String)
  | database (reason : String)
  deriving DecidableEq

inductive PersistEvent
  | stored (request : PersistRequest)
  | duplicate (recordId : RecordId) (origin : Option PeerId) (sequence : UInt64)
      (gossipValidation : Option (RecordId × PeerId))
  | failed (recordId : RecordId) (error : PersistError)
      (gossipValidation : Option (RecordId × PeerId))
  deriving DecidableEq

def PersistEvent.isFailed : PersistEvent → Bool
  | .failed .. => true
  | _ => false

/-- The error is told apart by its text. -/
def persistError (e : StorageError) : PersistError :=
  if decide ("storage safety mode".toList <:+: e.text.toList) then .storageSafety e.text
  else .database e.text

def reportOf (K : Primitives) (request : PersistRequest) (inserted : Bool) : PersistEvent :=
  if inserted then .stored request
  else .duplicate request.record.recordId (request.record.origin K).toOption
    request.record.sequence request.gossipValidation

/-- One round of the writer: a batch, the store after it and the reports in order. -/
def work (K : Primitives) (db : SignatureDatabase) (readings : StorageReadings)
    (batch : List PersistRequest) : List PersistEvent × SignatureDatabase :=
  match db.insertBatch readings (batch.map PersistRequest.record) with
  | .ok (results, db') => ((batch.zip results).map fun p => reportOf K p.1 p.2, db')
  | .error e => (batch.map fun request =>
      .failed request.record.recordId (persistError e) request.gossipValidation, db)

/-- No request of a batch fails when the gate lets it in and its records fit the columns. -/
lemma work_not_failed {K : Primitives} {db : SignatureDatabase} {readings : StorageReadings}
    {batch : List PersistRequest}
    (hgate : db.ensureCapacity readings (batch.map PersistRequest.record) = .ok ())
    (hfit : ∀ q ∈ batch, Storable q.record) :
    ∀ e ∈ (work K db readings batch).1, e.isFailed = false := by
  have hfit' : ∀ r ∈ (batch.map PersistRequest.record).take 100, Storable r := by
    intro r hr
    obtain ⟨q, hq, rfl⟩ := List.mem_map.mp (List.mem_of_mem_take hr)
    exact hfit q hq
  obtain ⟨⟨results, db'⟩, hi⟩ := insertBatch_ok_iff.mpr ⟨hgate, hfit'⟩
  intro e he
  simp only [work, hi] at he
  obtain ⟨⟨q, inserted⟩, -, rfl⟩ := List.mem_map.mp he
  cases inserted <;> rfl

lemma work_failed {K : Primitives} {db : SignatureDatabase} {readings : StorageReadings}
    {batch : List PersistRequest} (hlen : batch.length ≤ MAX_BATCH)
    (hfit : ¬ ∀ q ∈ batch, Storable q.record) :
    ∃ error, work K db readings batch = (batch.map fun request =>
      .failed request.record.recordId error request.gossipValidation, db) := by
  unfold work
  rcases hi : db.insertBatch readings (batch.map PersistRequest.record) with e | out
  · exact ⟨persistError e, rfl⟩
  · refine absurd (fun q hq => ?_) hfit
    have hok := (insertBatch_ok_iff.mp ⟨out, hi⟩).2
    rw [List.take_of_length_le (by simpa [MAX_BATCH] using hlen)] at hok
    exact hok q.record (List.mem_map_of_mem hq)

end Protonet.Worker
