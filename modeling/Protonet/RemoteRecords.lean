import Protonet.RecordIdentity
import Protonet.Worker

namespace Protonet.RemoteRecords
open Record RecordIdentity Database Worker

def WellKept (db : SignatureDatabase) : Prop :=
  ∀ row ∈ db.records.rows, ∃ record : FlaggedFileRecord,
    record.checkFieldBounds = .ok () ∧ toRow record = .ok row

/-- The record is one of the remote store. -/
def ComesFrom (remote : SignatureDatabase) (record : FlaggedFileRecord) : Prop :=
  record.checkFieldBounds = .ok () ∧ ∃ row ∈ remote.records.rows, toRow record = .ok row

/-- Rows of one origin and sequence number are rows of one record. -/
def Agree (remote db : SignatureDatabase) : Prop :=
  ∀ r ∈ db.records.rows, ∀ row ∈ remote.records.rows,
    r.originSequence = row.originSequence → r.recordId = row.recordId

def Has (db : SignatureDatabase) (id : RecordId) : Prop := id ∈ db.records.rows.map Row.recordId

instance (db : SignatureDatabase) (id : RecordId) : Decidable (Has db id) :=
  inferInstanceAs (Decidable (_ ∈ _))

/-- What an insertion of remote records keeps. -/
structure Grows (remote db db' : SignatureDatabase) : Prop where
  kept : WellKept db'
  agree : Agree remote db'
  has : ∀ id, Has db id → Has db' id

variable {K : Primitives} {remote db db' db'' : SignatureDatabase} {record : FlaggedFileRecord}

lemma WellKept.decode (h : WellKept db) {row : Row} (hrow : row ∈ db.records.rows) :
    ∃ record, FlaggedFileRecord.decode row.encodedRecord = .ok record ∧
      record.recordId = row.recordId ∧ record.checkFieldBounds = .ok () ∧
      toRow record = .ok row := by
  obtain ⟨record, hbounds, hto⟩ := h row hrow
  obtain ⟨hid, -, -, -, -, hencoded⟩ := toRow_fields hto
  exact ⟨record, by rw [hencoded, decode_encode hbounds], hid.symm, hbounds, hto⟩

lemma ComesFrom.storable (h : ComesFrom remote record) : Storable record := by
  obtain ⟨-, row, -, hto⟩ := h
  exact toRow_ok_iff.mp ⟨row, hto⟩

lemma has_insertRows {id : RecordId} {records : List FlaggedFileRecord} {results : List Bool}
    (h : db.insertRows records = .ok (results, db')) (hid : Has db id) : Has db' id := by
  induction records generalizing db results with
  | nil => rwa [(insertRows_nil h).2]
  | cons record records ih =>
    obtain ⟨inserted, mid, tail, hone, hrest, -⟩ := insertRows_cons h
    refine ih hrest ?_
    obtain ⟨row, -, -, hrecords, -⟩ := insertOne_eq hone
    rw [Has, hrecords, insertOrIgnore_rows]
    split_ifs
    · rw [List.map_append]
      exact List.mem_append_left _ hid
    · exact hid

lemma has_work {id : RecordId} {readings : StorageReadings} {batch : List PersistRequest}
    (hid : Has db id) : Has (work K db readings batch).2 id := by
  unfold work
  rcases hi : db.insertBatch readings (batch.map PersistRequest.record) with e | ⟨results, out⟩
  · exact hid
  · obtain ⟨db₁, hrows, hrecords, -⟩ := insertBatch_eq hi
    dsimp only
    rw [Has, hrecords]
    exact has_insertRows hrows hid

lemma Grows.refl (hkept : WellKept db) (hagree : Agree remote db) : Grows remote db db :=
  ⟨hkept, hagree, fun _ h => h⟩

lemma Grows.trans (h : Grows remote db db') (h' : Grows remote db' db'') :
    Grows remote db db'' := ⟨h'.kept, h'.agree, fun id hid => h'.has id (h.has id hid)⟩

lemma grows_insertOne {inserted : Bool} (hkept : WellKept db) (hagree : Agree remote db)
    (hrecord : ComesFrom remote record) (h : db.insertOne record = .ok (inserted, db')) :
    Grows remote db db' ∧ Has db' record.recordId := by
  obtain ⟨hbounds, row, hrow, hto⟩ := hrecord
  obtain ⟨row', hto', hins, hrecords, -⟩ := insertOne_eq h
  obtain rfl : row = row' := Except.ok.inj (hto.symm.trans hto')
  have hid : row.recordId = record.recordId := (toRow_fields hto).1
  have hrows := insertOrIgnore_rows db.records row
  rw [← hins, ← hrecords] at hrows
  have hfst := insertOrIgnore_fst db.records row
  rw [← hins] at hfst
  cases inserted with
  | false =>
    have hsame : db'.records.rows = db.records.rows := by simpa using hrows
    refine ⟨⟨by rwa [WellKept, hsame], by rwa [Agree, hsame], fun id => by
      rw [Has, Has, hsame]; exact fun h => h⟩, ?_⟩
    rw [Has, hsame, ← hid]
    by_contra hnot
    have hpair : row.originSequence ∈ db.records.rows.map Row.originSequence := by
      by_contra hno
      simpa using hfst.mpr ⟨hnot, hno⟩
    obtain ⟨r, hr, hseq⟩ := List.mem_map.mp hpair
    exact hnot (List.mem_map.mpr ⟨r, hr, hagree r hr row hrow hseq⟩)
  | true =>
    have hnew : db'.records.rows = db.records.rows ++ [row] := by simpa using hrows
    refine ⟨⟨?_, ?_, ?_⟩, ?_⟩
    · intro r hr
      rw [hnew] at hr
      rcases List.mem_append.mp hr with hr | hr
      · exact hkept r hr
      · obtain rfl := List.mem_singleton.mp hr
        exact ⟨record, hbounds, hto⟩
    · intro r hr s hs hseq
      rw [hnew] at hr
      rcases List.mem_append.mp hr with hr | hr
      · exact hagree r hr s hs hseq
      · obtain rfl := List.mem_singleton.mp hr
        rw [List.inj_on_of_nodup_map remote.records.originSequence_nodup hrow hs hseq]
    · intro id hmem
      rw [Has, hnew, List.map_append]
      exact List.mem_append_left _ hmem
    · rw [Has, hnew, ← hid, List.map_append]
      exact List.mem_append_right _ (by simp)

lemma grows_insertRows {records : List FlaggedFileRecord} {results : List Bool}
    (hkept : WellKept db) (hagree : Agree remote db)
    (hrecords : ∀ r ∈ records, ComesFrom remote r)
    (h : db.insertRows records = .ok (results, db')) :
    Grows remote db db' ∧ ∀ r ∈ records, Has db' r.recordId := by
  induction records generalizing db results with
  | nil =>
    obtain ⟨-, rfl⟩ := insertRows_nil h
    exact ⟨.refl hkept hagree, by simp⟩
  | cons record records ih =>
    obtain ⟨inserted, mid, tail, hone, hrest, -⟩ := insertRows_cons h
    obtain ⟨hgrows, hhas⟩ := grows_insertOne hkept hagree (hrecords record (by simp)) hone
    obtain ⟨hgrows', hhas'⟩ := ih hgrows.kept hgrows.agree
      (fun r hr => hrecords r (by simp [hr])) hrest
    refine ⟨hgrows.trans hgrows', fun r hr => ?_⟩
    rcases List.mem_cons.mp hr with rfl | hr
    · exact hgrows'.has _ hhas
    · exact hhas' r hr

lemma grows_work {readings : StorageReadings} {batch : List PersistRequest}
    (hkept : WellKept db) (hagree : Agree remote db)
    (hbatch : ∀ q ∈ batch, ComesFrom remote q.record) (hlen : batch.length ≤ MAX_BATCH)
    (hgate : db.ensureCapacity readings (batch.map PersistRequest.record) = .ok ()) :
    Grows remote db (work K db readings batch).2 ∧
      (∀ q ∈ batch, Has (work K db readings batch).2 q.record.recordId) ∧
      ∀ event ∈ (work K db readings batch).1, event.isFailed = false := by
  have hfit : ∀ q ∈ batch, Storable q.record := fun q hq => (hbatch q hq).storable
  have hcome : ∀ r ∈ batch.map PersistRequest.record, ComesFrom remote r := by
    intro r hr
    obtain ⟨q, hq, rfl⟩ := List.mem_map.mp hr
    exact hbatch q hq
  obtain ⟨⟨results, out⟩, hi⟩ := insertBatch_ok_iff.mpr
    ⟨hgate, fun r hr => (hcome r (List.mem_of_mem_take hr)).storable⟩
  obtain ⟨db', hrows, hrecords, -⟩ := insertBatch_eq hi
  rw [List.take_of_length_le (by simpa [MAX_BATCH] using hlen)] at hrows
  obtain ⟨hgrows, hhas⟩ := grows_insertRows hkept hagree hcome hrows
  have hout : (work K db readings batch).2.records = db'.records := by
    simp only [work, hi, hrecords]
  refine ⟨⟨?_, ?_, fun id hid => ?_⟩, fun q hq => ?_, work_not_failed hgate hfit⟩
  · rw [WellKept, hout]
    exact hgrows.kept
  · rw [Agree, hout]
    exact hgrows.agree
  · rw [Has, hout]
    exact hgrows.has id hid
  · rw [Has, hout]
    exact hhas q.record (List.mem_map_of_mem hq)

end Protonet.RemoteRecords
