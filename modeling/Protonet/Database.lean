import Protonet.Record

/-!
# The record store

The SQLite tables, the capacity gate and the batch insertion. A transaction that fails leaves the
tables as they were, so a failing operation returns an error and no new state. Times and disk
figures are readings of the outside world, one for each place the code takes one.
-/
namespace Protonet.Database
open MachineInt Postcard Record

def MAX_ACTIVE_RECORDS : ℕ := 1000000
def MAX_DATABASE_BYTES : ℕ := 1024 * 1024 * 1024
def MIN_FREE_DISK_BYTES : ℕ := 512 * 1024 * 1024
def MAX_DAILY_NEW_RECORDS : ℕ := 100000
def DAY_MS : Int64 := 86400000

/-- A row of `records`. -/
structure Row where
  recordId : RecordId
  originPeerId : Bytes
  sequence : Int64
  createdAt : Int64
  expiresAt : Int64
  sha256 : Hash32
  blake3 : Hash32
  fileSize : Int64
  fileName : Option Text
  reason : Text
  threatLevel : UInt8
  signature : Bytes
  encodedRecord : Bytes
  deriving DecidableEq

def Row.originSequence (r : Row) : Bytes × Int64 := (r.originPeerId, r.sequence)

/-- The `records` table with its primary key and its unique index. -/
@[ext]
structure RecordsTable where
  rows : List Row
  recordId_nodup : (rows.map Row.recordId).Nodup
  originSequence_nodup : (rows.map Row.originSequence).Nodup

def RecordsTable.empty : RecordsTable := ⟨[], by simp, by simp⟩

/-- `INSERT OR IGNORE`. The column checks hold of every row built from a record. -/
def RecordsTable.insertOrIgnore (t : RecordsTable) (row : Row) : Bool × RecordsTable :=
  if h : row.recordId ∈ t.rows.map Row.recordId ∨
      row.originSequence ∈ t.rows.map Row.originSequence then (false, t)
  else
    (true, ⟨t.rows ++ [row], by
      rw [List.map_append, List.nodup_append]
      exact ⟨t.recordId_nodup, by simp, by simpa using (not_or.mp h).1⟩, by
      rw [List.map_append, List.nodup_append]
      exact ⟨t.originSequence_nodup, by simp, by simpa using (not_or.mp h).2⟩⟩)

/-- Keys of the `metadata` table: the generation and one counter for each local identity. -/
inductive MetadataKey
  | generation
  | sequence (peer : PeerId)
  deriving DecidableEq

structure SignatureDatabase where
  /-- The path is `:memory:`. -/
  inMemory : Bool
  records : RecordsTable
  metadata : AList (fun _ : MetadataKey => UInt64)
  originSequences : AList (fun _ : Bytes => Int64)
  ingestionDaily : AList (fun _ : ℤ => ℤ)

/-- A freshly created schema. -/
def SignatureDatabase.open (inMemory : Bool) : SignatureDatabase :=
  ⟨inMemory, .empty, AList.singleton .generation 0, ∅, ∅⟩

inductive StorageError
  | activeRecordLimit
  | projectionOverflow
  | databaseByteLimit
  | freeDiskReserve
  | dailyGrowthLimit
  | sequenceRange
  | fileSizeRange
  deriving DecidableEq

/-- The error text, outermost context first. -/
def StorageError.text : StorageError → String
  | .activeRecordLimit => "storage safety mode: active record limit would be exceeded"
  | .projectionOverflow => "storage projection overflow"
  | .databaseByteLimit => "storage safety mode: database byte limit would be exceeded"
  | .freeDiskReserve => "storage safety mode: free disk reserve would be exceeded"
  | .dailyGrowthLimit => "storage safety mode: daily growth limit would be exceeded"
  | .sequenceRange =>
    "sequence exceeds SQLite range: out of range integral type conversion attempted"
  | .fileSizeRange =>
    "file size exceeds SQLite range: out of range integral type conversion attempted"

/-- What one insertion reads from outside: file sizes, free disk space and the clock, which is
read apart for expiry, for the day that is checked and for the day that is charged. -/
structure StorageReadings where
  databaseSizeBytes : UInt64
  availableDiskBytes : UInt64
  activeAt : Int64
  checkedAt : Int64
  chargedAt : Int64

/-- `div_euclid(DAY_MS)`. -/
def dayOf (unixMs : Int64) : ℤ := unixMs.toInt / DAY_MS.toInt

def Row.active (now : Int64) (r : Row) : Bool := decide (now < r.expiresAt)

def SignatureDatabase.activeCount (db : SignatureDatabase) (now : Int64) : ℕ :=
  (db.records.rows.filter (Row.active now)).length

/-- `try_fold(0, u64::checked_add)`. -/
def checkedSum : ℕ → List ℕ → Option ℕ
  | total, [] => some total
  | total, n :: ns => if total + n < 2 ^ 64 then checkedSum (total + n) ns else none

def projectedBytes (records : List FlaggedFileRecord) : Option ℕ :=
  checkedSum 0 ((records.take 100).map fun r => r.encode.length)

/-- Counts stay far below the word size, so the saturating sums are plain ones. -/
def SignatureDatabase.ensureCapacityWithLimits (db : SignatureDatabase) (readings : StorageReadings)
    (records : List FlaggedFileRecord) (maxActiveRecords maxDatabaseBytes minFreeDiskBytes
    maxDailyRecords : ℕ) : Except StorageError Unit :=
  if db.inMemory then .ok ()
  else
    let projectedRecords := min records.length 100
    if db.activeCount readings.activeAt + projectedRecords > maxActiveRecords then
      .error .activeRecordLimit
    else
      match projectedBytes records with
      | none => .error .projectionOverflow
      | some bytes =>
        if readings.databaseSizeBytes.toNat + bytes > maxDatabaseBytes then
          .error .databaseByteLimit
        else if readings.availableDiskBytes.toNat < minFreeDiskBytes + bytes then
          .error .freeDiskReserve
        else
          let today := ((db.ingestionDaily.lookup (dayOf readings.checkedAt)).getD 0).toNat
          if today + projectedRecords > maxDailyRecords then .error .dailyGrowthLimit
          else .ok ()

def SignatureDatabase.ensureCapacity (db : SignatureDatabase) (readings : StorageReadings)
    (records : List FlaggedFileRecord) : Except StorageError Unit :=
  db.ensureCapacityWithLimits readings records MAX_ACTIVE_RECORDS MAX_DATABASE_BYTES
    MIN_FREE_DISK_BYTES MAX_DAILY_NEW_RECORDS

def toRow (record : FlaggedFileRecord) : Except StorageError Row :=
  match i64TryFrom record.sequence with
  | none => .error .sequenceRange
  | some sequence =>
    match i64TryFrom record.fileSize with
    | none => .error .fileSizeRange
    | some fileSize =>
      .ok ⟨record.recordId, record.originPeerId.1, sequence, record.createdAtUnixMs,
        record.expiresAtUnixMs, record.sha256, record.blake3, fileSize, record.fileName,
        record.reason, record.threatLevel.toU8, record.signature.1, record.encode⟩

/-- The upsert of `origin_sequences`. -/
def SignatureDatabase.raiseHighest (db : SignatureDatabase) (origin : Bytes) (sequence : Int64) :
    SignatureDatabase :=
  let highest := match db.originSequences.lookup origin with
    | none => sequence
    | some old => max old sequence
  { db with originSequences := db.originSequences.insert origin highest }

def SignatureDatabase.insertOne (db : SignatureDatabase) (record : FlaggedFileRecord) :
    Except StorageError (Bool × SignatureDatabase) :=
  match toRow record with
  | .error e => .error e
  | .ok row =>
    match db.records.insertOrIgnore row with
    | (false, _) => .ok (false, db)
    | (true, records) =>
      .ok (true, { db with records }.raiseHighest row.originPeerId row.sequence)

/-- The loop of the transaction. -/
def SignatureDatabase.insertRows (db : SignatureDatabase) : List FlaggedFileRecord →
    Except StorageError (List Bool × SignatureDatabase)
  | [] => .ok ([], db)
  | record :: records =>
    match db.insertOne record with
    | .error e => .error e
    | .ok (inserted, db) =>
      match db.insertRows records with
      | .error e => .error e
      | .ok (results, db) => .ok (inserted :: results, db)

def SignatureDatabase.incrementGeneration (db : SignatureDatabase) : SignatureDatabase :=
  let current := (db.metadata.lookup .generation).getD 0
  { db with metadata := db.metadata.insert .generation (saturatingAdd current 1) }

/-- The upsert of `ingestion_daily`. -/
def SignatureDatabase.chargeDay (db : SignatureDatabase) (day count : ℤ) : SignatureDatabase :=
  let charged := match db.ingestionDaily.lookup day with
    | none => count
    | some old => old + count
  { db with ingestionDaily := db.ingestionDaily.insert day charged }

def SignatureDatabase.insertBatch (db : SignatureDatabase) (readings : StorageReadings)
    (records : List FlaggedFileRecord) : Except StorageError (List Bool × SignatureDatabase) :=
  match db.ensureCapacity readings records with
  | .error e => .error e
  | .ok () =>
    match db.insertRows (records.take 100) with
    | .error e => .error e
    | .ok (results, db) =>
      if results.any id then
        .ok (results,
          db.incrementGeneration.chargeDay (dayOf readings.chargedAt) (results.count true))
      else .ok (results, db)

/-- `insert_record`. -/
def SignatureDatabase.insertRecord (db : SignatureDatabase) (readings : StorageReadings)
    (record : FlaggedFileRecord) : Except StorageError (Bool × SignatureDatabase) :=
  match db.insertBatch readings [record] with
  | .error e => .error e
  | .ok (results, db) => .ok (results.headD false, db)

/-- Both counters fit the signed columns. -/
def Storable (r : FlaggedFileRecord) : Prop :=
  r.sequence.toNat < 2 ^ 63 ∧ r.fileSize.toNat < 2 ^ 63

instance (r : FlaggedFileRecord) : Decidable (Storable r) := by
  unfold Storable
  infer_instance

/-- The bytes of the records that count. -/
def encodedBytes (records : List FlaggedFileRecord) : ℕ :=
  ((records.take 100).map fun r => r.encode.length).sum

lemma checkedSum_eq {total : ℕ} {ns : List ℕ} (h : total < 2 ^ 64) :
    checkedSum total ns = if total + ns.sum < 2 ^ 64 then some (total + ns.sum) else none := by
  induction ns generalizing total with
  | nil => rw [checkedSum, List.sum_nil, Nat.add_zero, if_pos h]
  | cons n ns ih =>
    rw [checkedSum, List.sum_cons, ← Nat.add_assoc]
    by_cases hn : total + n < 2 ^ 64
    · rw [if_pos hn, ih hn]
    · rw [if_neg hn, if_neg (by omega)]

/-- The gate of a store on disk keeps the four limits; one in memory has none. -/
theorem ensureCapacity_ok_iff {db : SignatureDatabase} {readings : StorageReadings}
    {records : List FlaggedFileRecord} : db.ensureCapacity readings records = .ok () ↔
      (db.inMemory = false →
        db.activeCount readings.activeAt + min records.length 100 ≤ MAX_ACTIVE_RECORDS ∧
        readings.databaseSizeBytes.toNat + encodedBytes records ≤ MAX_DATABASE_BYTES ∧
        MIN_FREE_DISK_BYTES + encodedBytes records ≤ readings.availableDiskBytes.toNat ∧
        ((db.ingestionDaily.lookup (dayOf readings.checkedAt)).getD 0).toNat +
          min records.length 100 ≤ MAX_DAILY_NEW_RECORDS) := by
  have hbytes : projectedBytes records =
      if encodedBytes records < 2 ^ 64 then some (encodedBytes records) else none := by
    rw [projectedBytes, checkedSum_eq (by decide), Nat.zero_add]
    rfl
  have hsmall : MAX_DATABASE_BYTES < 2 ^ 64 := by decide
  unfold SignatureDatabase.ensureCapacity SignatureDatabase.ensureCapacityWithLimits
  rw [hbytes]
  rcases hfile : db.inMemory with _ | _
  · rw [if_neg Bool.false_ne_true]
    simp only [true_implies]
    by_cases hlong : encodedBytes records < 2 ^ 64
    · rw [if_pos hlong]
      dsimp only
      split_ifs with hactive hsize hdisk hday
      · exact iff_of_false nofun fun h => by omega
      · exact iff_of_false nofun fun h => by omega
      · exact iff_of_false nofun fun h => by omega
      · exact iff_of_false nofun fun h => by omega
      · exact iff_of_true rfl ⟨by omega, by omega, by omega, by omega⟩
    · rw [if_neg hlong]
      dsimp only
      split_ifs
      · exact iff_of_false nofun fun h => by omega
      · exact iff_of_false nofun fun h => by omega
  · rw [if_pos rfl]
    exact iff_of_true rfl nofun

theorem toRow_ok_iff {r : FlaggedFileRecord} : (∃ row, toRow r = .ok row) ↔ Storable r := by
  unfold toRow Storable
  rw [← i64TryFrom_isSome, ← i64TryFrom_isSome]
  cases i64TryFrom r.sequence with
  | none => simp
  | some s => cases i64TryFrom r.fileSize <;> simp

/-- A row names its record, origin, sequence and times, and carries the encoding. -/
theorem toRow_fields {r : FlaggedFileRecord} {row : Row} (h : toRow r = .ok row) :
    row.recordId = r.recordId ∧ row.originPeerId = r.originPeerId.1 ∧
      row.sequence.toInt = r.sequence.toNat ∧ row.createdAt = r.createdAtUnixMs ∧
      row.expiresAt = r.expiresAtUnixMs ∧ row.encodedRecord = r.encode := by
  unfold toRow at h
  cases hs : i64TryFrom r.sequence with
  | none => simp [hs] at h
  | some s =>
    cases hf : i64TryFrom r.fileSize with
    | none => simp [hs, hf] at h
    | some f =>
      simp only [hs, hf, Except.ok.injEq] at h
      subst h
      exact ⟨rfl, rfl, (i64TryFrom_eq_some.mp hs).2, rfl, rfl, rfl⟩

theorem insertOrIgnore_fst (t : RecordsTable) (row : Row) :
    (t.insertOrIgnore row).1 = true ↔
      row.recordId ∉ t.rows.map Row.recordId ∧
        row.originSequence ∉ t.rows.map Row.originSequence := by
  unfold RecordsTable.insertOrIgnore
  split_ifs with h
  · simp only [false_iff, not_and_or, not_not]
    exact h
  · simpa [not_or] using h

theorem insertOrIgnore_rows (t : RecordsTable) (row : Row) :
    (t.insertOrIgnore row).2.rows =
      if (t.insertOrIgnore row).1 then t.rows ++ [row] else t.rows := by
  unfold RecordsTable.insertOrIgnore
  split
  · exact (if_neg Bool.false_ne_true).symm
  · exact (if_pos rfl).symm

theorem insertOne_ok_iff {db : SignatureDatabase} {r : FlaggedFileRecord} :
    (∃ out, db.insertOne r = .ok out) ↔ Storable r := by
  rw [← toRow_ok_iff]
  unfold SignatureDatabase.insertOne
  cases toRow r with
  | error e => simp
  | ok row =>
    simp only [Except.ok.injEq, exists_eq', iff_true]
    split <;> simp

theorem insertOne_eq {db db' : SignatureDatabase} {r : FlaggedFileRecord} {inserted : Bool}
    (h : db.insertOne r = .ok (inserted, db')) : ∃ row, toRow r = .ok row ∧
      inserted = (db.records.insertOrIgnore row).1 ∧
      db'.records = (db.records.insertOrIgnore row).2 ∧ db'.inMemory = db.inMemory := by
  unfold SignatureDatabase.insertOne at h
  cases hr : toRow r with
  | error e => simp [hr] at h
  | ok row =>
    refine ⟨row, rfl, ?_⟩
    rcases ht : db.records.insertOrIgnore row with ⟨b, t⟩
    cases b with
    | false =>
      simp only [hr, ht, Except.ok.injEq, Prod.mk.injEq] at h
      obtain ⟨rfl, rfl⟩ := h
      have hsame : t = db.records := by
        have := insertOrIgnore_rows db.records row
        rw [ht] at this
        exact RecordsTable.ext this
      exact ⟨rfl, hsame.symm, rfl⟩
    | true =>
      simp only [hr, ht, Except.ok.injEq, Prod.mk.injEq] at h
      obtain ⟨rfl, rfl⟩ := h
      exact ⟨rfl, rfl, rfl⟩

theorem insertRows_ok_iff {db : SignatureDatabase} {rs : List FlaggedFileRecord} :
    (∃ out, db.insertRows rs = .ok out) ↔ ∀ r ∈ rs, Storable r := by
  induction rs generalizing db with
  | nil => simp [SignatureDatabase.insertRows]
  | cons r rs ih =>
    rw [List.forall_mem_cons, ← @insertOne_ok_iff db]
    unfold SignatureDatabase.insertRows
    cases h : db.insertOne r with
    | error e => simp
    | ok out =>
      obtain ⟨inserted, db'⟩ := out
      simp only [Except.ok.injEq, exists_eq', true_and]
      rw [← @ih db']
      cases db'.insertRows rs <;> simp

theorem insertRows_nil {db db' : SignatureDatabase} {results : List Bool}
    (h : db.insertRows [] = .ok (results, db')) : results = [] ∧ db' = db := by
  obtain ⟨hresults, hdb⟩ := Prod.mk.inj (Except.ok.inj h)
  exact ⟨hresults.symm, hdb.symm⟩

theorem insertRows_cons {db db' : SignatureDatabase} {r : FlaggedFileRecord}
    {rs : List FlaggedFileRecord} {results : List Bool}
    (h : db.insertRows (r :: rs) = .ok (results, db')) : ∃ inserted mid tail,
      db.insertOne r = .ok (inserted, mid) ∧ mid.insertRows rs = .ok (tail, db') ∧
      results = inserted :: tail := by
  unfold SignatureDatabase.insertRows at h
  rcases hone : db.insertOne r with e | ⟨inserted, mid⟩
  · simp [hone] at h
  · rcases hrest : mid.insertRows rs with e | ⟨tail, last⟩
    · simp [hone, hrest] at h
    · simp only [hone, hrest, Except.ok.injEq, Prod.mk.injEq] at h
      obtain ⟨rfl, rfl⟩ := h
      exact ⟨inserted, mid, tail, rfl, hrest, rfl⟩

theorem insertRows_length {db db' : SignatureDatabase} {rs : List FlaggedFileRecord}
    {results : List Bool} (h : db.insertRows rs = .ok (results, db')) :
    results.length = rs.length := by
  induction rs generalizing db results with
  | nil => simp [(insertRows_nil h).1]
  | cons r rs ih =>
    obtain ⟨inserted, mid, tail, -, hrest, rfl⟩ := insertRows_cons h
    simp [ih hrest]

/-- A batch goes through exactly when the gate lets it in and each of its first hundred records
fits the signed columns. -/
theorem insertBatch_ok_iff {db : SignatureDatabase} {readings : StorageReadings}
    {rs : List FlaggedFileRecord} : (∃ out, db.insertBatch readings rs = .ok out) ↔
      db.ensureCapacity readings rs = .ok () ∧ ∀ r ∈ rs.take 100, Storable r := by
  rw [← @insertRows_ok_iff db]
  unfold SignatureDatabase.insertBatch
  cases db.ensureCapacity readings rs with
  | error e => simp
  | ok u =>
    cases db.insertRows (rs.take 100) with
    | error e => simp
    | ok out =>
      obtain ⟨results, db'⟩ := out
      simp only [Except.ok.injEq, exists_eq', true_and]
      split_ifs <;> simp

theorem insertBatch_eq {db db' : SignatureDatabase} {readings : StorageReadings}
    {rs : List FlaggedFileRecord} {results : List Bool}
    (h : db.insertBatch readings rs = .ok (results, db')) :
    ∃ db₁, db.insertRows (rs.take 100) = .ok (results, db₁) ∧ db'.records = db₁.records ∧
      db'.originSequences = db₁.originSequences ∧ db'.inMemory = db₁.inMemory := by
  unfold SignatureDatabase.insertBatch at h
  cases hc : db.ensureCapacity readings rs with
  | error e => simp [hc] at h
  | ok u =>
    cases hr : db.insertRows (rs.take 100) with
    | error e => simp [hc, hr] at h
    | ok out =>
      obtain ⟨res, db₁⟩ := out
      simp only [hc, hr] at h
      split_ifs at h
      all_goals
        simp only [Except.ok.injEq, Prod.mk.injEq] at h
        obtain ⟨rfl, rfl⟩ := h
        exact ⟨db₁, rfl, rfl, rfl, rfl⟩

lemma insertRecord_eq {db : SignatureDatabase} {readings : StorageReadings}
    {r : FlaggedFileRecord} (hgate : db.ensureCapacity readings [r] = .ok ())
    (hfit : Storable r) : ∃ row db', toRow r = .ok row ∧
      db.insertRecord readings r = .ok ((db.records.insertOrIgnore row).1, db') ∧
      db'.records = (db.records.insertOrIgnore row).2 := by
  have hok := insertBatch_ok_iff.mpr ⟨hgate, show ∀ s ∈ [r].take 100, Storable s by simpa⟩
  obtain ⟨⟨results, db'⟩, hi⟩ := hok
  obtain ⟨db₁, hrows, hrec, -⟩ := insertBatch_eq hi
  simp only [List.take, SignatureDatabase.insertRows] at hrows
  rcases hone : db.insertOne r with e | ⟨inserted, db₂⟩
  · simp [hone] at hrows
  · simp only [hone, Except.ok.injEq, Prod.mk.injEq] at hrows
    obtain ⟨rfl, rfl⟩ := hrows
    obtain ⟨row, hrow, hins, ht, -⟩ := insertOne_eq hone
    exact ⟨row, db', hrow, by simp [SignatureDatabase.insertRecord, hi, hins], hrec.trans ht⟩

end Protonet.Database
