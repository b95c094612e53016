import Protonet.Persistence

namespace Protonet.SafetyStatus
open MachineInt Postcard Record RecordIdentity Database DatabaseBatch Swarm Blocking Persistence
  StepRun

structure StorageSafetyStatus where
  safe : Bool
  reason : Option String
  databaseSizeBytes : UInt64
  activeRecords : ℕ
  availableDiskBytes : UInt64

def storageSafetyStatus (db : SignatureDatabase) (readings : StorageReadings) :
    StorageSafetyStatus :=
  let activeRecords := db.activeCount readings.activeAt
  let reason :=
    if readings.databaseSizeBytes.toNat ≥ MAX_DATABASE_BYTES then
      some "database byte limit reached"
    else if activeRecords ≥ MAX_ACTIVE_RECORDS then some "active record limit reached"
    else if readings.availableDiskBytes.toNat < MIN_FREE_DISK_BYTES then
      some "free disk reserve reached"
    else none
  ⟨reason.isNone, reason, readings.databaseSizeBytes, activeRecords, readings.availableDiskBytes⟩

/-- What `schedule_cleanup` sends once the cleanup is done. -/
def maintenance (db : SignatureDatabase) (readings : StorageReadings) : DbAction :=
  let safety := storageSafetyStatus db readings
  .maintenance safety.safe safety.reason

/-- The gate refuses the record alone. -/
def Refused (db : SignatureDatabase) (readings : StorageReadings) (record : FlaggedFileRecord) :
    Prop :=
  ∃ e, db.ensureCapacity readings [record] = .error e

/-- The record's encoding fits what is left of the byte limit and of the disk reserve. -/
def Fits (readings : StorageReadings) (record : FlaggedFileRecord) : Prop :=
  readings.databaseSizeBytes.toNat + record.encode.length ≤ MAX_DATABASE_BYTES ∧
    MIN_FREE_DISK_BYTES + record.encode.length ≤ readings.availableDiskBytes.toNat

def today (db : SignatureDatabase) (readings : StorageReadings) : ℕ :=
  ((db.ingestionDaily.lookup (dayOf readings.checkedAt)).getD 0).toNat

/-- The status and the gate agree about the record, and maintenance leaves the safety mode of no
node whose next insertion of the record, which fits, is refused. -/
structure Agrees (db : SignatureDatabase) (readings : StorageReadings)
    (record : FlaggedFileRecord) : Prop where
  endangered : (storageSafetyStatus db readings).safe = false → Refused db readings record
  safe : (storageSafetyStatus db readings).safe = true → Refused db readings record →
    ¬ Fits readings record
  leaves : ∀ (a : Actor) (c : Clock),
    (a.handleDbAction (maintenance db readings) c).storageSafetyMode = false →
      Refused db readings record → ¬ Fits readings record

variable {db : SignatureDatabase} {readings : StorageReadings} {record : FlaggedFileRecord}

lemma encode_length_pos : 0 < record.encode.length := by
  refine List.length_pos_iff.mpr fun hnil => ?_
  have hdecode : flaggedFileRecordWire.decode record.encode = some (record, []) :=
    flaggedFileRecordWire.decode_encode_nil record
  rw [hnil] at hdecode
  have hnone : flaggedFileRecordWire.decode [] = none := rfl
  rw [hnone] at hdecode
  cases hdecode

lemma safe_iff : (storageSafetyStatus db readings).safe = true ↔
    readings.databaseSizeBytes.toNat < MAX_DATABASE_BYTES ∧
      db.activeCount readings.activeAt < MAX_ACTIVE_RECORDS ∧
      MIN_FREE_DISK_BYTES ≤ readings.availableDiskBytes.toNat := by
  unfold storageSafetyStatus
  dsimp only
  split_ifs with hsize hactive hdisk
  · simp; omega
  · simp; omega
  · simp; omega
  · simp; omega

lemma not_refused_iff (hfile : db.inMemory = false) : ¬ Refused db readings record ↔
    db.activeCount readings.activeAt < MAX_ACTIVE_RECORDS ∧ Fits readings record ∧
      today db readings < MAX_DAILY_NEW_RECORDS := by
  have hbytes : encodedBytes [record] = record.encode.length := by simp [encodedBytes]
  have hpass : ¬ Refused db readings record ↔ db.ensureCapacity readings [record] = .ok () := by
    unfold Refused
    rcases db.ensureCapacity readings [record] with e | ⟨⟩ <;> simp
  have hone : min [record].length 100 = 1 := rfl
  rw [hpass, ensureCapacity_ok_iff, hbytes, hone]
  unfold Fits today
  constructor
  · intro h
    obtain ⟨hactive, hsize, hdisk, hday⟩ := h hfile
    exact ⟨by omega, ⟨by omega, by omega⟩, by omega⟩
  · rintro ⟨hactive, ⟨hsize, hdisk⟩, hday⟩ -
    exact ⟨by omega, by omega, by omega, by omega⟩

lemma safe_of_fits (h : Fits readings record) : (storageSafetyStatus db readings).safe = true ↔
    db.activeCount readings.activeAt < MAX_ACTIVE_RECORDS := by
  have hpos := @encode_length_pos record
  obtain ⟨hsize, hdisk⟩ := h
  rw [safe_iff]
  omega

lemma maintenance_mode (a : Actor) (c : Clock) :
    (a.handleDbAction (maintenance db readings) c).storageSafetyMode =
      !(storageSafetyStatus db readings).safe := by
  unfold Actor.handleDbAction maintenance
  dsimp only
  split_ifs with hchanged
  · rfl
  · obtain ⟨hmode, -⟩ := not_or.mp hchanged
    exact (not_not.mp hmode).symm

/-- Status and gate agree about a record exactly when the day has room for another one, or the
record would not fit anyway, or the table is full. -/
theorem status_agrees_iff (hfile : db.inMemory = false) : Agrees db readings record ↔
    today db readings < MAX_DAILY_NEW_RECORDS ∨ ¬ Fits readings record ∨
      MAX_ACTIVE_RECORDS ≤ db.activeCount readings.activeAt := by
  have hgate := @not_refused_iff db readings record hfile
  constructor
  · intro h
    by_contra hnone
    obtain ⟨hday, hnone⟩ := not_or.mp hnone
    obtain ⟨hfits, hactive⟩ := not_or.mp hnone
    have hfits := not_not.mp hfits
    have hrefused : Refused db readings record :=
      not_not.mp fun hpass => hday (hgate.mp hpass).2.2
    exact h.safe ((safe_of_fits hfits).mpr (not_le.mp hactive)) hrefused hfits
  · intro hcond
    have hsafe : (storageSafetyStatus db readings).safe = true → Refused db readings record →
        ¬ Fits readings record := by
      intro hsafe hrefused hfits
      have hactive := (safe_of_fits hfits).mp hsafe
      refine absurd hrefused (hgate.mpr ⟨hactive, hfits, ?_⟩)
      rcases hcond with hday | hfit | hfull
      · exact hday
      · exact absurd hfits hfit
      · exact absurd hactive (not_lt.mpr hfull)
    refine ⟨fun hunsafe => ?_, hsafe, fun a c hleft => hsafe ?_⟩
    · refine not_not.mp fun hpass => ?_
      obtain ⟨hactive, hfits, -⟩ := hgate.mp hpass
      rw [(safe_of_fits hfits).mpr hactive] at hunsafe
      cases hunsafe
    · rw [maintenance_mode] at hleft
      simpa using hleft

def chargedStore (count : ℤ) : SignatureDatabase :=
  { SignatureDatabase.open false with ingestionDaily := AList.singleton 0 count }

theorem chargedStore_agrees :
    Agrees (chargedStore 99999) sampleReadings (sampleRecord 1 1 1 0 1000) :=
  (status_agrees_iff rfl).mpr (.inl (by decide +kernel))

/-- A node in its safety mode before an empty store whose day is used up. -/
def usedUpEngine : Engine :=
  ⟨{ sampleNode with
      storageSafetyMode := true
      storageSafetyReason := some StorageError.dailyGrowthLimit.text }, chargedStore 100000, []⟩

/-- Maintenance, then a record from a peer. -/
def tickAndGossip (record : FlaggedFileRecord) : List Turn :=
  .swarm (.still 0 0) (.dbAction (maintenance (chargedStore 100000) sampleReadings)) ::
    gossiped record

/-- The status of this store is safe and the record fits, but the gate refuses it; maintenance
leaves the safety mode, and the record switches it on again. -/
theorem usedUp_flaps :
    ¬ Agrees (chargedStore 100000) sampleReadings (sampleRecord 1 1 1 0 1000) ∧
      (chargedStore 100000).ensureCapacity sampleReadings [sampleRecord 1 1 1 0 1000] =
        .error .dailyGrowthLimit ∧
      (run (Engine.step samplePrimitives) usedUpEngine
        ((tickAndGossip (sampleRecord 1 1 1 0 1000)).take 1)).actor.storageSafetyMode = false ∧
      (run (Engine.step samplePrimitives) usedUpEngine
        (tickAndGossip (sampleRecord 1 1 1 0 1000))).actor.storageSafetyMode = true := by
  have hsafe : (storageSafetyStatus (chargedStore 100000) sampleReadings).safe = true := by
    decide +kernel
  have hgate : (chargedStore 100000).ensureCapacity sampleReadings [sampleRecord 1 1 1 0 1000] =
      .error .dailyGrowthLimit := by decide +kernel
  have hfits : Fits sampleReadings (sampleRecord 1 1 1 0 1000) := by
    unfold Fits
    decide +kernel
  exact ⟨fun h => h.safe hsafe ⟨_, hgate⟩ hfits, hgate, by decide +kernel, by decide +kernel⟩

end Protonet.SafetyStatus
