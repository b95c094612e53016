import Protonet.IdentityReset
import Protonet.RecordCreation
import Protonet.Removal
import Protonet.Worker

namespace Protonet.StoreRows
open Postcard Record RecordIdentity Database Worker RecordCreation

/-- The columns are the record's fields, and the last one its encoding. -/
structure Matches (row : Row) (r : FlaggedFileRecord) : Prop where
  recordId : row.recordId = r.recordId
  originPeerId : row.originPeerId = r.originPeerId.1
  sequence : row.sequence.toInt = r.sequence.toNat
  createdAt : row.createdAt = r.createdAtUnixMs
  expiresAt : row.expiresAt = r.expiresAtUnixMs
  sha256 : row.sha256 = r.sha256
  blake3 : row.blake3 = r.blake3
  fileSize : row.fileSize.toInt = r.fileSize.toNat
  fileName : row.fileName = r.fileName
  reason : row.reason = r.reason
  threatLevel : row.threatLevel = r.threatLevel.toU8
  signature : row.signature = r.signature.1
  encodedRecord : row.encodedRecord = r.encode

/-- The origin's highest sequence is at least that of the record. -/
def Covers (db : SignatureDatabase) (r : FlaggedFileRecord) : Prop :=
  ∃ highest, db.originSequences.lookup r.originPeerId.1 = some highest ∧
    (r.sequence.toNat : ℤ) ≤ highest.toInt

def Raised (db db' : SignatureDatabase) : Prop :=
  ∀ origin highest, db.originSequences.lookup origin = some highest →
    ∃ highest', db'.originSequences.lookup origin = some highest' ∧ highest ≤ highest'

/-- Every row is that of a genuine record once stored, and all records once stored are covered. -/
structure Integrity (K : Primitives) (db : SignatureDatabase) (stored : List FlaggedFileRecord) :
    Prop where
  rows : ∀ row ∈ db.records.rows, ∃ r ∈ stored, Genuine K r ∧ toRow r = .ok row
  highest : ∀ r ∈ stored, Covers db r

def storedIn (reports : List PersistEvent) : List FlaggedFileRecord :=
  reports.filterMap fun
    | .stored request => some request.record
    | _ => none

/-- The records of a batch whose insertion changed the table. -/
def accepted (rs : List FlaggedFileRecord) (results : List Bool) : List FlaggedFileRecord :=
  (rs.zip results).filterMap fun p => if p.2 then some p.1 else none

variable {K : Primitives} {db db' mid : SignatureDatabase} {r : FlaggedFileRecord} {row : Row}
  {stored rs : List FlaggedFileRecord} {results : List Bool}

lemma matches_of_toRow (h : toRow r = .ok row) : Matches row r := by
  obtain ⟨hid, horigin, hsequence, hcreated, hexpires, hencoded⟩ := toRow_fields h
  unfold toRow at h
  rcases hs : MachineInt.i64TryFrom r.sequence with _ | s
  · simp [hs] at h
  · rcases hf : MachineInt.i64TryFrom r.fileSize with _ | f
    · simp [hs, hf] at h
    · have hsize := (MachineInt.i64TryFrom_eq_some.mp hf).2
      simp only [hs, hf, Except.ok.injEq] at h
      subst h
      exact ⟨hid, horigin, hsequence, hcreated, hexpires, rfl, rfl, hsize, rfl, rfl, rfl, rfl,
        hencoded⟩

lemma raised_refl (db : SignatureDatabase) : Raised db db :=
  fun _ highest h => ⟨highest, h, Int64.le_refl _⟩

lemma Raised.trans (h : Raised db mid) (g : Raised mid db') : Raised db db' := by
  intro origin highest hdb
  obtain ⟨highest', hmid, hle⟩ := h origin highest hdb
  obtain ⟨highest'', hlast, hle'⟩ := g origin highest' hmid
  exact ⟨highest'', hlast, Int64.le_trans hle hle'⟩

lemma Covers.raised (h : Covers db r) (g : Raised db db') : Covers db' r := by
  obtain ⟨highest, hdb, hle⟩ := h
  obtain ⟨highest', hlast, hle'⟩ := g _ _ hdb
  exact ⟨highest', hlast, hle.trans (Int64.le_iff_toInt_le.mp hle')⟩

lemma raised_of_eq (h : db'.originSequences = db.originSequences) : Raised db db' := by
  intro origin highest hdb
  exact ⟨highest, by rw [h, hdb], Int64.le_refl _⟩

/-- The upsert leaves the greater of the two, and other origins alone. -/
lemma lookup_raiseHighest (origin other : Bytes) (sequence : Int64) :
    (db.raiseHighest origin sequence).originSequences.lookup other =
      if other = origin then
        some ((db.originSequences.lookup origin).elim sequence fun old => max old sequence)
      else db.originSequences.lookup other := by
  unfold SignatureDatabase.raiseHighest
  split_ifs with h
  · rw [h]
    refine (AList.lookup_insert _).trans ?_
    cases db.originSequences.lookup origin <;> rfl
  · exact AList.lookup_insert_ne h

lemma le_max_both (x y : Int64) : x ≤ max x y ∧ y ≤ max x y := by
  have hmax : max x y = if x ≤ y then y else x := rfl
  rw [hmax]
  split_ifs with h
  · exact ⟨h, Int64.le_refl y⟩
  · exact ⟨Int64.le_refl x, Int64.le_of_lt (Int64.not_le.mp h)⟩

lemma raised_raiseHighest (origin : Bytes) (sequence : Int64) :
    Raised db (db.raiseHighest origin sequence) := by
  intro other highest hdb
  rw [lookup_raiseHighest]
  split_ifs with h
  · rw [← h, hdb]
    exact ⟨_, rfl, (le_max_both _ _).1⟩
  · exact ⟨highest, hdb, Int64.le_refl _⟩

lemma raiseHighest_ge (origin : Bytes) (sequence : Int64) : ∃ highest,
    (db.raiseHighest origin sequence).originSequences.lookup origin = some highest ∧
      sequence ≤ highest := by
  rw [lookup_raiseHighest, if_pos rfl]
  rcases db.originSequences.lookup origin with _ | old
  · exact ⟨sequence, rfl, Int64.le_refl _⟩
  · exact ⟨_, rfl, (le_max_both old sequence).2⟩

lemma insertOne_does {inserted : Bool} (h : db.insertOne r = .ok (inserted, db')) :
    ∃ row, toRow r = .ok row ∧ Raised db db' ∧
      (inserted = false ∧ db'.records.rows = db.records.rows ∨
        inserted = true ∧ db'.records.rows = db.records.rows ++ [row] ∧ Covers db' r) := by
  unfold SignatureDatabase.insertOne at h
  rcases hrow : toRow r with e | row
  · simp [hrow] at h
  · rw [hrow] at h
    dsimp only at h
    have hrows := insertOrIgnore_rows db.records row
    obtain ⟨-, horigin, hsequence, -⟩ := toRow_fields hrow
    rcases ht : db.records.insertOrIgnore row with ⟨_ | _, t⟩
    all_goals
      rw [ht] at h hrows
      obtain ⟨rfl, rfl⟩ := Prod.mk.inj (Except.ok.inj h)
    · exact ⟨row, rfl, raised_refl db, .inl ⟨rfl, rfl⟩⟩
    · obtain ⟨highest, hlookup, hle⟩ :=
        @raiseHighest_ge { db with records := t } row.originPeerId row.sequence
      refine ⟨row, rfl, ?_, .inr ⟨rfl, hrows, highest, horigin ▸ hlookup, ?_⟩⟩
      · exact (raised_of_eq rfl).trans (@raised_raiseHighest { db with records := t } _ _)
      · rw [← hsequence]
        exact Int64.le_iff_toInt_le.mp hle

lemma integrity_insertOne {inserted : Bool} (h : Integrity K db stored) (hr : Genuine K r)
    (hi : db.insertOne r = .ok (inserted, db')) :
    Integrity K db' (stored ++ if inserted then [r] else []) ∧ Raised db db' := by
  obtain ⟨row, hrow, hraised, ⟨rfl, hrows⟩ | ⟨rfl, hrows, hcovers⟩⟩ := insertOne_does hi
  · refine ⟨⟨fun x hx => ?_, fun s hs => ?_⟩, hraised⟩
    · rw [hrows] at hx
      simpa using h.rows x hx
    · exact (h.highest s (by simpa using hs)).raised hraised
  · refine ⟨⟨fun x hx => ?_, fun s hs => ?_⟩, hraised⟩
    · rw [hrows] at hx
      rcases List.mem_append.mp hx with hold | hnew
      · obtain ⟨s, hs, hgenuine, hto⟩ := h.rows x hold
        exact ⟨s, List.mem_append_left _ hs, hgenuine, hto⟩
      · rw [List.mem_singleton.mp hnew]
        exact ⟨r, by simp, hr, hrow⟩
    · rcases List.mem_append.mp hs with hold | hnew
      · exact (h.highest s hold).raised hraised
      · rw [List.mem_singleton.mp hnew]
        exact hcovers

lemma accepted_cons {inserted : Bool} {tail : List Bool} :
    accepted (r :: rs) (inserted :: tail) =
      (if inserted then [r] else []) ++ accepted rs tail := by
  cases inserted <;> rfl

lemma integrity_insertRows (h : Integrity K db stored) (hrs : ∀ r ∈ rs, Genuine K r)
    (hi : db.insertRows rs = .ok (results, db')) :
    Integrity K db' (stored ++ accepted rs results) ∧ Raised db db' := by
  induction rs generalizing db stored results with
  | nil =>
    obtain ⟨rfl, rfl⟩ := insertRows_nil hi
    exact ⟨by simpa [accepted] using h, raised_refl db'⟩
  | cons r rs ih =>
    obtain ⟨inserted, mid, tail, hone, hrest, rfl⟩ := insertRows_cons hi
    obtain ⟨hmid, hraised⟩ := integrity_insertOne h (hrs r List.mem_cons_self) hone
    obtain ⟨hlast, hraised'⟩ := ih hmid (fun s hs => hrs s (List.mem_cons_of_mem _ hs)) hrest
    rw [List.append_assoc] at hlast
    exact ⟨by rwa [accepted_cons], hraised.trans hraised'⟩

lemma Integrity.shrink (h : Integrity K db stored)
    (hsub : db'.records.rows.Sublist db.records.rows)
    (hsame : db'.originSequences = db.originSequences) :
    Integrity K db' stored ∧ Raised db db' := by
  have hraised := raised_of_eq hsame
  exact ⟨⟨fun row hrow => h.rows row (hsub.subset hrow),
    fun r hr => (h.highest r hr).raised hraised⟩, hraised⟩

lemma storedIn_reports (batch : List PersistRequest) (results : List Bool) :
    storedIn ((batch.zip results).map fun p => reportOf K p.1 p.2) =
      accepted (batch.map PersistRequest.record) results := by
  unfold storedIn accepted
  rw [List.filterMap_map, List.zip_map_left, List.filterMap_map]
  congr 1
  funext ⟨q, inserted⟩
  cases inserted <;> rfl

lemma integrity_work {readings : StorageReadings} {batch : List PersistRequest}
    (h : Integrity K db stored) (hlen : batch.length ≤ MAX_BATCH)
    (hbatch : ∀ q ∈ batch, Genuine K q.record) :
    Integrity K (work K db readings batch).2 (stored ++ storedIn (work K db readings batch).1) ∧
      Raised db (work K db readings batch).2 := by
  unfold work
  rcases hi : db.insertBatch readings (batch.map PersistRequest.record) with e | ⟨results, db'⟩
  · have hnone : storedIn (batch.map fun request : PersistRequest =>
        .failed request.record.recordId (persistError e) request.gossipValidation) = [] := by
      simp [storedIn, List.filterMap_map]
    dsimp only
    rw [hnone, List.append_nil]
    exact ⟨h, raised_refl db⟩
  · obtain ⟨db₁, hrows, hrecords, hhighest, -⟩ := insertBatch_eq hi
    rw [List.take_of_length_le (by simpa [MAX_BATCH] using hlen)] at hrows
    have hgenuine : ∀ r ∈ batch.map PersistRequest.record, Genuine K r := by
      intro r hr
      obtain ⟨q, hq, rfl⟩ := List.mem_map.mp hr
      exact hbatch q hq
    obtain ⟨hmid, hraised⟩ := integrity_insertRows h hgenuine hrows
    obtain ⟨hlast, hsame⟩ := hmid.shrink (hrecords ▸ List.Sublist.refl _) hhighest
    dsimp only
    rw [storedIn_reports]
    exact ⟨hlast, hraised.trans hsame⟩

end Protonet.StoreRows
