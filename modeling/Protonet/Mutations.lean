import Protonet.Transaction
import Protonet.Removal
import Protonet.DatabaseBatch
import Protonet.IdentityReset

/-!
# The mutations of the store, statement by statement

Any of their statements may fail. A batch, a removal and a new sequence number are transactions
as a whole; a cleanup goes on after its transaction. The generation counts the changes to the set
of record ids.
-/
namespace Protonet.Mutations
open MachineInt Postcard Record Database DatabaseBatch Removal Transaction StepRun

inductive MutationError
  /-- A statement failed. -/
  | sqlite
  | storage (e : StorageError)
  | other (text : String)

abbrev Store (α : Type) := Session SignatureDatabase MutationError α

/-- `ensure_capacity`, with the limits of the store. -/
def ensureCapacity (readings : StorageReadings) (records : List FlaggedFileRecord) : Store Unit := do
  let inMemory ← look SignatureDatabase.inMemory
  if inMemory then pure ()
  else do
    let activeRecords ← query fun db => db.activeCount readings.activeAt
    let projectedRecords := min records.length 100
    if activeRecords + projectedRecords > MAX_ACTIVE_RECORDS then fail (.storage .activeRecordLimit)
    else
      match projectedBytes records with
      | none => fail (.storage .projectionOverflow)
      | some bytes =>
        if readings.databaseSizeBytes.toNat + bytes > MAX_DATABASE_BYTES then
          fail (.storage .databaseByteLimit)
        else if readings.availableDiskBytes.toNat < MIN_FREE_DISK_BYTES + bytes then
          fail (.storage .freeDiskReserve)
        else do
          let today ← query fun db =>
            ((db.ingestionDaily.lookup (dayOf readings.checkedAt)).getD 0).toNat
          if today + projectedRecords > MAX_DAILY_NEW_RECORDS then
            fail (.storage .dailyGrowthLimit)
          else pure ()

def insertOne (record : FlaggedFileRecord) : Store Bool :=
  match toRow record with
  | .error e => fail (.storage e)
  | .ok row => do
    let inserted ← statement fun db =>
      ((db.records.insertOrIgnore row).1,
        { db with records := (db.records.insertOrIgnore row).2 })
    if inserted then do
      execute fun db => db.raiseHighest row.originPeerId row.sequence
      pure true
    else pure false

def insertRows : List FlaggedFileRecord → Store (List Bool)
  | [] => pure []
  | record :: records => do
    let inserted ← insertOne record
    let results ← insertRows records
    pure (inserted :: results)

def incrementGeneration : Store Unit := do
  let current ← query fun db => (db.metadata.lookup .generation).getD 0
  execute fun db => { db with metadata := db.metadata.insert .generation (saturatingAdd current 1) }

def insertBatch (readings : StorageReadings) (records : List FlaggedFileRecord) :
    Store (List Bool) := do
  ensureCapacity readings records
  transaction do
    let results ← insertRows (records.take 100)
    if results.any id then do
      incrementGeneration
      execute fun db => db.chargeDay (dayOf readings.chargedAt) (results.count true)
      pure results
    else pure results

def deleteFrom (condition : Row → Bool) : Store ℕ :=
  statement fun db => ((deleteRows db.records condition).1,
    { db with records := (deleteRows db.records condition).2 })

def removeBlake3 (hash : Option Hash32) : Store Bool :=
  match hash with
  | none => fail (.other "invalid BLAKE3 hash")
  | some hash => transaction do
    let changed ← deleteFrom fun r => decide (r.blake3 = hash)
    if 0 < changed then do
      incrementGeneration
      pure true
    else pure false

def nextLocalSequence (peer : PeerId) : Store UInt64 := transaction do
  let current ← query fun db => (db.metadata.lookup (.sequence peer)).getD 0
  if current.toNat + 1 < 2 ^ 64 then do
    execute fun db =>
      { db with metadata := db.metadata.insert (.sequence peer) (current + 1) }
    pure (current + 1)
  else fail (.other "local sequence exhausted")

def clearIdentityState : Store Unit := execute IdentityReset.clearIdentityState

/-- The transaction of a cleanup. -/
def deleteExpired (now : Int64) : Store ℕ := transaction do
  let changed ← deleteFrom fun r => decide (r.expiresAt ≤ now)
  if 0 < changed then do
    incrementGeneration
    pure changed
  else pure changed

/-- A statement that leaves the tables alone. -/
def pragma : Store Unit := query fun _ => ()

/-- The log is truncated and some pages are given back behind the transaction. -/
def cleanupExpired (now : Int64) : Store ℕ := do
  let changed ← deleteExpired now
  pragma
  pragma
  execute fun db =>
    { db with ingestionDaily := forgetDays db.ingestionDaily (dayOf now - 31) }
  pure changed

inductive Operation
  | insertBatch (readings : StorageReadings) (records : List FlaggedFileRecord)
  | removeBlake3 (hash : Option Hash32)
  | cleanupExpired (now : Int64)
  | nextLocalSequence (peer : PeerId)
  | clearIdentityState

def Operation.perform : Operation → Store Unit
  | .insertBatch readings records => do
    let _ ← Mutations.insertBatch readings records
    pure ()
  | .removeBlake3 hash => do
    let _ ← Mutations.removeBlake3 hash
    pure ()
  | .cleanupExpired now => do
    let _ ← Mutations.cleanupExpired now
    pure ()
  | .nextLocalSequence peer => do
    let _ ← Mutations.nextLocalSequence peer
    pure ()
  | .clearIdentityState => Mutations.clearIdentityState

/-- Cleanups may stop half-way. -/
def Operation.isAtomic : Operation → Bool
  | .cleanupExpired _ => false
  | _ => true

def after (c : Connection SignatureDatabase MutationError) (operation : Operation) :
    Connection SignatureDatabase MutationError := (operation.perform c).2

variable {readings : StorageReadings} {record : FlaggedFileRecord}
  {records : List FlaggedFileRecord}

lemma ensureCapacity_gates : Outside (ensureCapacity readings records)
    (fun db _ db' => db' = db ∧ db.ensureCapacity readings records = .ok ())
    fun db db' => db' = db := by
  refine outside_look_bind fun inMemory => ?_
  cases inMemory with
  | true =>
    refine outside_pure fun db hmemory => ⟨rfl, ?_⟩
    unfold SignatureDatabase.ensureCapacity SignatureDatabase.ensureCapacityWithLimits
    rw [if_pos hmemory]
  | false =>
    refine outside_query_bind (fun activeRecords => ?_) fun db => rfl
    dsimp only
    split_ifs with hactive
    · exact outside_fail fun db => rfl
    · rcases hbytes : projectedBytes records with _ | bytes
      · exact outside_fail fun db => rfl
      · dsimp only
        split_ifs with hsize hdisk
        · exact outside_fail fun db => rfl
        · exact outside_fail fun db => rfl
        · refine outside_query_bind (fun today => ?_) fun db => rfl
          split_ifs with hdaily
          · exact outside_fail fun db => rfl
          · refine outside_pure fun db htoday hcount hfile => ⟨rfl, ?_⟩
            unfold SignatureDatabase.ensureCapacity SignatureDatabase.ensureCapacityWithLimits
            rw [hfile, hcount, hbytes]
            simp [hactive, hsize, hdisk, htoday, hdaily]

lemma insertOrIgnore_of_known {t : RecordsTable} {row : Row}
    (h : (t.insertOrIgnore row).1 = false) : (t.insertOrIgnore row).2 = t := by
  have hrows := insertOrIgnore_rows t row
  rw [h] at hrows
  exact RecordsTable.ext hrows

lemma insertOne_inserts : Inside (insertOne record)
    fun db inserted db' => db.insertOne record = .ok (inserted, db') := by
  unfold insertOne SignatureDatabase.insertOne
  rcases toRow record with e | row
  · exact inside_fail
  · refine Inside.bind
      (R := fun db inserted db' => inserted = (db.records.insertOrIgnore row).1 ∧
        db' = { db with records := (db.records.insertOrIgnore row).2 })
      (S := fun inserted db b db' => b = inserted ∧
        db' = if inserted then db.raiseHighest row.originPeerId row.sequence else db)
      (inside_statement fun db => ⟨rfl, rfl⟩) (fun inserted => ?_) ?_
    · cases inserted with
      | true =>
        refine Inside.then_pure
          (R := fun db _ db' => db' = db.raiseHighest row.originPeerId row.sequence)
          (inside_statement fun db => rfl) ?_
        rintro db _ _ rfl
        exact ⟨rfl, rfl⟩
      | false => exact inside_pure fun db => ⟨rfl, rfl⟩
    · rintro db _ _ _ _ ⟨rfl, rfl⟩ ⟨rfl, rfl⟩
      rcases hinsert : db.records.insertOrIgnore row with ⟨_ | _, rows⟩
      · have hsame := insertOrIgnore_of_known (congrArg Prod.fst hinsert)
        rw [hinsert] at hsame
        obtain rfl : rows = db.records := hsame
        simp [hinsert]
      · simp [hinsert]

lemma insertRows_inserts : Inside (insertRows records)
    fun db results db' => db.insertRows records = .ok (results, db') := by
  induction records with
  | nil => exact inside_pure fun db => rfl
  | cons record records ih =>
    refine Inside.bind insertOne_inserts
      (S := fun inserted db results db' => ∃ tail, results = inserted :: tail ∧
        db.insertRows records = .ok (tail, db')) (fun inserted => ?_) ?_
    · exact ih.then_pure fun db tail db' htail => ⟨tail, rfl, htail⟩
    · rintro db inserted mid _ db' hone ⟨tail, rfl, htail⟩
      rw [SignatureDatabase.insertRows, hone]
      dsimp only
      rw [htail]

lemma incrementGeneration_increments :
    Inside incrementGeneration fun db _ db' => db' = db.incrementGeneration := by
  refine inside_query_bind fun current => inside_statement fun db hcurrent => ?_
  rw [← hcurrent]
  rfl

lemma insertBatch_inserts : Outside (insertBatch readings records)
    (fun db results db' => db.insertBatch readings records = .ok (results, db'))
    fun db db' => db' = db := by
  refine Outside.bind ensureCapacity_gates
    (S := fun _ db results db' => db.ensureCapacity readings records = .ok () →
      db.insertBatch readings records = .ok (results, db'))
    (F := fun db db' => db' = db) (fun _ => ?_) ?_ ?_
  · refine (outside_transaction (Inside.bind insertRows_inserts
      (S := fun results db results' db' => results' = results ∧ db' =
        if results.any id then
          db.incrementGeneration.chargeDay (dayOf readings.chargedAt) (results.count true)
        else db)
      (Q := fun db results db' => ∃ mid, db.insertRows (records.take 100) = .ok (results, mid) ∧
        db' = if results.any id then
          mid.incrementGeneration.chargeDay (dayOf readings.chargedAt) (results.count true)
        else mid) (fun results => ?_) ?_)).mono ?_ fun _ _ h => h
    · split_ifs with hany
      · refine Inside.bind incrementGeneration_increments
          (S := fun _ db results' db' => results' = results ∧
            db' = db.chargeDay (dayOf readings.chargedAt) (results.count true)) (fun _ => ?_) ?_
        · refine Inside.then_pure
            (R := fun db _ db' =>
              db' = db.chargeDay (dayOf readings.chargedAt) (results.count true))
            (inside_statement fun db => rfl) ?_
          rintro db _ _ rfl
          exact ⟨rfl, rfl⟩
        · rintro db _ _ _ _ rfl ⟨rfl, rfl⟩
          exact ⟨rfl, rfl⟩
      · exact inside_pure fun db => ⟨rfl, rfl⟩
    · rintro db results mid _ _ hrows ⟨rfl, rfl⟩
      exact ⟨mid, hrows, rfl⟩
    · rintro db results _ ⟨mid, hrows, rfl⟩ hgate
      unfold SignatureDatabase.insertBatch
      rw [hgate]
      dsimp only
      rw [hrows]
      dsimp only
      split_ifs <;> rfl
  · rintro db _ _ results db' ⟨rfl, hgate⟩ h
    exact h hgate
  · rintro db _ _ _ ⟨rfl, -⟩ rfl
    rfl

lemma deleteFrom_deletes {condition : Row → Bool} : Inside (deleteFrom condition)
    fun db changed db' => changed = (deleteRows db.records condition).1 ∧
      db' = { db with records := (deleteRows db.records condition).2 } :=
  inside_statement fun _ => ⟨rfl, rfl⟩

lemma removeBlake3_removes {hash : Option Hash32} : Outside (removeBlake3 hash)
    (fun db removed db' => Removal.removeBlake3 db hash = .ok (removed, db'))
    fun db db' => db' = db := by
  unfold removeBlake3 Removal.removeBlake3
  rcases hash with _ | hash
  · exact outside_fail fun _ => rfl
  · refine outside_transaction (Inside.bind deleteFrom_deletes
      (S := fun changed db removed db' => removed = decide (0 < changed) ∧
        db' = if 0 < changed then db.incrementGeneration else db) (fun changed => ?_) ?_)
    · split_ifs with hchanged
      · refine incrementGeneration_increments.then_pure ?_
        rintro db _ _ rfl
        exact ⟨(decide_eq_true hchanged).symm, rfl⟩
      · exact inside_pure fun db => ⟨by simp [hchanged], rfl⟩
    · rintro db _ _ _ _ ⟨rfl, rfl⟩ ⟨rfl, rfl⟩
      dsimp only
      split_ifs with hchanged
      · simp [hchanged]
      · simp [hchanged]

lemma deleteExpired_deletes {now : Int64} : Outside (deleteExpired now)
    (fun db changed db' => changed = (Removal.cleanupExpired db now).1 ∧
      { db' with ingestionDaily := forgetDays db'.ingestionDaily (dayOf now - 31) } =
        (Removal.cleanupExpired db now).2)
    fun db db' => db' = db := by
  refine outside_transaction (Inside.bind deleteFrom_deletes
    (S := fun changed db changed' db' => changed' = changed ∧
      db' = if 0 < changed then db.incrementGeneration else db) (fun changed => ?_) ?_)
  · split_ifs with hchanged
    · refine incrementGeneration_increments.then_pure ?_
      rintro db _ _ rfl
      exact ⟨rfl, rfl⟩
    · exact inside_pure fun db => ⟨rfl, rfl⟩
  · rintro db _ _ _ _ ⟨rfl, rfl⟩ ⟨rfl, rfl⟩
    exact ⟨rfl, rfl⟩

/-- Behind its transaction a cleanup may stop before the old days are forgotten. -/
lemma cleanupExpired_cleans {now : Int64} : Outside (cleanupExpired now)
    (fun db changed db' => Removal.cleanupExpired db now = (changed, db'))
    fun db db' => db' = db ∨
      { db' with ingestionDaily := forgetDays db'.ingestionDaily (dayOf now - 31) } =
        (Removal.cleanupExpired db now).2 := by
  refine Outside.bind (deleteExpired_deletes.mono (fun _ _ _ h => h) fun _ _ h => .inl h)
    (S := fun changed db changed' db' => changed' = changed ∧
      db' = { db with ingestionDaily := forgetDays db.ingestionDaily (dayOf now - 31) })
    (F := fun db db' => db' = db) (fun changed => ?_) ?_ ?_
  · refine outside_query_bind (fun _ => ?_) fun db => rfl
    refine outside_query_bind (fun _ => ?_) fun db => rfl
    refine Outside.then_pure
      (R := fun db _ db' =>
        db' = { db with ingestionDaily := forgetDays db.ingestionDaily (dayOf now - 31) })
      (outside_statement (fun db => rfl) fun db => rfl) ?_
    rintro db _ _ rfl - -
    exact ⟨rfl, rfl⟩
  · rintro db _ db' _ _ ⟨rfl, hrest⟩ ⟨rfl, rfl⟩
    exact Prod.ext rfl hrest.symm
  · rintro db _ db' _ ⟨-, hrest⟩ rfl
    exact .inr hrest

lemma nextLocalSequence_numbers {peer : PeerId} : Outside (nextLocalSequence peer)
    (fun db n db' => IdentityReset.nextLocalSequence db peer = .ok (n, db'))
    fun db db' => db' = db := by
  refine outside_transaction (inside_query_bind fun current => ?_)
  split_ifs with hroom
  · refine Inside.then_pure
      (R := fun db _ db' =>
        db' = { db with metadata := db.metadata.insert (.sequence peer) (current + 1) })
      (inside_statement fun db => rfl) ?_
    rintro db _ _ rfl hcurrent
    unfold IdentityReset.nextLocalSequence
    rw [hcurrent, if_pos hroom]
  · exact inside_fail

lemma clearIdentityState_clears : Outside clearIdentityState
    (fun db _ db' => db' = IdentityReset.clearIdentityState db) fun db db' => db' = db := by
  unfold clearIdentityState execute
  exact outside_statement (E := fun db db' => db' = db) (fun _ => rfl) fun _ => rfl

def generation (db : SignatureDatabase) : UInt64 := (db.metadata.lookup .generation).getD 0

def storedIds (db : SignatureDatabase) : Finset RecordId :=
  (db.records.rows.map Row.recordId).toFinset

/-- The generation goes up by one, if it still can, exactly when other ids are stored. -/
def Counted (db db' : SignatureDatabase) : Prop :=
  generation db' =
    if storedIds db' = storedIds db then generation db else saturatingAdd (generation db) 1

variable {db db' : SignatureDatabase}

lemma counted_of_same (hrecords : db'.records = db.records)
    (hgeneration : generation db' = generation db) : Counted db db' := by
  unfold Counted storedIds
  rw [hrecords, if_pos rfl, hgeneration]

lemma card_storedIds : (storedIds db).card = db.records.rows.length := by
  unfold storedIds
  rw [List.toFinset_card_of_nodup db.records.recordId_nodup, List.length_map]

lemma generation_incrementGeneration :
    generation db.incrementGeneration = saturatingAdd (generation db) 1 := by
  unfold generation SignatureDatabase.incrementGeneration
  rw [AList.lookup_insert, Option.getD_some]

/-- Rows that were taken away or added without exchange are told by their number. -/
lemma counted_of_length (hids : storedIds db' ⊆ storedIds db ∨ storedIds db ⊆ storedIds db')
    (hgeneration : generation db' = if db'.records.rows.length = db.records.rows.length then
      generation db else saturatingAdd (generation db) 1) : Counted db db' := by
  have hsame : storedIds db' = storedIds db ↔
      db'.records.rows.length = db.records.rows.length := by
    rw [← card_storedIds, ← card_storedIds]
    constructor
    · exact congrArg Finset.card
    · intro hcard
      rcases hids with hids | hids
      · exact Finset.eq_of_subset_of_card_le hids hcard.ge
      · exact (Finset.eq_of_subset_of_card_le hids hcard.le).symm
  unfold Counted
  rw [hgeneration]
  exact if_congr hsame.symm rfl rfl

lemma insertOne_metadata {inserted : Bool} (h : db.insertOne record = .ok (inserted, db')) :
    db'.metadata = db.metadata := by
  unfold SignatureDatabase.insertOne at h
  split at h
  · cases h
  · split at h
    · obtain ⟨-, rfl⟩ := Prod.mk.inj (Except.ok.inj h)
      rfl
    · obtain ⟨-, rfl⟩ := Prod.mk.inj (Except.ok.inj h)
      rfl

lemma insertRows_adds {results : List Bool} (h : db.insertRows records = .ok (results, db')) :
    db'.metadata = db.metadata ∧ storedIds db ⊆ storedIds db' ∧
      db'.records.rows.length = db.records.rows.length + results.count true := by
  induction records generalizing db results with
  | nil =>
    obtain ⟨rfl, rfl⟩ := insertRows_nil h
    exact ⟨rfl, Finset.Subset.refl _, rfl⟩
  | cons record records ih =>
    obtain ⟨inserted, mid, tail, hone, hrest, rfl⟩ := insertRows_cons h
    obtain ⟨hmetadata, hids, hlength⟩ := ih hrest
    obtain ⟨row, -, hinserted, hrecords, -⟩ := insertOne_eq hone
    have hrows : mid.records.rows =
        if inserted then db.records.rows ++ [row] else db.records.rows := by
      rw [hrecords, insertOrIgnore_rows, hinserted]
    refine ⟨hmetadata.trans (insertOne_metadata hone), Finset.Subset.trans ?_ hids, ?_⟩
    · unfold storedIds
      rw [hrows]
      cases inserted <;> simp
    · rw [hlength, hrows]
      cases inserted with
      | true =>
        rw [if_pos rfl, List.length_append, List.length_singleton, List.count_cons_self]
        omega
      | false => simp

lemma counter_insertBatch {results : List Bool}
    (h : db.insertBatch readings records = .ok (results, db')) (peer : PeerId) :
    IdentityReset.counter db' peer = IdentityReset.counter db peer := by
  unfold SignatureDatabase.insertBatch at h
  rcases hgate : db.ensureCapacity readings records with e | ⟨⟩
  · simp [hgate] at h
  · rcases hrows : db.insertRows (records.take 100) with e | ⟨inserted, mid⟩
    · simp [hgate, hrows] at h
    · simp only [hgate, hrows] at h
      have hmid := IdentityReset.counter_congr (insertRows_adds hrows).1 peer
      split_ifs at h
      · obtain ⟨-, rfl⟩ := Prod.mk.inj (Except.ok.inj h)
        exact (IdentityReset.counter_incrementGeneration peer).trans hmid
      · obtain ⟨-, rfl⟩ := Prod.mk.inj (Except.ok.inj h)
        exact hmid

lemma counter_removeBlake3 {hash : Option Hash32} {removed : Bool}
    (h : Removal.removeBlake3 db hash = .ok (removed, db')) (peer : PeerId) :
    IdentityReset.counter db' peer = IdentityReset.counter db peer := by
  unfold Removal.removeBlake3 at h
  cases hash with
  | none => cases h
  | some hash =>
    dsimp only at h
    split_ifs at h
    · obtain ⟨-, rfl⟩ := Prod.mk.inj (Except.ok.inj h)
      exact IdentityReset.counter_incrementGeneration peer
    · obtain ⟨-, rfl⟩ := Prod.mk.inj (Except.ok.inj h)
      rfl

lemma counter_cleanupExpired {now : Int64} (peer : PeerId) :
    IdentityReset.counter (Removal.cleanupExpired db now).2 peer =
      IdentityReset.counter db peer := by
  unfold Removal.cleanupExpired
  dsimp only
  split_ifs
  · exact IdentityReset.counter_incrementGeneration peer
  · rfl

lemma counted_insertBatch {results : List Bool}
    (h : db.insertBatch readings records = .ok (results, db')) : Counted db db' := by
  unfold SignatureDatabase.insertBatch at h
  rcases hgate : db.ensureCapacity readings records with e | ⟨⟩
  · simp [hgate] at h
  · rcases hrows : db.insertRows (records.take 100) with e | ⟨inserted, mid⟩
    · simp [hgate, hrows] at h
    · simp only [hgate, hrows] at h
      obtain ⟨hmetadata, hids, hlength⟩ := insertRows_adds hrows
      have hmid : generation mid = generation db := congrArg
        (fun metadata => (AList.lookup MetadataKey.generation metadata).getD 0) hmetadata
      split_ifs at h with hany
      · obtain ⟨-, rfl⟩ := Prod.mk.inj (Except.ok.inj h)
        obtain ⟨b, hb, rfl⟩ := List.any_eq_true.mp hany
        have hcount : 0 < inserted.count true := List.count_pos_iff.mpr hb
        refine counted_of_length (.inr hids) ?_
        have hmore : ¬ mid.records.rows.length = db.records.rows.length := by omega
        exact (generation_incrementGeneration.trans (by rw [hmid])).trans (if_neg hmore).symm
      · obtain ⟨-, rfl⟩ := Prod.mk.inj (Except.ok.inj h)
        have hnone : inserted.count true = 0 := List.count_eq_zero.mpr fun hb =>
          hany (List.any_eq_true.mpr ⟨true, hb, rfl⟩)
        refine counted_of_length (.inr hids) ?_
        rw [if_pos (by omega), hmid]

lemma counted_deleteRows {condition : Row → Bool}
    (hrecords : db'.records = (deleteRows db.records condition).2)
    (hgeneration : generation db' = if 0 < (deleteRows db.records condition).1 then
      saturatingAdd (generation db) 1 else generation db) : Counted db db' := by
  have hsplit : db.records.rows.length =
      (deleteRows db.records condition).1 + db'.records.rows.length := by
    rw [hrecords]
    exact List.length_eq_length_filter_add condition
  refine counted_of_length (.inl ?_) ?_
  · unfold storedIds
    rw [hrecords]
    intro id hid
    rw [List.mem_toFinset] at hid ⊢
    exact ((deleteRows_sublist db.records condition).map Row.recordId).mem hid
  · rw [hgeneration]
    by_cases hdeleted : 0 < (deleteRows db.records condition).1
    · rw [if_pos hdeleted, if_neg (by omega)]
    · rw [if_neg hdeleted, if_pos (by omega)]

lemma counted_removeBlake3 {hash : Option Hash32} {removed : Bool}
    (h : Removal.removeBlake3 db hash = .ok (removed, db')) : Counted db db' := by
  unfold Removal.removeBlake3 at h
  rcases hash with _ | hash
  · cases h
  · dsimp only at h
    split_ifs at h with hdeleted
    · obtain ⟨-, rfl⟩ := Prod.mk.inj (Except.ok.inj h)
      exact counted_deleteRows rfl (generation_incrementGeneration.trans (if_pos hdeleted).symm)
    · obtain ⟨-, rfl⟩ := Prod.mk.inj (Except.ok.inj h)
      exact counted_deleteRows rfl (if_neg hdeleted).symm

lemma counted_cleanupExpired {now : Int64} : Counted db (Removal.cleanupExpired db now).2 := by
  unfold Removal.cleanupExpired
  dsimp only
  split_ifs with hdeleted
  · exact counted_deleteRows rfl (generation_incrementGeneration.trans (if_pos hdeleted).symm)
  · exact counted_deleteRows rfl (if_neg hdeleted).symm

lemma counted_nextLocalSequence {peer : PeerId} {n : UInt64}
    (h : IdentityReset.nextLocalSequence db peer = .ok (n, db')) : Counted db db' := by
  unfold IdentityReset.nextLocalSequence at h
  dsimp only at h
  split_ifs at h
  obtain ⟨-, rfl⟩ := Prod.mk.inj (Except.ok.inj h)
  refine counted_of_same rfl ?_
  unfold generation
  rw [AList.lookup_insert_ne (by simp)]

lemma counted_clearIdentityState : Counted db (IdentityReset.clearIdentityState db) := by
  refine counted_of_same rfl ?_
  have hsame : (IdentityReset.clearIdentityState db).metadata.lookup .generation =
      db.metadata.lookup .generation := by
    ext n
    change n ∈ (IdentityReset.clearIdentityState db).metadata.lookup .generation ↔
      n ∈ db.metadata.lookup .generation
    rw [AList.mem_lookup_iff, AList.mem_lookup_iff, IdentityReset.clearIdentityState,
      List.mem_filter]
    exact and_iff_left rfl
  unfold generation
  rw [hsame]

/-- Each operation is counted, also when it fails, and one that fails did nothing unless it is a
cleanup. -/
lemma perform_counts (operation : Operation) : Outside operation.perform
    (fun db _ db' => Counted db db')
    fun db db' => Counted db db' ∧ (operation.isAtomic = true → db' = db) := by
  have hsame : ∀ db db' : SignatureDatabase, db' = db →
      Counted db db' ∧ (operation.isAtomic = true → db' = db) := by
    rintro db _ rfl
    exact ⟨counted_of_same rfl rfl, fun _ => rfl⟩
  cases operation with
  | insertBatch readings records =>
    exact (insertBatch_inserts.mono (fun _ _ _ h => h) hsame).then_pure fun _ _ _ =>
      counted_insertBatch
  | removeBlake3 hash =>
    exact (removeBlake3_removes.mono (fun _ _ _ h => h) hsame).then_pure fun _ _ _ =>
      counted_removeBlake3
  | cleanupExpired now =>
    refine (cleanupExpired_cleans.mono (fun _ _ _ h => h) fun db db' h => ?_).then_pure
      fun db changed db' h => ?_
    · refine ⟨?_, fun hatomic => absurd hatomic Bool.false_ne_true⟩
      rcases h with rfl | h
      · exact counted_of_same rfl rfl
      · have hcounted : Counted db (Removal.cleanupExpired db now).2 := counted_cleanupExpired
        rw [← h] at hcounted
        exact hcounted
    · have hcounted : Counted db (Removal.cleanupExpired db now).2 := counted_cleanupExpired
      rw [h] at hcounted
      exact hcounted
  | nextLocalSequence peer =>
    exact (nextLocalSequence_numbers.mono (fun _ _ _ h => h) hsame).then_pure fun _ _ _ =>
      counted_nextLocalSequence
  | clearIdentityState =>
    refine clearIdentityState_clears.mono ?_ hsame
    rintro db _ _ rfl
    exact counted_clearIdentityState

/-- A connection without an open transaction, with the faults that are to come. -/
def opened (db : SignatureDatabase) (faults : ℕ → Option MutationError) :
    Connection SignatureDatabase MutationError := ⟨db, none, faults⟩

def changes (c : Connection SignatureDatabase MutationError) : List Operation → ℕ
  | [] => 0
  | operation :: operations =>
    (if storedIds (after c operation).tables = storedIds c.tables then 0 else 1) +
      changes (after c operation) operations

/-- What an operation may do: nothing when it fails, unless it is a cleanup, and the generation is
counted in any case. -/
def Permitted (c : Connection SignatureDatabase MutationError) (operation : Operation) : Prop :=
  (operation.isAtomic = true → ∀ e, (operation.perform c).1 = .error e →
      (after c operation).tables = c.tables) ∧
    Counted c.tables (after c operation).tables

lemma perform_permitted {c : Connection SignatureDatabase MutationError} (hc : c.working = none)
    (operation : Operation) : (after c operation).working = none ∧ Permitted c operation := by
  unfold Permitted after
  obtain ⟨c', hclosed, ⟨e, hrun, hcounted, hsame⟩ | ⟨u, hrun, hcounted⟩⟩ :=
    perform_counts operation c hc
  · rw [hrun]
    exact ⟨hclosed, fun hatomic _ _ => hsame hatomic, hcounted⟩
  · rw [hrun]
    exact ⟨hclosed, fun _ e he => (by cases he), hcounted⟩

lemma counted_toNat (h : Counted db db') : (generation db').toNat =
    min ((generation db).toNat + if storedIds db' = storedIds db then 0 else 1) (2 ^ 64 - 1) := by
  have hword := (generation db).toNat_lt
  rw [h]
  split_ifs with hsame
  · omega
  · rw [saturatingAdd_toNat]
    simp

lemma run_counts {c : Connection SignatureDatabase MutationError} {operations : List Operation}
    (hc : c.working = none) : Along after Permitted c operations ∧
      (generation (run after c operations).tables).toNat =
        min ((generation c.tables).toNat + changes c operations) (2 ^ 64 - 1) := by
  induction operations generalizing c with
  | nil =>
    have hword := (generation c.tables).toNat_lt
    refine ⟨trivial, ?_⟩
    simp only [run_nil, changes]
    omega
  | cons operation operations ih =>
    obtain ⟨hclosed, hpermitted⟩ := perform_permitted hc operation
    obtain ⟨halong, htotal⟩ := ih hclosed
    refine ⟨⟨hpermitted, halong⟩, ?_⟩
    rw [run_cons, htotal, counted_toNat hpermitted.2, changes]
    omega

/-- In every run from any store, whatever statements fail: a batch, a removal, a new sequence
number or a clearing that fails leaves every table as it was, every operation counts, and the
generation is in the end as many above the first as the set of record ids changed. -/
theorem mutations_counted (db : SignatureDatabase) (faults : ℕ → Option MutationError)
    (operations : List Operation) :
    Along after Permitted (opened db faults) operations ∧
      (generation (run after (opened db faults) operations).tables).toNat =
        min ((generation db).toNat + changes (opened db faults) operations) (2 ^ 64 - 1) :=
  run_counts rfl

/-- Without faults two records are one change, also when they come twice; with a record that does
not fit, or without the commit, the batch leaves nothing. -/
example : generation (run after (opened (.open false) fun _ => none)
      [.insertBatch sampleReadings (pair 2), .insertBatch sampleReadings (pair 2)]).tables = 1 ∧
    (after (opened (.open false) fun _ => none)
      (.insertBatch sampleReadings (pair (2 ^ 63)))).tables.records.rows = [] ∧
    (after (opened (.open false) fun i => if i = 10 then some .sqlite else none)
      (.insertBatch sampleReadings (pair 2))).tables.records.rows = [] := by
  decide +kernel

end Protonet.Mutations
