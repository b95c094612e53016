import Protonet.HashText
import Protonet.IdentityReset
import Protonet.Listing
import Protonet.Mutations
import Protonet.Quotas
import Protonet.RecordIdentity
import Protonet.StoreRows
import Protonet.UniqueTable

/-!
# The store as a catalogue

What the store is for, without its tables: a finite set of records, no two of one id and no two of
one origin and sequence, with what each day has taken and the last number of each identity. The
tables refine it. They give the same answers, operation by operation, and their queries are
answered from the set.
-/
namespace Protonet.StoreCatalogue
open MachineInt Postcard Record RecordIdentity Database Queries Sync HashText UniqueTable Swarm
  Listing
open Mutations (Operation)

def originSequence (r : FlaggedFileRecord) : Bytes × UInt64 := (r.originPeerId.1, r.sequence)

structure Catalogue where
  inMemory : Bool
  records : Table FlaggedFileRecord.recordId originSequence
  /-- How many records a day has taken. -/
  taken : ℤ → ℕ
  /-- The last number of an identity. -/
  numbers : PeerId → ℕ

def Catalogue.empty (inMemory : Bool) : Catalogue :=
  ⟨inMemory, Table.empty _ _, fun _ => 0, fun _ => 0⟩

inductive Answer
  /-- An error, after which the store is as before. -/
  | refused
  | inserted (results : List Bool)
  | removed (changed : Bool)
  | cleaned (changed : ℕ)
  | numbered (sequence : UInt64)
  | cleared
  deriving DecidableEq

def perform (db : SignatureDatabase) : Operation → Answer × SignatureDatabase
  | .insertBatch readings records =>
    match db.insertBatch readings records with
    | .error _ => (.refused, db)
    | .ok (results, db) => (.inserted results, db)
  | .removeBlake3 hash =>
    match Removal.removeBlake3 db hash with
    | .error _ => (.refused, db)
    | .ok (changed, db) => (.removed changed, db)
  | .cleanupExpired now =>
    let (changed, db) := Removal.cleanupExpired db now
    (.cleaned changed, db)
  | .nextLocalSequence peer =>
    match IdentityReset.nextLocalSequence db peer with
    | .error _ => (.refused, db)
    | .ok (sequence, db) => (.numbered sequence, db)
  | .clearIdentityState => (.cleared, IdentityReset.clearIdentityState db)

def performAll (db : SignatureDatabase) : List Operation → List Answer × SignatureDatabase
  | [] => ([], db)
  | operation :: operations =>
    let (answer, db) := perform db operation
    let (answers, db) := performAll db operations
    (answer :: answers, db)

def Catalogue.active (c : Catalogue) (now : Int64) : Finset FlaggedFileRecord :=
  c.records.entries.filter fun r => now < r.expiresAtUnixMs

structure Catalogue.Room (c : Catalogue) (readings : StorageReadings)
    (records : List FlaggedFileRecord) : Prop where
  active : (c.active readings.activeAt).card + min records.length 100 ≤ MAX_ACTIVE_RECORDS
  bytes : readings.databaseSizeBytes.toNat + encodedBytes records ≤ MAX_DATABASE_BYTES
  disk : MIN_FREE_DISK_BYTES + encodedBytes records ≤ readings.availableDiskBytes.toNat
  daily : c.taken (dayOf readings.checkedAt) + min records.length 100 ≤ MAX_DAILY_NEW_RECORDS

/-- A batch is taken if there is room for it, which in memory there always is, and the numbers of
its records fit the columns; of each batch a hundred records count. -/
structure Catalogue.Admits (c : Catalogue) (readings : StorageReadings)
    (records : List FlaggedFileRecord) : Prop where
  room : c.inMemory = false → c.Room readings records
  fit : ∀ r ∈ records.take 100, Storable r

instance (c : Catalogue) (readings : StorageReadings) (records : List FlaggedFileRecord) :
    Decidable (c.Room readings records) :=
  decidable_of_iff
    (((c.active readings.activeAt).card + min records.length 100 ≤ MAX_ACTIVE_RECORDS ∧
      readings.databaseSizeBytes.toNat + encodedBytes records ≤ MAX_DATABASE_BYTES) ∧
      MIN_FREE_DISK_BYTES + encodedBytes records ≤ readings.availableDiskBytes.toNat ∧
      c.taken (dayOf readings.checkedAt) + min records.length 100 ≤ MAX_DAILY_NEW_RECORDS)
    ⟨fun h => ⟨h.1.1, h.1.2, h.2.1, h.2.2⟩, fun h => ⟨⟨h.active, h.bytes⟩, h.disk, h.daily⟩⟩

instance (c : Catalogue) (readings : StorageReadings) (records : List FlaggedFileRecord) :
    Decidable (c.Admits readings records) :=
  decidable_of_iff ((c.inMemory = false → c.Room readings records) ∧
    ∀ r ∈ records.take 100, Storable r) ⟨fun h => ⟨h.1, h.2⟩, fun h => ⟨h.room, h.fit⟩⟩

def Catalogue.perform (c : Catalogue) : Operation → Answer × Catalogue
  | .insertBatch readings records =>
    if c.Admits readings records then
      let (results, entries) := c.records.addAll (records.take 100)
      let day := dayOf readings.chargedAt
      (.inserted results, { c with
        records := entries
        taken := Function.update c.taken day (c.taken day + results.count true) })
    else (.refused, c)
  | .removeBlake3 none => (.refused, c)
  | .removeBlake3 (some hash) =>
    (.removed (decide (∃ r ∈ c.records.entries, r.blake3 = hash)),
      { c with records := c.records.keep fun r => !decide (r.blake3 = hash) })
  | .cleanupExpired now =>
    (.cleaned (c.records.keep fun r => decide (r.expiresAtUnixMs ≤ now)).entries.card,
      { c with
        records := c.records.keep fun r => !decide (r.expiresAtUnixMs ≤ now)
        -- the counts of a month are kept
        taken := fun day => if day < dayOf now - 31 then 0 else c.taken day })
  | .nextLocalSequence peer =>
    if c.numbers peer + 1 < 2 ^ 64 then
      (.numbered (.ofNat (c.numbers peer + 1)),
        { c with numbers := Function.update c.numbers peer (c.numbers peer + 1) })
    else (.refused, c)
  | .clearIdentityState => (.cleared, { c with numbers := fun _ => 0 })

def Catalogue.performAll (c : Catalogue) : List Operation → List Answer × Catalogue
  | [] => ([], c)
  | operation :: operations =>
    let (answer, c) := c.perform operation
    let (answers, c) := c.performAll operations
    (answer :: answers, c)

def Bounded : Operation → Prop
  | .insertBatch _ records => ∀ r ∈ records, r.checkFieldBounds = .ok ()
  | _ => True

def rowOf (r : FlaggedFileRecord) : Option Row := (toRow r).toOption

structure Holds (db : SignatureDatabase)
    (t : Table FlaggedFileRecord.recordId originSequence) : Prop where
  stands : Stands rowOf db.records.rows t
  bounded : ∀ r ∈ t.entries, r.checkFieldBounds = .ok ()

/-- The tables hold what the catalogue holds. -/
structure Refines (db : SignatureDatabase) (c : Catalogue) : Prop where
  inMemory : db.inMemory = c.inMemory
  holds : Holds db c.records
  taken : ∀ day, Quotas.charged db day = c.taken day
  numbers : ∀ peer, IdentityReset.counter db peer = c.numbers peer

variable {db db' : SignatureDatabase} {c : Catalogue}
  {t : Table FlaggedFileRecord.recordId originSequence} {r r' : FlaggedFileRecord} {row row' : Row}

lemma rowOf_eq_some : rowOf r = some row ↔ toRow r = .ok row := by
  unfold rowOf
  cases toRow r <;> simp [Except.toOption]

lemma rowOf_matches (h : rowOf r = some row) : StoreRows.Matches row r :=
  StoreRows.matches_of_toRow (rowOf_eq_some.mp h)

lemma rowOf_injective (h : rowOf r = some row) (h' : rowOf r' = some row) : r = r' :=
  flaggedFileRecordWire.encode_injective
    ((rowOf_matches h).encodedRecord.symm.trans (rowOf_matches h').encodedRecord)

/-- The columns tell records apart just as the keys of the catalogue do. -/
lemma row_keys (h : rowOf r = some row) (h' : rowOf r' = some row') :
    (row.recordId = row'.recordId ↔ r.recordId = r'.recordId) ∧
      (row.originSequence = row'.originSequence ↔ originSequence r = originSequence r') := by
  have hrow := rowOf_matches h
  have hrow' := rowOf_matches h'
  constructor
  · rw [hrow.recordId, hrow'.recordId]
  · have hsequence : row.sequence = row'.sequence ↔ r.sequence = r'.sequence := by
      rw [← Int64.toInt_inj, hrow.sequence, hrow'.sequence, Nat.cast_inj, UInt64.toNat_inj]
    unfold Row.originSequence originSequence
    rw [Prod.mk.injEq, Prod.mk.injEq, hsequence, hrow.originPeerId, hrow'.originPeerId]

lemma clashes_iff (h : Holds db t) (hrow : rowOf r = some row) : t.Clashes r ↔
    row.recordId ∈ db.records.rows.map Row.recordId ∨
      row.originSequence ∈ db.records.rows.map Row.originSequence := by
  constructor
  · rintro ⟨r', hr', hkeys⟩
    obtain ⟨row', hmem, hrow'⟩ := h.stands.listed r' hr'
    obtain ⟨hid, hsequence⟩ := row_keys hrow' hrow
    rcases hkeys with hkey | hmark
    · exact .inl (List.mem_map.mpr ⟨row', hmem, hid.mpr hkey⟩)
    · exact .inr (List.mem_map.mpr ⟨row', hmem, hsequence.mpr hmark⟩)
  · rintro (hmem | hmem)
    all_goals
      obtain ⟨row', hmem, hkey⟩ := List.mem_map.mp hmem
      obtain ⟨r', hr', hrow'⟩ := h.stands.entered row' hmem
      obtain ⟨hid, hsequence⟩ := row_keys hrow' hrow
    · exact ⟨r', hr', .inl (hid.mp hkey)⟩
    · exact ⟨r', hr', .inr (hsequence.mp hkey)⟩

lemma holds_insertOne (h : Holds db t) (hbounds : r.checkFieldBounds = .ok ())
    {inserted : Bool} (hi : db.insertOne r = .ok (inserted, db')) :
    inserted = (t.add r).1 ∧ Holds db' (t.add r).2 := by
  obtain ⟨row, hrow, rfl, hrecords, -⟩ := insertOne_eq hi
  have himage := rowOf_eq_some.mpr hrow
  have hrows := insertOrIgnore_rows db.records row
  have hfst := insertOrIgnore_fst db.records row
  rw [← not_or, ← clashes_iff h himage] at hfst
  by_cases hclash : t.Clashes r
  · have hnone : (db.records.insertOrIgnore row).1 = false :=
      Bool.eq_false_iff.mpr fun htrue => hfst.mp htrue hclash
    rw [add_clash hclash]
    rw [hnone, if_neg Bool.false_ne_true, ← hrecords] at hrows
    exact ⟨hnone, hrows.symm ▸ h.stands, h.bounded⟩
  · have hone := hfst.mpr hclash
    obtain ⟨hadded, hentries⟩ := add_fresh hclash
    rw [hone, if_pos rfl, ← hrecords] at hrows
    refine ⟨hone.trans hadded.symm, hrows.symm ▸ h.stands.add himage hclash, fun r' hr' => ?_⟩
    rw [hentries] at hr'
    rcases Finset.mem_insert.mp hr' with rfl | hr'
    · exact hbounds
    · exact h.bounded r' hr'

lemma holds_insertRows {rs : List FlaggedFileRecord} (h : Holds db t)
    (hbounds : ∀ r ∈ rs, r.checkFieldBounds = .ok ()) {results : List Bool}
    (hi : db.insertRows rs = .ok (results, db')) :
    results = (t.addAll rs).1 ∧ Holds db' (t.addAll rs).2 := by
  induction rs generalizing db t results with
  | nil =>
    obtain ⟨rfl, rfl⟩ := insertRows_nil hi
    exact ⟨rfl, h⟩
  | cons r rs ih =>
    obtain ⟨inserted, mid, tail, hone, hrest, rfl⟩ := insertRows_cons hi
    obtain ⟨hhead, hmid⟩ := holds_insertOne h (hbounds r List.mem_cons_self) hone
    obtain ⟨htail, hlast⟩ := ih hmid (fun x hx => hbounds x (List.mem_cons_of_mem r hx)) hrest
    rw [addAll_cons]
    exact ⟨by rw [hhead, htail], hlast⟩

lemma holds_delete (h : Holds db t) {p : FlaggedFileRecord → Bool} {condition : Row → Bool}
    (hcondition : ∀ r row, rowOf r = some row → p r = condition row)
    (hrecords : db'.records = (Removal.deleteRows db.records condition).2) :
    Holds db' (t.keep fun r => !p r) ∧
      (Removal.deleteRows db.records condition).1 = (t.keep p).entries.card := by
  refine ⟨⟨?_, fun r hr => h.bounded r (mem_keep.mp hr).1⟩, ?_⟩
  · rw [hrecords]
    exact h.stands.keep fun r row hrow => by rw [hcondition r row hrow]
  · have hnodup : (db.records.rows.filter condition).Nodup :=
      (List.Nodup.of_map _ db.records.recordId_nodup).filter _
    exact (h.stands.keep hcondition).length hnodup fun r r' row hr hr' => rowOf_injective hr hr'

lemma Holds.congr (h : Holds db t) (hrecords : db'.records = db.records) : Holds db' t :=
  ⟨hrecords ▸ h.stands, h.bounded⟩

lemma refines_active (h : Refines db c) (now : Int64) :
    db.activeCount now = (c.active now).card := by
  have hkeep : Stands rowOf (db.records.rows.filter (Row.active now))
      (c.records.keep fun r => decide (now < r.expiresAtUnixMs)) := by
    refine h.holds.stands.keep fun r row hrow => ?_
    rw [← (rowOf_matches hrow).expiresAt]
    rfl
  have hnodup : db.records.rows.Nodup := List.Nodup.of_map _ db.records.recordId_nodup
  have hlength := hkeep.length (hnodup.filter _) fun _ _ _ => rowOf_injective
  refine hlength.trans (congrArg Finset.card ?_)
  ext r
  rw [mem_keep, decide_eq_true_eq, Catalogue.active, Finset.mem_filter]

lemma admits_iff (h : Refines db c) {readings : StorageReadings}
    {records : List FlaggedFileRecord} : c.Admits readings records ↔
      db.ensureCapacity readings records = .ok () ∧ ∀ r ∈ records.take 100, Storable r := by
  have htoday : ((db.ingestionDaily.lookup (dayOf readings.checkedAt)).getD 0).toNat =
      c.taken (dayOf readings.checkedAt) := by
    have hcharged := h.taken (dayOf readings.checkedAt)
    unfold Quotas.charged at hcharged
    rw [hcharged, Int.toNat_natCast]
  rw [ensureCapacity_ok_iff, h.inMemory, refines_active h, htoday]
  constructor
  · rintro ⟨hroom, hfit⟩
    refine ⟨fun hdisk => ?_, hfit⟩
    obtain ⟨hactive, hbytes, hfree, hdaily⟩ := hroom hdisk
    exact ⟨hactive, hbytes, hfree, hdaily⟩
  · rintro ⟨hroom, hfit⟩
    refine ⟨fun hdisk => ?_, hfit⟩
    obtain ⟨hactive, hbytes, hfree, hdaily⟩ := hroom hdisk
    exact ⟨hactive, hbytes, hfree, hdaily⟩

lemma refines_insertBatch (h : Refines db c) (readings : StorageReadings)
    {records : List FlaggedFileRecord} (hbounds : ∀ r ∈ records, r.checkFieldBounds = .ok ()) :
    (perform db (.insertBatch readings records)).1 =
        (c.perform (.insertBatch readings records)).1 ∧
      Refines (perform db (.insertBatch readings records)).2
        (c.perform (.insertBatch readings records)).2 := by
  rcases hi : db.insertBatch readings records with e | ⟨results, db'⟩
  · have hp : perform db (.insertBatch readings records) = (.refused, db) := by rw [perform, hi]
    have hnot : ¬c.Admits readings records := by
      rw [admits_iff h, ← insertBatch_ok_iff, hi]
      rintro ⟨out, hok⟩
      cases hok
    rw [hp, Catalogue.perform, if_neg hnot]
    exact ⟨rfl, h⟩
  · have hp : perform db (.insertBatch readings records) = (.inserted results, db') := by
      rw [perform, hi]
    have hadmits := (admits_iff h).mpr (insertBatch_ok_iff.mp ⟨_, hi⟩)
    obtain ⟨mid, hrows, hrecords, -, hmode⟩ := insertBatch_eq hi
    obtain ⟨hresults, hmid⟩ :=
      holds_insertRows h.holds (fun r hr => hbounds r (List.mem_of_mem_take hr)) hrows
    rw [hp, Catalogue.perform, if_pos hadmits]
    refine ⟨congrArg Answer.inserted hresults, ?_, hmid.congr hrecords, fun day => ?_,
      fun peer => (Mutations.counter_insertBatch hi peer).trans (h.numbers peer)⟩
    · exact (Quotas.insertBatch_kept hi).1.trans h.inMemory
    · have htaken : (c.taken day : ℤ) + (if day = dayOf readings.chargedAt then
          (results.count true : ℤ) else 0) = Function.update c.taken (dayOf readings.chargedAt)
            (c.taken (dayOf readings.chargedAt) + results.count true) day := by
        by_cases hday : day = dayOf readings.chargedAt
        · rw [if_pos hday, hday, Function.update_self, Nat.cast_add]
        · rw [if_neg hday, Function.update_of_ne hday, add_zero]
      rw [Quotas.insertBatch_charged hi, h.taken, htaken, hresults]

lemma refines_removeBlake3 (h : Refines db c) (hash : Hash32) :
    (perform db (.removeBlake3 (some hash))).1 = (c.perform (.removeBlake3 (some hash))).1 ∧
      Refines (perform db (.removeBlake3 (some hash))).2
        (c.perform (.removeBlake3 (some hash))).2 := by
  have hcondition (r : FlaggedFileRecord) (row : Row) (hrow : rowOf r = some row) :
      decide (r.blake3 = hash) = decide (row.blake3 = hash) := by rw [(rowOf_matches hrow).blake3]
  obtain ⟨db', hremove, hrecords⟩ := Removal.removeBlake3_some db hash
  have hp : perform db (.removeBlake3 (some hash)) = (.removed (decide (0 <
      (Removal.deleteRows db.records fun row => decide (row.blake3 = hash)).1)), db') := by
    rw [perform, hremove]
  obtain ⟨-, -, hdaily, hmode⟩ := Removal.removeBlake3_eq hremove
  obtain ⟨hholds, hcard⟩ := holds_delete h.holds hcondition hrecords
  have hany : 0 < (Removal.deleteRows db.records fun row => decide (row.blake3 = hash)).1 ↔
      ∃ r ∈ c.records.entries, r.blake3 = hash := by
    rw [hcard, Finset.card_pos]
    simp [Finset.Nonempty]
  rw [hp]
  refine ⟨?_, hmode.trans h.inMemory, hholds, fun day => ?_, fun peer => ?_⟩
  · rw [Catalogue.perform]
    exact congrArg Answer.removed (decide_eq_decide.mpr hany)
  · unfold Quotas.charged
    rw [hdaily]
    exact h.taken day
  · exact (Mutations.counter_removeBlake3 hremove peer).trans (h.numbers peer)

lemma refines_cleanupExpired (h : Refines db c) (now : Int64) :
    (perform db (.cleanupExpired now)).1 = (c.perform (.cleanupExpired now)).1 ∧
      Refines (perform db (.cleanupExpired now)).2 (c.perform (.cleanupExpired now)).2 := by
  have hcondition (r : FlaggedFileRecord) (row : Row) (hrow : rowOf r = some row) :
      decide (r.expiresAtUnixMs ≤ now) = decide (row.expiresAt ≤ now) := by
    rw [(rowOf_matches hrow).expiresAt]
  have hrecords : (Removal.cleanupExpired db now).2.records =
      (Removal.deleteRows db.records fun row => decide (row.expiresAt ≤ now)).2 := by
    unfold Removal.cleanupExpired
    dsimp only
    split_ifs <;> rfl
  obtain ⟨-, -, hdaily, hmode⟩ := @Removal.cleanupExpired_eq db now
  obtain ⟨hholds, hcard⟩ := holds_delete h.holds hcondition hrecords
  refine ⟨congrArg Answer.cleaned hcard, hmode.trans h.inMemory, hholds, fun day => ?_,
    fun peer => (Mutations.counter_cleanupExpired peer).trans (h.numbers peer)⟩
  have hkept := h.taken day
  unfold Quotas.charged at hkept ⊢
  change ((Removal.cleanupExpired db now).2.ingestionDaily.lookup day).getD 0 = _
  rw [hdaily, Removal.lookup_forgetDays]
  unfold Catalogue.perform
  dsimp only
  split_ifs
  · rfl
  · exact hkept

lemma refines_nextLocalSequence (h : Refines db c) (peer : PeerId) :
    (perform db (.nextLocalSequence peer)).1 = (c.perform (.nextLocalSequence peer)).1 ∧
      Refines (perform db (.nextLocalSequence peer)).2
        (c.perform (.nextLocalSequence peer)).2 := by
  rcases hnext : IdentityReset.nextLocalSequence db peer with e | ⟨n, db'⟩
  · have hp : perform db (.nextLocalSequence peer) = (.refused, db) := by rw [perform, hnext]
    have hnone : ¬c.numbers peer + 1 < 2 ^ 64 := by
      rw [← h.numbers peer]
      exact IdentityReset.nextLocalSequence_error hnext
    rw [hp, Catalogue.perform, if_neg hnone]
    exact ⟨rfl, h⟩
  · have hp : perform db (.nextLocalSequence peer) = (.numbered n, db') := by rw [perform, hnext]
    obtain ⟨hn, hown, hothers⟩ := IdentityReset.nextLocalSequence_ok hnext
    obtain ⟨hrecords, hdaily, hmode⟩ := IdentityReset.nextLocalSequence_tables hnext
    have hroom : c.numbers peer + 1 < 2 ^ 64 := by
      rw [← h.numbers peer, ← hn]
      exact n.toNat_lt
    rw [hp, Catalogue.perform, if_pos hroom]
    refine ⟨?_, hmode.trans h.inMemory, h.holds.congr hrecords, fun day => ?_, fun q => ?_⟩
    · rw [← h.numbers peer, ← hn, UInt64.ofNat_toNat]
    · unfold Quotas.charged
      rw [hdaily]
      exact h.taken day
    · by_cases hq : q = peer
      · rw [hq, hown, h.numbers peer]
        exact (Function.update_self peer _ c.numbers).symm
      · rw [hothers q hq, h.numbers q]
        exact (Function.update_of_ne hq _ c.numbers).symm

lemma refines_perform (h : Refines db c) {operation : Operation} (hbounds : Bounded operation) :
    (perform db operation).1 = (c.perform operation).1 ∧
      Refines (perform db operation).2 (c.perform operation).2 := by
  cases operation with
  | insertBatch readings records => exact refines_insertBatch h readings hbounds
  | removeBlake3 hash =>
    rcases hash with _ | hash
    · exact ⟨rfl, h⟩
    · exact refines_removeBlake3 h hash
  | cleanupExpired now => exact refines_cleanupExpired h now
  | nextLocalSequence peer => exact refines_nextLocalSequence h peer
  | clearIdentityState =>
    exact ⟨rfl, h.inMemory, h.holds.congr rfl, h.taken, fun peer => IdentityReset.counter_clear⟩

lemma refines_performAll (h : Refines db c) {operations : List Operation}
    (hbounds : ∀ operation ∈ operations, Bounded operation) :
    (performAll db operations).1 = (c.performAll operations).1 ∧
      Refines (performAll db operations).2 (c.performAll operations).2 := by
  induction operations generalizing db c with
  | nil => exact ⟨rfl, h⟩
  | cons operation operations ih =>
    obtain ⟨hone, hmid⟩ := refines_perform h (hbounds operation List.mem_cons_self)
    obtain ⟨hrest, hlast⟩ := ih hmid fun x hx => hbounds x (List.mem_cons_of_mem operation hx)
    exact ⟨List.cons_eq_cons.mpr ⟨hone, hrest⟩, hlast⟩

lemma refines_open (inMemory : Bool) : Refines (.open inMemory) (.empty inMemory) where
  inMemory := rfl
  holds := ⟨stands_empty, by simp [Catalogue.empty, Table.empty]⟩
  taken _ := rfl
  numbers _ := rfl

structure Tells (K : Primitives) (D : Display) (db : SignatureDatabase) (c : Catalogue) : Prop where
  count : db.records.rows.length = c.records.entries.card
  active : ∀ now, db.activeCount now = (c.active now).card
  flagged : ∀ hash : Hash32, ∃ answer, isFlagged K D db (hex hash.1) = .ok answer ∧
    (answer = none ↔ ∀ r ∈ c.records.entries, r.blake3 ≠ hash) ∧
    ∀ s ∈ answer, ∃ r ∈ c.records.entries, r.blake3 = hash ∧ s = toFileSignature K D r
  listed : ∀ bucket cursor now id, id ∈ listedIds db bucket cursor now ↔
    ∃ r ∈ c.records.entries, r.recordId = id ∧ bucket ≤ r.createdAtUnixMs ∧
      r.createdAtUnixMs < saturatingAddI64 bucket DAY_MS ∧ now < r.expiresAtUnixMs ∧
      idNumber (cursor.getD zeroId) < idNumber id
  found : ∀ ids now, ids.length ≤ MAX_REQUESTED_RECORDS → ∃ rs, recordsByIds db ids now = some rs ∧
    ∀ r, r ∈ rs ↔ r ∈ c.records.entries ∧ r.recordId ∈ ids ∧ now < r.expiresAtUnixMs

variable {K : Primitives} {D : Display}

lemma Refines.decodes (h : Refines db c) (hr : r ∈ c.records.entries)
    (hrow : rowOf r = some row) :
    FlaggedFileRecord.decode row.encodedRecord = .ok r := by
  rw [(rowOf_matches hrow).encodedRecord]
  exact decode_encode (h.holds.bounded r hr)

lemma Refines.flagged (h : Refines db c) (hash : Hash32) :
    ∃ answer, isFlagged K D db (hex hash.1) = .ok answer ∧
      (answer = none ↔ ∀ r ∈ c.records.entries, r.blake3 ≠ hash) ∧
      ∀ s ∈ answer, ∃ r ∈ c.records.entries, r.blake3 = hash ∧ s = toFileSignature K D r := by
  unfold isFlagged getByBlake3
  rw [decodeHash_hex]
  dsimp only
  rcases hfind : db.records.rows.find? fun row => decide (row.blake3 = hash) with _ | row
  · rw [hfind]
    refine ⟨none, rfl, iff_of_true rfl fun r hr hhash => ?_, nofun⟩
    obtain ⟨row, hrow, himage⟩ := h.holds.stands.listed r hr
    have hnot := List.find?_eq_none.mp hfind row hrow
    rw [(rowOf_matches himage).blake3, hhash] at hnot
    exact hnot (decide_eq_true rfl)
  · obtain ⟨r, hr, himage⟩ := h.holds.stands.entered row (List.mem_of_find?_eq_some hfind)
    have hhash : r.blake3 = hash := by
      rw [← (rowOf_matches himage).blake3]
      simpa using List.find?_some hfind
    rw [hfind]
    dsimp only
    rw [h.decodes hr himage]
    refine ⟨some (toFileSignature K D r), rfl, iff_of_false nofun fun hall => hall r hr hhash,
      fun s hs => ⟨r, hr, hhash, (Option.some.inj hs).symm⟩⟩

lemma Refines.listed (h : Refines db c) (bucket : Int64) (cursor : Option RecordId)
    (now : Int64) (id : RecordId) : id ∈ listedIds db bucket cursor now ↔
      ∃ r ∈ c.records.entries, r.recordId = id ∧ bucket ≤ r.createdAtUnixMs ∧
        r.createdAtUnixMs < saturatingAddI64 bucket DAY_MS ∧ now < r.expiresAtUnixMs ∧
        idNumber (cursor.getD zeroId) < idNumber id := by
  rw [mem_listedIds]
  constructor
  · rintro ⟨row, hrow, ⟨hfrom, hto, hactive, hcursor⟩, rfl⟩
    obtain ⟨r, hr, himage⟩ := h.holds.stands.entered row hrow
    have hmatches := rowOf_matches himage
    refine ⟨r, hr, hmatches.recordId.symm, ?_, ?_, ?_, hcursor⟩
    · rwa [← hmatches.createdAt]
    · rwa [← hmatches.createdAt]
    · rw [← hmatches.expiresAt]
      exact of_decide_eq_true hactive
  · rintro ⟨r, hr, rfl, hfrom, hto, hactive, hcursor⟩
    obtain ⟨row, hrow, himage⟩ := h.holds.stands.listed r hr
    have hmatches := rowOf_matches himage
    rw [← hmatches.recordId] at hcursor
    rw [← hmatches.createdAt] at hfrom hto
    rw [← hmatches.expiresAt] at hactive
    exact ⟨row, hrow, ⟨hfrom, hto, decide_eq_true hactive, hcursor⟩, hmatches.recordId⟩

lemma Refines.found (h : Refines db c) {ids : List RecordId} (now : Int64)
    (hlength : ids.length ≤ MAX_REQUESTED_RECORDS) : ∃ rs, recordsByIds db ids now = some rs ∧
      ∀ r, r ∈ rs ↔ r ∈ c.records.entries ∧ r.recordId ∈ ids ∧ now < r.expiresAtUnixMs := by
  obtain ⟨rs, hrs, -, hsound, hcomplete⟩ := @recordsByIds_short db now ids hlength
  refine ⟨rs, hrs, fun r => ⟨fun hr => ?_, ?_⟩⟩
  · obtain ⟨row, hrow, hid, hactive, hdecode⟩ := hsound r hr
    obtain ⟨r', hr', himage⟩ := h.holds.stands.entered row hrow
    obtain rfl : r' = r := Except.ok.inj ((h.decodes hr' himage).symm.trans hdecode)
    have hmatches := rowOf_matches himage
    rw [hmatches.recordId] at hid
    refine ⟨hr', hid, ?_⟩
    rw [← hmatches.expiresAt]
    exact of_decide_eq_true hactive
  · rintro ⟨hr, hid, hactive⟩
    obtain ⟨row, hrow, himage⟩ := h.holds.stands.listed r hr
    have hmatches := rowOf_matches himage
    rw [← hmatches.recordId] at hid
    rw [← hmatches.expiresAt] at hactive
    exact hcomplete row hrow hid (decide_eq_true hactive) r (h.decodes hr himage)

lemma Refines.tells (h : Refines db c) (K : Primitives) (D : Display) :
    Tells K D db c where
  count := h.holds.stands.length (List.Nodup.of_map _ db.records.recordId_nodup)
    fun _ _ _ => rowOf_injective
  active := refines_active h
  flagged := h.flagged
  listed := h.listed
  found _ now hlength := h.found now hlength

/-- After any writing operations, whatever their outcomes, the store has answered as the catalogue
does and every query of it tells of the catalogue. -/
theorem store_refines (inMemory : Bool) (operations : List Operation)
    (hbounds : ∀ operation ∈ operations, Bounded operation) :
    (performAll (.open inMemory) operations).1 =
        ((Catalogue.empty inMemory).performAll operations).1 ∧
      ∀ K D, Tells K D (performAll (.open inMemory) operations).2
        ((Catalogue.empty inMemory).performAll operations).2 := by
  obtain ⟨hanswers, hrefines⟩ := refines_performAll (refines_open inMemory) hbounds
  exact ⟨hanswers, fun K D => hrefines.tells K D⟩

def sampleOperations : List Operation :=
  [.insertBatch DatabaseBatch.sampleReadings [sampleRecord 1 1 0 0 10, sampleRecord 1 1 0 0 20,
      sampleRecord 2 1 0 0 20],
    .insertBatch ⟨0, 1000, 0, 0, 0⟩ [sampleRecord 2 2 0 0 20], .cleanupExpired 10,
    .removeBlake3 (some ⟨List.replicate 32 0, zeros_length⟩), .nextLocalSequence ⟨[1]⟩,
    .nextLocalSequence ⟨[1]⟩, .clearIdentityState, .nextLocalSequence ⟨[1]⟩]

lemma sampleOperations_bounded : ∀ operation ∈ sampleOperations, Bounded operation := by
  simp [sampleOperations, Bounded, sampleRecord_bounds]

/-- The second record repeats the sequence of the first, the disk is full for the next batch, the
first record expires, the third goes, and the numbers begin anew after a reset. -/
theorem store_refines_sample :
    ((Catalogue.empty false).performAll sampleOperations).1 =
        [.inserted [true, false, true], .refused, .cleaned 1, .removed true, .numbered 1,
          .numbered 2, .cleared, .numbered 1] ∧
      (performAll (.open false) sampleOperations).1 =
        ((Catalogue.empty false).performAll sampleOperations).1 ∧
      ∀ K D, Tells K D (performAll (.open false) sampleOperations).2
        ((Catalogue.empty false).performAll sampleOperations).2 :=
  ⟨by decide +kernel, store_refines false sampleOperations sampleOperations_bounded⟩

end Protonet.StoreCatalogue
