import Protonet.SyncWorld

namespace Protonet.SyncProgress
open MachineInt StepRun Postcard Record RecordIdentity Database Worker Sync Queries Swarm
  Persistence Paging Listing InventoryDigests RemoteRecords SyncWorld

def listing (remote : SignatureDatabase) (start bucket : Int64) : List RecordId :=
  listedIds remote bucket none start

/-- The record stands at a position of its bucket's listing. -/
def StandsAt (remote : SignatureDatabase) (start : Int64) (row : Row) (i : ℕ) : Prop :=
  (listing remote start (bucketStart row.createdAt))[i]? = some row.recordId

/-- The record is listed among the first 256 ids of its page of 2000. -/
def Offered (remote : SignatureDatabase) (start : Int64) (row : Row) : Prop :=
  ∃ i, StandsAt remote start row i ∧ i % MAX_IDS_PER_RESPONSE < MAX_REQUESTED_RECORDS

/-- The cursor stands before some page of the bucket. -/
def OnPage (remote : SignatureDatabase) (start bucket : Int64) (k : ℕ) (cursor : Option RecordId) :
    Prop :=
  AtPage idNumber (listing remote start bucket) MAX_IDS_PER_RESPONSE k cursor

def pageAt (remote : SignatureDatabase) (start bucket : Int64) (cursor : Option RecordId) :
    List RecordId × Option RecordId :=
  page MAX_IDS_PER_RESPONSE (following idNumber (listing remote start bucket) cursor)

def FairRequest (remote : SignatureDatabase) (start : Int64) : SyncRequest → Prop
  | .getInventory => True
  | .getRecordIds bucket cursor limit =>
    limit = UInt16.ofNat MAX_IDS_PER_RESPONSE ∧ ∃ k, OnPage remote start bucket k cursor
  | .getRecords ids => ids ≠ [] ∧ ids.length ≤ MAX_REQUESTED_RECORDS

/-- What the stages of a session with an honest peer carry. The result of the inventory
comparison names the bucket of a record that is not held. -/
def Fair (K : Primitives) (peer : PeerId) (remote : SignatureDatabase) (start bucket : Int64)
    (held : Prop) (id : RequestId) : Stage → Prop
  | .asked request => FairRequest remote start request
  | .answered request response => FairRequest remote start request ∧
      ∃ now, Steady remote start now ∧ response = answer K remote request now
  | .comparingInventory summary => ∃ now, Steady remote start now ∧
      summary = inventory K remote now
  | .comparingIds b ids nextCursor => ∃ k cursor, OnPage remote start b k cursor ∧
      ids = (pageAt remote start b cursor).1 ∧ nextCursor = (pageAt remote start b cursor).2
  | .compared (.inventoryCompared p id' differing) =>
    p = peer ∧ id' = id ∧ (bucket ∈ differing ∨ held)
  | .compared (.idsCompared p id' b missing nextCursor) => p = peer ∧ id' = id ∧
      missing.length ≤ MAX_REQUESTED_RECORDS ∧
      ∀ cursor ∈ nextCursor, ∃ k, OnPage remote start b k (some cursor)
  | .compared _ => False

/-- The walk through the bucket has not passed the position. -/
def Reaches (remote : SignatureDatabase) (start bucket : Int64) (i : ℕ) (b : Int64)
    (cursor : Option RecordId) : Prop :=
  b = bucket ∧ ∃ k, OnPage remote start bucket k cursor ∧ k ≤ i / MAX_IDS_PER_RESPONSE

def PursuesRequest (remote : SignatureDatabase) (start : Int64) (row : Row) (i : ℕ) :
    SyncRequest → Prop
  | .getInventory => True
  | .getRecordIds b cursor _ => Reaches remote start (bucketStart row.createdAt) i b cursor
  | .getRecords ids => row.recordId ∈ ids

/-- The stage leads to the record at the position, unless it is held by then. -/
def Pursues (remote : SignatureDatabase) (start : Int64) (row : Row) (i : ℕ) : Stage → Prop
  | .asked request => PursuesRequest remote start row i request
  | .answered request _ => PursuesRequest remote start row i request
  | .comparingInventory _ => True
  | .comparingIds b ids nextCursor => b = bucketStart row.createdAt ∧
      ids[i % MAX_IDS_PER_RESPONSE]? = some row.recordId ∨
      ∃ cursor ∈ nextCursor, Reaches remote start (bucketStart row.createdAt) i b (some cursor)
  | .compared (.inventoryCompared ..) => True
  | .compared (.idsCompared _ _ b missing nextCursor) => row.recordId ∈ missing ∨
      ∃ cursor ∈ nextCursor, Reaches remote start (bucketStart row.createdAt) i b (some cursor)
  | .compared _ => False

variable {K : Primitives} {peer : PeerId} {remote db : SignatureDatabase} {start now : Int64}
  {bucket b : Int64} {row : Row} {i k : ℕ} {ids : List RecordId}
  {cursor nextCursor : Option RecordId} {id : RequestId}

lemma Fair.mono {b : Int64} {held held' : Prop} (h : held → held') {stage : Stage}
    (hfair : Fair K peer remote start b held id stage) :
    Fair K peer remote start b held' id stage := by
  cases stage with
  | compared action =>
    cases action with
    | inventoryCompared p id' differing =>
      exact ⟨hfair.1, hfair.2.1, hfair.2.2.imp_right h⟩
    | _ => exact hfair
  | _ => exact hfair

lemma fair_first {b : Int64} {held : Prop} (id : RequestId) (bucket : Int64) :
    Fair K peer remote start b held id (.asked (pageRequest bucket none)) :=
  ⟨rfl, 0, atPage_start⟩

lemma pursues_first :
    Pursues remote start row i (.asked (pageRequest (bucketStart row.createdAt) none)) :=
  ⟨rfl, 0, atPage_start, Nat.zero_le _⟩

lemma listing_sorted :
    (listing remote start b).Pairwise fun x y => idNumber x < idNumber y := listedIds_sorted

lemma answer_page : answer K remote (pageRequest b cursor) now =
    .recordIds (page MAX_IDS_PER_RESPONSE (listedIds remote b cursor now)).1
      (page MAX_IDS_PER_RESPONSE (listedIds remote b cursor now)).2 := by
  have hsize : 0 < (UInt16.ofNat MAX_IDS_PER_RESPONSE).toNat ∧
      (UInt16.ofNat MAX_IDS_PER_RESPONSE).toNat ≤ MAX_IDS_PER_RESPONSE := by decide
  have hvalid : (pageRequest b cursor).validate = .ok () := by
    unfold pageRequest SyncRequest.validate
    dsimp only
    rw [if_pos hsize]
  have hlimit : min (UInt16.ofNat MAX_IDS_PER_RESPONSE).toNat MAX_IDS_PER_RESPONSE =
      MAX_IDS_PER_RESPONSE := by decide
  unfold answer
  rw [hvalid]
  dsimp only [respond, pageRequest]
  rw [hlimit, recordIds_eq]

lemma answer_pageRequest (h : Steady remote start now) :
    answer K remote (pageRequest b cursor) now =
      .recordIds (pageAt remote start b cursor).1 (pageAt remote start b cursor).2 := by
  rw [answer_page, listedIds_following, listedIds_steady h]
  rfl

lemma answer_getRecords (hne : ids ≠ []) (hlen : ids.length ≤ MAX_REQUESTED_RECORDS) :
    ∃ records, answer K remote (.getRecords ids) now = .records records ∧
      records.length ≤ MAX_RECORDS_PER_RESPONSE ∧
      (∀ record ∈ records, ∃ row ∈ remote.records.rows, row.recordId ∈ ids ∧
        Row.active now row = true ∧ FlaggedFileRecord.decode row.encodedRecord = .ok record) ∧
      ∀ row ∈ remote.records.rows, row.recordId ∈ ids → Row.active now row = true →
        ∀ record, FlaggedFileRecord.decode row.encodedRecord = .ok record → record ∈ records := by
  obtain ⟨records, hrecords, hspec⟩ := @recordsByIds_short remote now ids hlen
  refine ⟨records, ?_, hspec⟩
  have hvalid : (SyncRequest.getRecords ids).validate = .ok () := if_pos ⟨hne, hlen⟩
  unfold answer
  rw [hvalid]
  dsimp only [respond]
  rw [hrecords]

lemma pageAt_bounds :
    (SyncResponse.recordIds (pageAt remote start b cursor).1
      (pageAt remote start b cursor).2).validateBounds = .ok () :=
  if_pos length_page_le

lemma onPage_next (h : OnPage remote start b k cursor) {c : RecordId}
    (hc : c ∈ (pageAt remote start b cursor).2) : OnPage remote start b (k + 1) (some c) :=
  h.next listing_sorted (by decide) hc

/-- The page before a walk that reaches a position holds it, or the walk goes on. -/
lemma pursues_page (hrow : StandsAt remote start row i)
    (h : Reaches remote start (bucketStart row.createdAt) i b cursor) :
    Pursues remote start row i (.comparingIds b (pageAt remote start b cursor).1
      (pageAt remote start b cursor).2) := by
  obtain ⟨rfl, k, hpage, hk⟩ := h
  obtain ⟨hi, hget⟩ := List.getElem?_eq_some_iff.mp hrow
  rcases hk.eq_or_lt with heq | hlt
  · refine .inl ⟨rfl, ?_⟩
    rw [← hget]
    exact hpage.holds (by decide) hi heq.symm
  · obtain ⟨c, hc⟩ := hpage.more hi hlt
    exact .inr ⟨c, hc, rfl, k + 1, onPage_next hpage hc, hlt⟩

lemma missingIds_length : (missingIds db ids now).length ≤ MAX_REQUESTED_RECORDS :=
  List.length_take_le _ _

/-- The lookup of a long page fails, so all of its ids count as missing. -/
lemma missingIds_long (h : MAX_REQUESTED_RECORDS < ids.length) :
    missingIds db ids now = ids.take MAX_REQUESTED_RECORDS := by
  unfold missingIds
  rw [recordsByIds_long h]
  simp only [Option.getD_none, List.map_nil, List.not_mem_nil, not_false_eq_true, decide_true,
    List.filter_true]

/-- An id that the store lacks is asked for when it stands among the first of its page. -/
lemma mem_missingIds {id : RecordId} {j : ℕ} (hkept : WellKept db) (hlack : ¬ Has db id)
    (hj : ids[j]? = some id) (hfirst : j < MAX_REQUESTED_RECORDS) :
    id ∈ missingIds db ids now := by
  obtain ⟨hlt, hget⟩ := List.getElem?_eq_some_iff.mp hj
  have hmem : id ∈ ids := hget ▸ List.getElem_mem hlt
  rcases Nat.lt_or_ge MAX_REQUESTED_RECORDS ids.length with hlong | hshort
  · rw [missingIds_long hlong, ← hget]
    exact List.mem_take_iff_getElem.mpr ⟨j, by omega, rfl⟩
  · unfold missingIds
    obtain ⟨records, hrecords, -, hfound, -⟩ := @recordsByIds_short db now ids hshort
    rw [hrecords, Option.getD_some, List.take_of_length_le
      ((List.length_filter_le _ _).trans hshort), List.mem_filter, decide_eq_true_eq]
    refine ⟨hmem, fun hexisting => hlack ?_⟩
    obtain ⟨record, hrecord, rfl⟩ := List.mem_map.mp hexisting
    obtain ⟨r, hr, -, -, hdecode⟩ := hfound record hrecord
    obtain ⟨record', hdecode', hid, -⟩ := hkept.decode hr
    rw [hdecode] at hdecode'
    rw [Except.ok.inj hdecode', hid]
    exact List.mem_map_of_mem hr

end Protonet.SyncProgress
