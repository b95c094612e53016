import Protonet.Paging
import Protonet.Queries

namespace Protonet.Listing
open Postcard Record Database Sync Queries Paging

/-- No row of the store expires between the two times. -/
def Steady (db : SignatureDatabase) (now now' : Int64) : Prop :=
  ∀ r ∈ db.records.rows, Row.active now' r = Row.active now r

instance (db : SignatureDatabase) (now now' : Int64) : Decidable (Steady db now now') :=
  inferInstanceAs (Decidable (∀ _ ∈ _, _))

variable {db : SignatureDatabase} {bucket now now' : Int64} {cursor : Option RecordId}
  {ids : List RecordId}

lemma foldl_beNumber_inj {xs ys : Bytes} {n m : ℕ} (hlen : xs.length = ys.length)
    (h : xs.foldl (fun n b => 256 * n + b.toNat) n = ys.foldl (fun n b => 256 * n + b.toNat) m) :
    n = m ∧ xs = ys := by
  induction xs generalizing ys n m with
  | nil =>
    obtain rfl := List.eq_nil_of_length_eq_zero hlen.symm
    exact ⟨h, rfl⟩
  | cons x xs ih =>
    cases ys with
    | nil => simp at hlen
    | cons y ys =>
      obtain ⟨hhead, rfl⟩ := ih (Nat.succ.inj hlen) h
      dsimp only at hhead
      have hx := x.toNat_lt
      have hy := y.toNat_lt
      have hxy : x.toNat = y.toNat := by omega
      exact ⟨by omega, by rw [UInt8.toNat_inj.mp hxy]⟩

lemma idNumber_injective : Function.Injective idNumber := by
  intro x y h
  have hlen : x.1.length = y.1.length := x.2.trans y.2.symm
  exact Subtype.ext (foldl_beNumber_inj hlen h).2

lemma idNumber_zeroId : idNumber zeroId = 0 := by decide

lemma mem_listedIds {id : RecordId} : id ∈ listedIds db bucket cursor now ↔
    ∃ r ∈ db.records.rows, (bucket ≤ r.createdAt ∧
      r.createdAt < MachineInt.saturatingAddI64 bucket DAY_MS ∧ Row.active now r = true ∧
      idNumber (cursor.getD zeroId) < idNumber r.recordId) ∧ r.recordId = id := by
  unfold listedIds
  rw [List.mem_insertionSort, List.mem_map]
  simp only [List.mem_filter, Bool.and_eq_true, decide_eq_true_eq, and_assoc]

lemma listedIds_nodup : (listedIds db bucket cursor now).Nodup := by
  unfold listedIds
  rw [(List.perm_insertionSort _ _).nodup_iff]
  exact db.records.recordId_nodup.sublist (List.filter_sublist.map Row.recordId)

lemma listedIds_sorted :
    (listedIds db bucket cursor now).Pairwise fun x y => idNumber x < idNumber y := by
  have hle : (listedIds db bucket cursor now).Pairwise fun x y => idNumber x ≤ idNumber y :=
    List.pairwise_insertionSort _ _
  refine (hle.and listedIds_nodup).imp fun {x y} h => ?_
  exact lt_of_le_of_ne h.1 fun heq => h.2 (idNumber_injective heq)

/-- What a query with a cursor lists is what follows the cursor. -/
lemma listedIds_following : listedIds db bucket cursor now =
    following idNumber (listedIds db bucket none now) cursor := by
  cases cursor with
  | none => rfl
  | some c =>
    refine eq_of_ordered listedIds_sorted (listedIds_sorted.filter _) fun id => ?_
    rw [following, List.mem_filter, mem_listedIds, mem_listedIds, decide_eq_true_eq]
    constructor
    · rintro ⟨r, hr, ⟨hb, hd, ha, hc⟩, rfl⟩
      refine ⟨⟨r, hr, ⟨hb, hd, ha, ?_⟩, rfl⟩, hc⟩
      rw [Option.getD_none, idNumber_zeroId]
      exact Nat.zero_lt_of_lt hc
    · rintro ⟨⟨r, hr, ⟨hb, hd, ha, -⟩, rfl⟩, hc⟩
      exact ⟨r, hr, ⟨hb, hd, ha, hc⟩, rfl⟩

lemma recordIds_page {limit : ℕ} (hlimit : 0 < limit) : recordIds db bucket cursor limit now =
    some (page (min limit MAX_IDS_PER_RESPONSE) (listedIds db bucket cursor now)) := by
  have hpos : ¬ min limit MAX_IDS_PER_RESPONSE = 0 := (lt_min hlimit (by decide)).ne'
  unfold recordIds page
  rw [if_neg hpos]
  dsimp only
  split_ifs <;> rfl

lemma recordIds_eq : recordIds db bucket cursor MAX_IDS_PER_RESPONSE now =
    some (page MAX_IDS_PER_RESPONSE (listedIds db bucket cursor now)) := by
  rw [recordIds_page (by decide), min_self]

lemma listedIds_steady (h : Steady db now now') :
    listedIds db bucket cursor now' = listedIds db bucket cursor now := by
  unfold listedIds
  congr 2
  refine List.filter_congr fun r hr => ?_
  rw [h r hr]

lemma recordsByIds_long (h : MAX_REQUESTED_RECORDS < ids.length) : recordsByIds db ids now = none :=
  if_pos h

lemma find_row {row : Row} (hrow : row ∈ db.records.rows) (hactive : Row.active now row = true) :
    (db.records.rows.find? fun r => decide (r.recordId = row.recordId) && Row.active now r) =
      some row := by
  rcases hf : db.records.rows.find? fun r =>
    decide (r.recordId = row.recordId) && Row.active now r with _ | found
  · have hnone := List.find?_eq_none.mp hf row hrow
    simp [hactive] at hnone
  · have hmem := List.mem_of_find?_eq_some hf
    have hid := List.find?_some hf
    rw [Bool.and_eq_true, decide_eq_true_eq] at hid
    rw [hf, List.inj_on_of_nodup_map db.records.recordId_nodup hmem hrow hid.1]

/-- A lookup of few enough ids finds the records of active rows. -/
lemma recordsByIds_short (h : ids.length ≤ MAX_REQUESTED_RECORDS) :
    ∃ records, recordsByIds db ids now = some records ∧
      records.length ≤ MAX_RECORDS_PER_RESPONSE ∧
      (∀ record ∈ records, ∃ row ∈ db.records.rows, row.recordId ∈ ids ∧
        Row.active now row = true ∧ FlaggedFileRecord.decode row.encodedRecord = .ok record) ∧
      ∀ row ∈ db.records.rows, row.recordId ∈ ids → Row.active now row = true →
        ∀ record, FlaggedFileRecord.decode row.encodedRecord = .ok record → record ∈ records := by
  have hall : ids.take MAX_RECORDS_PER_RESPONSE = ids := List.take_of_length_le h
  refine ⟨_, if_neg (not_lt.mpr h), ?_, ?_, ?_⟩
  · rw [hall]
    exact (List.length_filterMap_le _ _).trans h
  · intro record hrecord
    rw [hall] at hrecord
    obtain ⟨id, hid, hfound⟩ := List.mem_filterMap.mp hrecord
    rcases hf : db.records.rows.find? fun r => decide (r.recordId = id) && Row.active now r with
      _ | row
    · simp [hf] at hfound
    · rcases hd : FlaggedFileRecord.decode row.encodedRecord with error | r
      · simp [hf, hd] at hfound
      · simp only [hf, hd, Option.some.injEq] at hfound
        have hmem := List.mem_of_find?_eq_some hf
        have hcond := List.find?_some hf
        rw [Bool.and_eq_true, decide_eq_true_eq] at hcond
        exact ⟨row, hmem, hcond.1 ▸ hid, hcond.2, by rw [hd, hfound]⟩
  · intro row hrow hid hactive record hd
    rw [hall]
    refine List.mem_filterMap.mpr ⟨row.recordId, hid, ?_⟩
    simp [find_row hrow hactive, hd]

end Protonet.Listing
