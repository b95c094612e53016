import Protonet.RemoteRecords
import Protonet.InventoryDigests

namespace Protonet.Stock
open MachineInt Postcard Record RecordIdentity Database Sync Queries Listing InventoryDigests
  RemoteRecords

def windowHash (b : Bytes) : Hash32 :=
  ⟨UInt8.ofNat b.length :: (List.range 31).map fun i => b.getD (23 + i) 0, by simp⟩

def stockPrimitives : Primitives := { samplePrimitives with blake3 := windowHash }

def stockRecord (i : ℕ) : FlaggedFileRecord :=
  let r := sampleRecord 1 (UInt64.ofNat (128 + i)) 1 0 1000
  { r with
    recordId := windowHash r.preimage
    signature := ⟨[1] ++ (SIGNATURE_DOMAIN ++ (windowHash r.preimage).1),
      by simp [(windowHash r.preimage).2, SIGNATURE_DOMAIN, ascii]⟩ }

def stockRow (i : ℕ) : Row :=
  ⟨(stockRecord i).recordId, [1], Int64.ofNat (128 + i), 0, 1000, (stockRecord i).sha256,
    (stockRecord i).blake3, 1, none, ⟨"", empty_fits⟩, 1, (stockRecord i).signature.1,
    (stockRecord i).encode⟩

variable {i j : ℕ}

/-- The bytes of a preimage around its sequence number. -/
def stockHead : Bytes :=
  RECORD_DOMAIN ++ (varintU16.encode PROTOCOL_VERSION ++
    ((seq byte).encode ⟨[1], by simp⟩ ++ (seq byte).encode ⟨[1], by simp⟩))

def stockTail : Bytes :=
  (varintI64.prod <| varintI64.prod <| hash32Wire.prod <| hash32Wire.prod <| varintU64.prod <|
    (option text).prod <| text.prod threatLevelWire).encode
    (0, 1000, ⟨List.replicate 32 0, zeros_length⟩, ⟨List.replicate 32 0, zeros_length⟩, 1, none,
      ⟨"", empty_fits⟩, .malicious)

lemma stock_preimage : (stockRecord i).preimage =
    stockHead ++ (varintU64.encode (UInt64.ofNat (128 + i)) ++ stockTail) := by
  unfold stockHead
  rw [List.append_assoc, List.append_assoc, List.append_assoc]
  rfl

lemma varint_two {n : ℕ} (hlow : 128 ≤ n) (hhigh : n < 16384) :
    varintU64.encode (UInt64.ofNat n) = [UInt8.ofNat (n % 128 + 128), UInt8.ofNat (n / 128)] := by
  have hn : (UInt64.ofNat n).toNat = n :=
    UInt64.toNat_ofNat_of_lt' (hhigh.trans (by decide))
  change varintBytes 10 (UInt64.ofNat n).toNat = _
  rw [hn, varintBytes, if_neg (by omega), varintBytes, if_pos (by omega)]

lemma stock_id (hi : i < 16000) : ∃ tail,
    (stockRecord i).recordId.1 = UInt8.ofNat (stockRecord i).preimage.length ::
      UInt8.ofNat ((128 + i) % 128 + 128) :: UInt8.ofNat ((128 + i) / 128) :: tail := by
  have hhead : stockHead.length = 23 := by decide
  have hrange : List.range 31 = 0 :: 1 :: (List.range 29).map (· + 2) := by decide
  have hlow : (stockRecord i).preimage.getD (23 + 0) 0 = UInt8.ofNat ((128 + i) % 128 + 128) := by
    rw [stock_preimage, varint_two (by omega) (by omega),
      List.getD_append_right _ _ _ _ (by omega), hhead]
    rfl
  have hhigh : (stockRecord i).preimage.getD (23 + 1) 0 = UInt8.ofNat ((128 + i) / 128) := by
    rw [stock_preimage, varint_two (by omega) (by omega),
      List.getD_append_right _ _ _ _ (by omega), hhead]
    rfl
  refine ⟨((List.range 29).map (· + 2)).map fun k => (stockRecord i).preimage.getD (23 + k) 0, ?_⟩
  have hid : (stockRecord i).recordId.1 = UInt8.ofNat (stockRecord i).preimage.length ::
      (List.range 31).map fun k => (stockRecord i).preimage.getD (23 + k) 0 := rfl
  rw [hid, hrange, List.map_cons, List.map_cons, hlow, hhigh]

lemma stock_id_injective (hi : i < 16000) (hj : j < 16000)
    (h : (stockRecord i).recordId = (stockRecord j).recordId) : i = j := by
  obtain ⟨tail, htail⟩ := stock_id hi
  obtain ⟨tail', htail'⟩ := stock_id hj
  rw [h, htail'] at htail
  obtain ⟨-, hrest⟩ := List.cons.inj htail
  obtain ⟨hlow, hrest⟩ := List.cons.inj hrest
  obtain ⟨hhigh, -⟩ := List.cons.inj hrest
  have hlow' := congrArg UInt8.toNat hlow
  have hhigh' := congrArg UInt8.toNat hhigh
  rw [UInt8.toNat_ofNat', UInt8.toNat_ofNat'] at hlow' hhigh'
  omega

lemma stock_id_ne (hi : i < 16000) : (stockRecord i).recordId ≠ zeroId := by
  obtain ⟨tail, htail⟩ := stock_id hi
  intro h
  rw [h] at htail
  obtain ⟨-, hrest⟩ := List.cons.inj htail
  have hlow := congrArg UInt8.toNat (List.cons.inj hrest).1
  rw [UInt8.toNat_ofNat'] at hlow
  have hzero : (0 : UInt8).toNat = 0 := rfl
  omega

lemma toRow_stock (hi : i < 16000) : toRow (stockRecord i) = .ok (stockRow i) := by
  have hn : (UInt64.ofNat (128 + i)).toNat = 128 + i :=
    UInt64.toNat_ofNat_of_lt' (lt_trans (by omega : 128 + i < 16384) (by decide))
  have hsequence : i64TryFrom (stockRecord i).sequence = some (Int64.ofNat (128 + i)) := by
    change i64TryFrom (UInt64.ofNat (128 + i)) = _
    unfold i64TryFrom
    rw [hn, if_pos (by omega)]
  have hsize : i64TryFrom (stockRecord i).fileSize = some 1 :=
    (by decide : i64TryFrom 1 = some 1)
  unfold toRow
  rw [hsequence, hsize]
  rfl

lemma stock_bounds : (stockRecord i).checkFieldBounds = .ok () := by
  have hd : SIGNATURE_DOMAIN.length = 25 := by decide
  obtain ⟨hpeer, hkey, -, hname, hreason⟩ :=
    checkFieldBounds_ok_iff.mp (sampleRecord_bounds 1 (UInt64.ofNat (128 + i)) 1 0 1000)
  refine checkFieldBounds_ok_iff.mpr ⟨hpeer, hkey, ?_, hname, hreason⟩
  change ([1] ++ (SIGNATURE_DOMAIN ++ _)).length ≤ _
  rw [List.length_append, List.length_append, (windowHash _).2, hd]
  decide

lemma stock_sequence_injective (hi : i < 16000) (hj : j < 16000)
    (h : (stockRow i).originSequence = (stockRow j).originSequence) : i = j := by
  have heq : Int64.ofNat (128 + i) = Int64.ofNat (128 + j) := (Prod.mk.inj h).2
  have hint := congrArg Int64.toInt heq
  rw [Int64.toInt_ofNat_of_lt (by omega), Int64.toInt_ofNat_of_lt (by omega)] at hint
  omega

def stock (ixs : List ℕ) (hnodup : ixs.Nodup) (hsmall : ∀ i ∈ ixs, i < 16000) :
    SignatureDatabase :=
  { SignatureDatabase.open false with
    records := ⟨ixs.map stockRow, by
      rw [List.map_map]
      exact hnodup.map_on fun i hi j hj => stock_id_injective (hsmall i hi) (hsmall j hj), by
      rw [List.map_map]
      exact hnodup.map_on fun i hi j hj => stock_sequence_injective (hsmall i hi) (hsmall j hj)⟩ }

variable {ixs : List ℕ} {hnodup : ixs.Nodup} {hsmall : ∀ i ∈ ixs, i < 16000} {id : RecordId}
  {r : Row}

lemma mem_stock : r ∈ (stock ixs hnodup hsmall).records.rows ↔ ∃ i ∈ ixs, stockRow i = r :=
  List.mem_map

lemma wellKept_stock : WellKept (stock ixs hnodup hsmall) := by
  intro r hr
  obtain ⟨i, hi, rfl⟩ := mem_stock.mp hr
  exact ⟨stockRecord i, stock_bounds, toRow_stock (hsmall i hi)⟩

lemma stock_active : Row.active 0 (stockRow i) = true := (by decide : decide ((0 : Int64) < 1000) = true)

lemma mem_listedIds_stock :
    id ∈ listedIds (stock ixs hnodup hsmall) 0 none 0 ↔ ∃ i ∈ ixs, (stockRecord i).recordId = id := by
  rw [mem_listedIds]
  constructor
  · rintro ⟨r, hr, -, rfl⟩
    obtain ⟨i, hi, rfl⟩ := mem_stock.mp hr
    exact ⟨i, hi, rfl⟩
  · rintro ⟨i, hi, rfl⟩
    refine ⟨stockRow i, mem_stock.mpr ⟨i, hi, rfl⟩, ⟨(by decide : (0 : Int64) ≤ 0),
      (by decide : (0 : Int64) < saturatingAddI64 0 DAY_MS), stock_active, ?_⟩, rfl⟩
    rw [Option.getD_none, idNumber_zeroId]
    refine Nat.pos_of_ne_zero fun hzero => stock_id_ne (hsmall i hi) (idNumber_injective ?_)
    exact hzero.trans idNumber_zeroId.symm

lemma length_listedIds_stock :
    (listedIds (stock ixs hnodup hsmall) 0 none 0).length = ixs.length := by
  have hids : (ixs.map fun i => (stockRecord i).recordId).Nodup :=
    hnodup.map_on fun i hi j hj => stock_id_injective (hsmall i hi) (hsmall j hj)
  have hperm : (listedIds (stock ixs hnodup hsmall) 0 none 0).Perm
      (ixs.map fun i => (stockRecord i).recordId) := by
    refine (List.perm_ext_iff_of_nodup listedIds_nodup hids).mpr fun id => ?_
    rw [mem_listedIds_stock, List.mem_map]
  rw [hperm.length_eq, List.length_map]

lemma agree_stock {ixs' : List ℕ} {hnodup' : ixs'.Nodup} {hsmall' : ∀ i ∈ ixs', i < 16000} :
    Agree (stock ixs hnodup hsmall) (stock ixs' hnodup' hsmall') := by
  intro r hr row hrow hsequence
  obtain ⟨i, hi, rfl⟩ := mem_stock.mp hr
  obtain ⟨j, hj, rfl⟩ := mem_stock.mp hrow
  rw [stock_sequence_injective (hsmall' i hi) (hsmall j hj) hsequence]

lemma has_stock : Has (stock ixs hnodup hsmall) id ↔ ∃ i ∈ ixs, (stockRecord i).recordId = id := by
  unfold Has
  rw [List.mem_map]
  constructor
  · rintro ⟨r, hr, rfl⟩
    obtain ⟨i, hi, rfl⟩ := mem_stock.mp hr
    exact ⟨i, hi, rfl⟩
  · rintro ⟨i, hi, rfl⟩
    exact ⟨stockRow i, mem_stock.mpr ⟨i, hi, rfl⟩, rfl⟩

variable {K : Primitives} {here : SignatureDatabase}

lemma starts_stock : starts (inventoryRows (stock ixs hnodup hsmall) 0) ⊆ {0} := by
  intro start hstart
  obtain ⟨e, he, rfl⟩ := List.mem_map.mp (List.mem_toFinset.mp hstart)
  obtain ⟨r, hr, -, rfl⟩ := mem_inventoryRows.mp he
  obtain ⟨i, -, rfl⟩ := mem_stock.mp hr
  exact Finset.mem_singleton.mpr (by decide : bucketStart 0 = 0)

lemma length_bucketIds_stock : (bucketIds (stock ixs hnodup hsmall) 0 0).length = ixs.length := by
  have hall : ∀ e ∈ inventoryRows (stock ixs hnodup hsmall) 0, decide (e.1 = 0) = true := by
    intro e he
    have hstart : e.1 ∈ starts (inventoryRows (stock ixs hnodup hsmall) 0) :=
      List.mem_toFinset.mpr (List.mem_map_of_mem he)
    exact decide_eq_true (Finset.mem_singleton.mp (starts_stock hstart))
  have hactive : activeRows (stock ixs hnodup hsmall) 0 = ixs.map stockRow := by
    refine List.filter_eq_self.mpr fun r hr => ?_
    obtain ⟨i, -, rfl⟩ := mem_stock.mp hr
    exact stock_active
  unfold bucketIds idsOf
  rw [List.filter_eq_self.mpr hall, List.length_map, inventoryRows, List.length_insertionSort,
    List.length_map, hactive, List.length_map]

/-- The hash tells stocks apart whose numbers of records differ below the width of a byte. -/
lemma collisionFree_stock {xs ys : List RecordId}
    (h : xs.length * 32 % 256 ≠ ys.length * 32 % 256) :
    CollisionFree stockPrimitives {idBytes xs, idBytes ys} := by
  have hlength : ∀ ids : List RecordId, (idBytes ids).length = ids.length * 32 := by
    intro ids
    unfold idBytes
    rw [List.length_flatMap, List.map_congr_left fun id _ => id.2, List.map_const', List.sum_replicate,
      smul_eq_mul]
  refine Set.injOn_pair.mpr fun hsame => absurd ?_ h
  have hhead := congrArg (fun hash : Hash32 => hash.1.head?) hsame
  have hbyte := congrArg UInt8.toNat (Option.some.inj hhead)
  rwa [UInt8.toNat_ofNat', UInt8.toNat_ofNat', hlength, hlength] at hbyte

lemma differing_stock
    (h : 0 ∈ differingBuckets (inventory K here 0) (inventory K (stock ixs hnodup hsmall) 0)) :
    differingBuckets (inventory K here 0) (inventory K (stock ixs hnodup hsmall) 0) = [0] := by
  have hall : ∀ b ∈ differingBuckets (inventory K here 0)
      (inventory K (stock ixs hnodup hsmall) 0), b = 0 := by
    intro b hb
    obtain ⟨d, hd, rfl⟩ := List.mem_map.mp hb
    exact Finset.mem_singleton.mp (starts_stock (inventory_start (List.mem_filter.mp hd).1))
  have hnodup' := (@differing_bounds K (stock ixs hnodup hsmall) 0 (inventory K here 0)).1
  rw [List.eq_replicate_of_mem hall] at h hnodup' ⊢
  have hlength := List.nodup_replicate.mp hnodup'
  have hpos := List.length_pos_of_mem h
  rw [List.length_replicate] at hpos
  rw [show List.length _ = 1 from Nat.le_antisymm hlength hpos]
  rfl

lemma differing_stock_empty {i : ℕ} (hi : i ∈ ixs) :
    differingBuckets (inventory K (SignatureDatabase.open false) 0)
      (inventory K (stock ixs hnodup hsmall) 0) = [0] := by
  have hfew : (starts (inventoryRows (stock ixs hnodup hsmall) 0)).card ≤ MAX_BUCKETS :=
    (Finset.card_le_card starts_stock).trans (by decide)
  obtain ⟨d, hd, hstart⟩ := @inventory_covers K _ 0 hfew _ (mem_stock.mpr ⟨i, hi, rfl⟩) stock_active
  have hzero : d.startUnix = 0 := hstart.trans (by decide : bucketStart 0 = 0)
  have hmem : d.startUnix ∈ differingBuckets (inventory K (SignatureDatabase.open false) 0)
      (inventory K (stock ixs hnodup hsmall) 0) := mem_differingBuckets hd nofun
  rw [hzero] at hmem
  exact differing_stock hmem

end Protonet.Stock
