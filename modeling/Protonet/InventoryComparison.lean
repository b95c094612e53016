import Protonet.InventoryDigests

namespace Protonet.InventoryComparison
open Postcard Record Database Sync Queries RecordIdentity Listing InventoryDigests

def bucketRows (db : SignatureDatabase) (now bucket : Int64) : List Row :=
  (activeRows db now).filter fun r => decide (bucketStart r.createdAt = bucket)

/-- The buckets in which a store has active records. -/
def activeBuckets (db : SignatureDatabase) (now : Int64) : Finset Int64 :=
  ((activeRows db now).map fun r => bucketStart r.createdAt).toFinset

/-- The set of active record ids of a bucket. -/
def activeIds (db : SignatureDatabase) (now bucket : Int64) : Finset RecordId :=
  ((bucketRows db now bucket).map Row.recordId).toFinset

variable {K : Primitives} {db db' here remote here' remote' : SignatureDatabase} {now b : Int64}

lemma starts_eq : starts (inventoryRows db now) = activeBuckets db now := by
  unfold starts activeBuckets inventoryRows
  rw [List.toFinset_eq_of_perm _ _ ((List.perm_insertionSort _ _).map _), List.map_map]
  rfl

lemma mem_activeIds {id : RecordId} : id ∈ activeIds db now b ↔ id ∈ bucketIds db now b := by
  unfold activeIds bucketRows activeRows
  rw [List.mem_toFinset, List.mem_map, mem_bucketIds]
  simp only [List.mem_filter, decide_eq_true_eq, and_assoc]

lemma mem_bucketIds_iff {id : RecordId} :
    id ∈ bucketIds db now b ↔ (b, id) ∈ inventoryRows db now := by
  rw [mem_bucketIds, mem_inventoryRows]
  simp only [Prod.mk.injEq]

/-- The order in which ids are hashed depends on nothing but the set. -/
lemma bucketIds_eq (h : activeIds db now b = activeIds db' now b) :
    bucketIds db now b = bucketIds db' now b := by
  refine Paging.eq_of_ordered bucketIds_sorted bucketIds_sorted fun id => ?_
  rw [← mem_activeIds, ← mem_activeIds, h]

lemma exists_bucketRow (h : b ∈ activeBuckets db now) : ∃ r ∈ db.records.rows,
    Row.active now r = true ∧ bucketStart r.createdAt = b := by
  obtain ⟨r, hr, hstart⟩ := List.mem_map.mp (List.mem_toFinset.mp h)
  obtain ⟨hrow, hactive⟩ := List.mem_filter.mp hr
  exact ⟨r, hrow, hactive, hstart⟩

lemma lookup_collect_other {bs : List BucketDigest}
    {m : AList fun _ : Int64 => UInt32 × Hash32} (h : b ∉ bs.map BucketDigest.startUnix) :
    (bs.foldl (fun m d => m.insert d.startUnix (d.recordCount, d.digest)) m).lookup b =
      m.lookup b := by
  induction bs generalizing m with
  | nil => rfl
  | cons d bs ih =>
    rw [List.map_cons, List.mem_cons, not_or] at h
    rw [List.foldl_cons, ih h.2, AList.lookup_insert_ne h.1]

lemma lookup_collect_self {bs : List BucketDigest} {m : AList fun _ : Int64 => UInt32 × Hash32}
    (hnodup : (bs.map BucketDigest.startUnix).Nodup) {d : BucketDigest} (hd : d ∈ bs) :
    (bs.foldl (fun m d => m.insert d.startUnix (d.recordCount, d.digest)) m).lookup d.startUnix =
      some (d.recordCount, d.digest) := by
  induction bs generalizing m with
  | nil => cases hd
  | cons e bs ih =>
    rw [List.map_cons, List.nodup_cons] at hnodup
    rw [List.foldl_cons]
    rcases List.mem_cons.mp hd with rfl | hd
    · rw [lookup_collect_other hnodup.1, AList.lookup_insert]
    · exact ih hnodup.2 hd

lemma same_not_differing (hfew : (activeBuckets here now).card ≤ MAX_BUCKETS)
    (hb : b ∈ activeBuckets remote now) (hsame : activeIds here now b = activeIds remote now b) :
    b ∉ differingBuckets (inventory K here now) (inventory K remote now) := by
  obtain ⟨r, hr, hactive, hstart⟩ := exists_bucketRow hb
  have hid : r.recordId ∈ activeIds here now b := by
    rw [hsame, mem_activeIds]
    exact mem_bucketIds.mpr ⟨r, hr, hactive, hstart, rfl⟩
  obtain ⟨s, hs, hsactive, hsstart, -⟩ := mem_bucketIds.mp (mem_activeIds.mp hid)
  rw [← starts_eq] at hfew
  obtain ⟨d, hd, hdstart⟩ := @inventory_covers K here now hfew s hs hsactive
  rw [hsstart] at hdstart
  intro hmem
  obtain ⟨e, he, hestart⟩ := List.mem_map.mp hmem
  obtain ⟨hremote, hdiffers⟩ := List.mem_filter.mp he
  rw [decide_eq_true_eq] at hdiffers
  have hequal : d = e := by
    rw [inventory_bucket hd, inventory_bucket hremote, hdstart, hestart, bucketIds_eq hsame]
  refine hdiffers ?_
  rw [← hequal]
  exact lookup_collect_self inventory_nodup hd

/-- A bucket with other ids is asked for, as far as the hash tells the two lists apart. -/
lemma other_differing (hfew : (activeBuckets remote now).card ≤ MAX_BUCKETS)
    (hcf : CollisionFree K {idBytes (bucketIds here now b), idBytes (bucketIds remote now b)})
    (hb : b ∈ activeBuckets remote now) (hother : activeIds here now b ≠ activeIds remote now b) :
    b ∈ differingBuckets (inventory K here now) (inventory K remote now) := by
  obtain ⟨r, hr, hactive, hstart⟩ := exists_bucketRow hb
  rw [← starts_eq] at hfew
  obtain ⟨d, hd, hdstart⟩ := @inventory_covers K remote now hfew r hr hactive
  rw [hstart] at hdstart
  rw [← hdstart] at hcf hother ⊢
  refine mem_differingBuckets hd fun d' hd' hsame heq => hother ?_
  rw [inventory_digest hd, inventory_digest hd', hsame] at heq
  have hids := idBytes_injective (hcf (by simp) (by simp) heq)
  ext id
  rw [mem_activeIds, mem_activeIds, hids]

lemma bucketDigests_eq (h : ∀ b, activeIds db now b = activeIds db' now b) :
    (inventory K db now).bucketDigests = (inventory K db' now).bucketDigests := by
  have hrows : inventoryRows db now = inventoryRows db' now := by
    have hperm : (inventoryRows db now).Perm (inventoryRows db' now) := by
      refine (List.perm_ext_iff_of_nodup (.of_map _ inventoryRows_ids)
        (.of_map _ inventoryRows_ids)).mpr fun ⟨start, id⟩ => ?_
      rw [← mem_bucketIds_iff, ← mem_bucketIds_iff, ← mem_activeIds, ← mem_activeIds, h]
    exact hperm.eq_of_pairwise (fun _ _ _ _ => inventoryOrder_antisymm)
      (List.pairwise_insertionSort _ _) (List.pairwise_insertionSort _ _)
  unfold inventory
  rw [hrows]

/-- The comparison is exact, and does not depend on how either store came by its records. -/
theorem differing_exact (hhere : (activeBuckets here now).card ≤ MAX_BUCKETS)
    (hremote : (activeBuckets remote now).card ≤ MAX_BUCKETS)
    (hcf : ∀ b ∈ activeBuckets remote now,
      CollisionFree K {idBytes (bucketIds here now b), idBytes (bucketIds remote now b)}) :
    (differingBuckets (inventory K here now) (inventory K remote now)).Pairwise
        (fun b c => b.toInt < c.toInt) ∧
      (∀ b, b ∈ differingBuckets (inventory K here now) (inventory K remote now) ↔
        b ∈ activeBuckets remote now ∧ activeIds here now b ≠ activeIds remote now b) ∧
      ∀ here' remote', (∀ b, activeIds here' now b = activeIds here now b) →
        (∀ b, activeIds remote' now b = activeIds remote now b) →
          differingBuckets (inventory K here' now) (inventory K remote' now) =
            differingBuckets (inventory K here now) (inventory K remote now) := by
  refine ⟨?_, fun b => ⟨fun hb => ?_, fun hb => ?_⟩, fun here' remote' hsame hsame' => ?_⟩
  · exact List.pairwise_map.mpr (inventory_increasing.sublist List.filter_sublist)
  · obtain ⟨d, hd, rfl⟩ := List.mem_map.mp hb
    have hactive : d.startUnix ∈ activeBuckets remote now :=
      starts_eq ▸ inventory_start (List.mem_filter.mp hd).1
    exact ⟨hactive, fun hsame => same_not_differing hhere hactive hsame hb⟩
  · exact other_differing hremote (hcf b hb.1) hb.1 hb.2
  · unfold differingBuckets
    rw [bucketDigests_eq hsame, bucketDigests_eq hsame']

/-- A new store after the insertion of one record for each sequence and day. -/
def sampleDays (days : List (UInt64 × Int64)) : SignatureDatabase :=
  match (SignatureDatabase.open false).insertRows
    (days.map fun d => sampleRecord 1 d.1 1 (d.2 * DAY_MS) (9 * DAY_MS)) with
  | .ok (_, db) => db
  | .error _ => .open false

def sampleHere : SignatureDatabase := sampleDays [(1, 0), (2, 1)]

def sampleRemote : SignatureDatabase := sampleDays [(4, 2), (3, 1), (1, 0)]

lemma activeBuckets_sample : activeBuckets sampleRemote 0 = {0, DAY_MS, 2 * DAY_MS} := by
  decide +kernel

/-- Of three days, the stores agree on the first, hold a record of their own of the second, and
only the remote one has a record of the third. -/
theorem differing_exact_sample : differingBuckets (inventory samplePrimitives sampleHere 0)
    (inventory samplePrimitives sampleRemote 0) = [DAY_MS, 2 * DAY_MS] := by
  have hfew : (activeBuckets sampleRemote 0).card ≤ MAX_BUCKETS := by
    rw [activeBuckets_sample]
    decide
  have hcf : ∀ b ∈ activeBuckets sampleRemote 0, CollisionFree samplePrimitives
      {idBytes (bucketIds sampleHere 0 b), idBytes (bucketIds sampleRemote 0 b)} := by
    intro b hb
    rw [activeBuckets_sample] at hb
    simp only [Finset.mem_insert, Finset.mem_singleton] at hb
    rcases hb with rfl | rfl | rfl
    · decide +kernel
    · decide +kernel
    · decide +kernel
  obtain ⟨hincreasing, hmem, -⟩ := differing_exact (by decide +kernel) hfew hcf
  have hsame : ∀ b, b ∈ differingBuckets (inventory samplePrimitives sampleHere 0)
      (inventory samplePrimitives sampleRemote 0) ↔ b ∈ [DAY_MS, 2 * DAY_MS] := by
    intro b
    rw [hmem b, activeBuckets_sample]
    simp only [Finset.mem_insert, Finset.mem_singleton, List.mem_cons, List.not_mem_nil, or_false]
    refine ⟨?_, ?_⟩
    · rintro ⟨rfl | rfl | rfl, hdiffers⟩
      · exact absurd (by decide +kernel) hdiffers
      · exact .inl rfl
      · exact .inr rfl
    · rintro (rfl | rfl)
      · exact ⟨.inr (.inl rfl), by decide +kernel⟩
      · exact ⟨.inr (.inr rfl), by decide +kernel⟩
  have hordered : [DAY_MS, 2 * DAY_MS].Pairwise (fun b c => b.toInt < c.toInt) := by decide
  exact Paging.eq_of_ordered hincreasing hordered hsame

end Protonet.InventoryComparison
