import Protonet.InventoryComparison

namespace Protonet.InventoryListing
open MachineInt Postcard Record Database Sync Queries RecordIdentity Listing InventoryDigests
  InventoryComparison

/-- Asking for page after page of a bucket, with a limit for each; `none` when a page is refused
or the fuel runs out. -/
def followRecordIds (db : SignatureDatabase) (bucket now : Int64) :
    ℕ → (ℕ → ℕ) → Option RecordId → Option (List RecordId)
  | 0, _, _ => none
  | fuel + 1, limits, cursor =>
    match recordIds db bucket cursor (limits 0) now with
    | none => none
    | some (ids, none) => some ids
    | some (ids, some next) =>
      (followRecordIds db bucket now fuel (fun i => limits (i + 1)) (some next)).map (ids ++ ·)

/-- Whatever the limits, following the pages of a bucket ends with as many ids as the inventory
counts, namely those it hashes, in that order. -/
def Describes (K : Primitives) (db : SignatureDatabase) (now : Int64) (d : BucketDigest) : Prop :=
  ∀ limits : ℕ → ℕ, (∀ i, 0 < limits i) → ∃ ids,
    (∃ enough, ∀ fuel ≥ enough, followRecordIds db d.startUnix now fuel limits none = some ids) ∧
      ids.length = d.recordCount.toNat ∧ ids = bucketIds db now d.startUnix ∧
        d.digest = K.blake3 (idBytes ids)

/-- A creation time before the bucket that the division rounds up to it, one after a bucket of
negative start, which it rounds up past it, and the end of time, which no half-open range holds. -/
def Misplaced (bucket createdAt : Int64) : Prop :=
  bucket.toInt ≤ 0 ∧ bucket.toInt - DAY_MS.toInt < createdAt.toInt ∧
      createdAt.toInt < bucket.toInt ∨
    bucket.toInt < 0 ∧ bucket.toInt < createdAt.toInt ∧
      createdAt.toInt < bucket.toInt + DAY_MS.toInt ∨
    createdAt = Int64.maxValue ∧ bucketStart createdAt = bucket

instance (bucket createdAt : Int64) : Decidable (Misplaced bucket createdAt) := by
  unfold Misplaced
  infer_instance

variable {K : Primitives} {db : SignatureDatabase} {now bucket c : Int64}
  {cursor : Option RecordId} {limits : ℕ → ℕ} {fuel : ℕ}

lemma followRecordIds_eq (hlimits : ∀ i, 0 < limits i) :
    followRecordIds db bucket now fuel limits cursor =
      Paging.walk idNumber (listedIds db bucket none now) fuel
        (fun i => min (limits i) MAX_IDS_PER_RESPONSE) cursor := by
  induction fuel generalizing limits cursor with
  | zero => rfl
  | succ fuel ih =>
    unfold followRecordIds Paging.walk
    rw [recordIds_page (hlimits 0), listedIds_following]
    rcases Paging.page _ _ with ⟨ids, _ | next⟩
    · rfl
    · dsimp only
      rw [ih fun i => hlimits (i + 1)]

lemma followRecordIds_all (hlimits : ∀ i, 0 < limits i)
    (hfuel : (listedIds db bucket none now).length < fuel) :
    followRecordIds db bucket now fuel limits none = some (listedIds db bucket none now) := by
  rw [followRecordIds_eq hlimits]
  have hmin : ∀ i, 0 < min (limits i) MAX_IDS_PER_RESPONSE :=
    fun i => lt_min (hlimits i) (by decide)
  exact Paging.walk_eq listedIds_sorted hmin (j := 0) rfl hfuel

lemma DAY_MS_toInt : DAY_MS.toInt = 86400000 := by decide

lemma tdiv_day (x : ℤ) : ∃ rest, x.tdiv 86400000 * 86400000 + rest = x ∧ -86400000 < rest ∧
    rest < 86400000 ∧ (0 ≤ x → 0 ≤ rest) ∧ (x ≤ 0 → rest ≤ 0) := by
  refine ⟨x.tmod 86400000, Int.tdiv_mul_add_tmod x 86400000, Int.lt_tmod_of_pos x (by decide),
    Int.tmod_lt_of_pos x (by decide), Int.tmod_nonneg 86400000, fun hx => ?_⟩
  have hneg := Int.tmod_nonneg 86400000 (neg_nonneg.mpr hx)
  rw [Int.neg_tmod] at hneg
  exact neg_nonneg.mp hneg

lemma bucketStart_toInt : (bucketStart c).toInt = c.toInt.tdiv 86400000 * 86400000 := by
  have hlow := c.le_toInt
  have hhigh := c.toInt_lt
  obtain ⟨rest, hrest, hrest₁, hrest₂, hpos, hneg⟩ := tdiv_day c.toInt
  unfold bucketStart
  rw [Int64.toInt_mul, Int64.toInt_div_of_ne_right _ _ (by decide), DAY_MS_toInt]
  apply Int.bmod_eq_of_le
  · omega
  · omega

/-- Where the two ways to name the day of a creation time disagree. -/
lemma misplaced_iff {c₀ : Int64} (hbucket : bucketStart c₀ = bucket) : Misplaced bucket c ↔
    ¬ (bucketStart c = bucket ↔ bucket ≤ c ∧ c < saturatingAddI64 bucket DAY_MS) := by
  have hlow := c.le_toInt
  have hhigh := c.toInt_lt
  have hrange := bucket.le_toInt
  have hmax : c = Int64.maxValue ↔ c.toInt = 2 ^ 63 - 1 := by
    rw [← Int64.toInt_inj, Int64.toInt_maxValue]
  have hstart : bucketStart c = bucket ↔
      c.toInt.tdiv 86400000 * 86400000 = bucket.toInt := by
    rw [← Int64.toInt_inj, bucketStart_toInt]
  have hmultiple : c₀.toInt.tdiv 86400000 * 86400000 = bucket.toInt := by
    rw [← hbucket, bucketStart_toInt]
  obtain ⟨rest, hrest, hrest₁, hrest₂, hpos, hneg⟩ := tdiv_day c.toInt
  unfold Misplaced
  rw [hmax, hstart, Int64.le_iff_toInt_le, Int64.lt_iff_toInt_lt, saturatingAddI64_toInt,
    DAY_MS_toInt]
  rcases le_total 0 c.toInt with hc | hc
  · have hrest₃ := hpos hc
    clear hpos hneg
    omega
  · have hrest₃ := hneg hc
    clear hpos hneg
    omega

lemma id_mem_bucketIds {r : Row} (hr : r ∈ db.records.rows) (hactive : Row.active now r = true) :
    r.recordId ∈ bucketIds db now bucket ↔ bucketStart r.createdAt = bucket := by
  rw [mem_bucketIds]
  constructor
  · rintro ⟨s, hs, -, hstart, hid⟩
    rwa [← List.inj_on_of_nodup_map db.records.recordId_nodup hs hr hid]
  · intro hstart
    exact ⟨r, hr, hactive, hstart, rfl⟩

lemma idNumber_pos {id : RecordId} (h : id ≠ zeroId) : idNumber (none.getD zeroId) < idNumber id := by
  rw [Option.getD_none, idNumber_zeroId]
  exact Nat.pos_of_ne_zero fun heq => h (idNumber_injective (heq.trans idNumber_zeroId.symm))

lemma id_mem_listedIds {r : Row} (hzero : ∀ r ∈ db.records.rows, r.recordId ≠ zeroId)
    (hr : r ∈ db.records.rows) (hactive : Row.active now r = true) :
    r.recordId ∈ listedIds db bucket none now ↔
      bucket ≤ r.createdAt ∧ r.createdAt < saturatingAddI64 bucket DAY_MS := by
  rw [mem_listedIds]
  constructor
  · rintro ⟨s, hs, ⟨hfrom, hto, -, -⟩, hid⟩
    rw [← List.inj_on_of_nodup_map db.records.recordId_nodup hs hr hid]
    exact ⟨hfrom, hto⟩
  · rintro ⟨hfrom, hto⟩
    exact ⟨r, hr, ⟨hfrom, hto, hactive, idNumber_pos (hzero r hr)⟩, rfl⟩

/-- The pages list the ids of the bucket when no active row is misplaced. -/
lemma listedIds_eq_iff (hzero : ∀ r ∈ db.records.rows, r.recordId ≠ zeroId)
    (hbucket : bucketStart c = bucket) :
    listedIds db bucket none now = bucketIds db now bucket ↔
      ∀ r ∈ activeRows db now, ¬ Misplaced bucket r.createdAt := by
  constructor
  · intro heq r hr
    obtain ⟨hrow, hactive⟩ := List.mem_filter.mp hr
    rw [misplaced_iff hbucket, not_not, ← id_mem_bucketIds hrow hactive,
      ← id_mem_listedIds hzero hrow hactive, heq]
  · intro hall
    have hsame : ∀ r ∈ db.records.rows, Row.active now r = true →
        (r.recordId ∈ listedIds db bucket none now ↔ r.recordId ∈ bucketIds db now bucket) := by
      intro r hr hactive
      have hplace := hall r (List.mem_filter.mpr ⟨hr, hactive⟩)
      rw [misplaced_iff hbucket, not_not] at hplace
      rw [id_mem_bucketIds hr hactive, id_mem_listedIds hzero hr hactive, hplace]
    refine Paging.eq_of_ordered listedIds_sorted bucketIds_sorted fun id => ⟨fun hid => ?_,
      fun hid => ?_⟩
    · obtain ⟨r, hr, ⟨-, -, hactive, -⟩, rfl⟩ := mem_listedIds.mp hid
      exact (hsame r hr hactive).mp hid
    · obtain ⟨r, hr, hactive, -, rfl⟩ := mem_bucketIds.mp hid
      exact (hsame r hr hactive).mpr hid

lemma recordCount_toNat {d : BucketDigest} (hd : d ∈ (inventory K db now).bucketDigests) :
    d.recordCount.toNat = min (bucketIds db now d.startUnix).length (2 ^ 32 - 1) := by
  have hcount : d.recordCount = counted 0 (bucketIds db now d.startUnix).length :=
    congrArg BucketDigest.recordCount (inventory_bucket hd)
  rw [hcount, counted_toNat, UInt32.toNat_zero, Nat.zero_add]

lemma describes_iff_listedIds {d : BucketDigest} (hd : d ∈ (inventory K db now).bucketDigests) :
    Describes K db now d ↔ (bucketIds db now d.startUnix).length < 2 ^ 32 ∧
      listedIds db d.startUnix none now = bucketIds db now d.startUnix := by
  have hcount := recordCount_toNat hd
  constructor
  · intro h
    obtain ⟨ids, ⟨enough, hids⟩, hlength, hsame, -⟩ := h (fun _ => 1) fun _ => Nat.one_pos
    have hfollow := hids (enough + (listedIds db d.startUnix none now).length + 1) (by omega)
    rw [followRecordIds_all (fun _ => Nat.one_pos) (by omega), Option.some.injEq] at hfollow
    rw [hsame, hcount] at hlength
    exact ⟨by omega, hfollow.trans hsame⟩
  · rintro ⟨hfew, hsame⟩ limits hlimits
    refine ⟨_, ⟨(listedIds db d.startUnix none now).length + 1,
      fun fuel hfuel => followRecordIds_all hlimits hfuel⟩, ?_, hsame, ?_⟩
    · rw [hsame, hcount]
      omega
    · rw [hsame]
      exact inventory_digest hd

/-- A bucket of the inventory describes what its pages list exactly when it has fewer rows than
the counter can tell and no active row is misplaced for it. -/
theorem describes_iff (hzero : ∀ r ∈ db.records.rows, r.recordId ≠ zeroId) {d : BucketDigest}
    (hd : d ∈ (inventory K db now).bucketDigests) :
    Describes K db now d ↔ (bucketRows db now d.startUnix).length < 2 ^ 32 ∧
      ∀ r ∈ activeRows db now, ¬ Misplaced d.startUnix r.createdAt := by
  obtain ⟨e, he, hstart⟩ := List.mem_map.mp (List.mem_toFinset.mp (inventory_start hd))
  obtain ⟨r, -, -, rfl⟩ := mem_inventoryRows.mp he
  rw [describes_iff_listedIds hd, listedIds_eq_iff hzero hstart, length_bucketIds]
  rfl

/-- A new store after the insertion of one record. -/
def sampleStore (created expires : Int64) : SignatureDatabase :=
  match (SignatureDatabase.open false).insertOne (sampleRecord 1 1 1 created expires) with
  | .ok (_, db) => db
  | .error _ => .open false

/-- The bucket of the record of `sampleStore`. -/
def sampleBucket (created expires : Int64) : BucketDigest :=
  closeBucket samplePrimitives (bucketStart created) 1
    (sampleRecord 1 1 1 created expires).recordId.1

theorem describes_sample : Describes samplePrimitives (sampleStore 0 1) 0 (sampleBucket 0 1) :=
  (describes_iff (by decide +kernel) (by decide +kernel)).mpr
    ⟨by decide +kernel, by decide +kernel⟩

/-- A record of the last millisecond of 1969, admitted at the epoch, is counted for the first day
of 1970 and listed for no day. -/
theorem before_epoch_undescribed :
    RecordValidator.default.validate samplePrimitives (sampleRecord 1 1 1 (-1) 1) 0 = .ok () ∧
      (∀ r ∈ (sampleStore (-1) 1).records.rows, r.recordId ≠ zeroId) ∧
      sampleBucket (-1) 1 ∈ (inventory samplePrimitives (sampleStore (-1) 1) 0).bucketDigests ∧
      ¬ Describes samplePrimitives (sampleStore (-1) 1) 0 (sampleBucket (-1) 1) := by
  have hbucket : sampleBucket (-1) 1 ∈
      (inventory samplePrimitives (sampleStore (-1) 1) 0).bucketDigests := by decide +kernel
  refine ⟨sampleRecord_valid (by decide) (by decide) (by decide) (by decide), by decide +kernel,
    hbucket, fun h => ?_⟩
  have hlisted : listedIds (sampleStore (-1) 1) 0 none 0 = [] := by decide +kernel
  have hcounted : bucketIds (sampleStore (-1) 1) 0 0 ≠ [] := by decide +kernel
  have hsame := ((describes_iff_listedIds hbucket).mp h).2
  exact hcounted (hsame.symm.trans hlisted)

end Protonet.InventoryListing
