import Protonet.Listing
import Protonet.DatabaseBatch

namespace Protonet.IdTraversal
open MachineInt Postcard Record RecordIdentity Database DatabaseBatch Sync Queries Listing Paging

/-- A call of `recordIds` and the store it finds. -/
structure Call where
  db : SignatureDatabase
  limit : ℕ
  now : Int64

/-- The pages of a bucket, each asked for with the cursor that came with the one before; `none`
when a page is refused or the fuel runs out. -/
def traverse (bucket : Int64) : ℕ → (ℕ → Call) → Option RecordId → Option (List (List RecordId))
  | 0, _, _ => none
  | fuel + 1, calls, cursor =>
    match recordIds (calls 0).db bucket cursor (calls 0).limit (calls 0).now with
    | none => none
    | some (ids, none) => some [ids]
    | some (ids, some next) =>
      (traverse bucket fuel (fun i => calls (i + 1)) (some next)).map (ids :: ·)

/-- The store of the call has an unexpired row of the bucket with the id. -/
def Present (bucket : Int64) (call : Call) (id : RecordId) : Prop :=
  ∃ r ∈ call.db.records.rows, r.recordId = id ∧ bucket ≤ r.createdAt ∧
    r.createdAt < saturatingAddI64 bucket DAY_MS ∧ Row.active call.now r = true

instance (bucket : Int64) (call : Call) (id : RecordId) : Decidable (Present bucket call id) := by
  unfold Present
  infer_instance

variable {bucket : Int64} {calls : ℕ → Call} {cursor : Option RecordId} {id : RecordId}
  {fuel : ℕ}

def Call.listing (bucket : Int64) (call : Call) : List RecordId :=
  listedIds call.db bucket none call.now

lemma mem_listing {call : Call} (hzero : id ≠ zeroId) :
    id ∈ call.listing bucket ↔ Present bucket call id := by
  have hpos : idNumber (none.getD zeroId) < idNumber id := by
    rw [Option.getD_none, idNumber_zeroId]
    exact Nat.pos_of_ne_zero fun h => hzero (idNumber_injective (h.trans idNumber_zeroId.symm))
  unfold Call.listing
  rw [mem_listedIds]
  constructor
  · rintro ⟨r, hr, ⟨hfrom, hto, hactive, -⟩, rfl⟩
    exact ⟨r, hr, rfl, hfrom, hto, hactive⟩
  · rintro ⟨r, hr, rfl, hfrom, hto, hactive⟩
    exact ⟨r, hr, ⟨hfrom, hto, hactive, hpos⟩, rfl⟩

lemma foldl_beNumber_lt (bytes : Bytes) (n : ℕ) :
    bytes.foldl (fun n b => 256 * n + b.toNat) n < (n + 1) * 256 ^ bytes.length := by
  induction bytes generalizing n with
  | nil => simp
  | cons b bytes ih =>
    have hb := b.toNat_lt
    calc bytes.foldl (fun n b => 256 * n + b.toNat) (256 * n + b.toNat)
        < (256 * n + b.toNat + 1) * 256 ^ bytes.length := ih _
      _ ≤ (n + 1) * 256 * 256 ^ bytes.length := Nat.mul_le_mul_right _ (by omega)
      _ = (n + 1) * 256 ^ (b :: bytes).length := by
        rw [List.length_cons, pow_succ', mul_assoc]

lemma idNumber_lt (id : RecordId) : idNumber id < 256 ^ 32 := by
  have h := foldl_beNumber_lt id.1 0
  rwa [id.2, zero_add, one_mul] at h

lemma traverse_eq (hlimits : ∀ i, 0 < (calls i).limit) : traverse bucket fuel calls cursor =
    roam idNumber fuel (fun i => (calls i).listing bucket)
      (fun i => min (calls i).limit MAX_IDS_PER_RESPONSE) cursor := by
  induction fuel generalizing calls cursor with
  | zero => rfl
  | succ fuel ih =>
    unfold traverse roam
    rw [recordIds_page (hlimits 0), listedIds_following]
    change (match some (page _ (following idNumber ((calls 0).listing bucket) cursor)) with
      | none => none
      | some (ids, none) => some [ids]
      | some (ids, some next) =>
        (traverse bucket fuel (fun i => calls (i + 1)) (some next)).map (ids :: ·)) = _
    rcases page _ _ with ⟨ids, _ | next⟩
    · rfl
    · dsimp only
      rw [ih fun i => hlimits (i + 1)]

/-- Whatever happens to the store between the calls, and with any limits and times: the calls for a
bucket that pass on the cursors come to an end, return no id twice, and return each id that is
present at all of them exactly once. -/
theorem traversal_survives (bucket : Int64) (calls : ℕ → Call)
    (hlimits : ∀ i, 0 < (calls i).limit) :
    ∃ pages, (∃ enough, ∀ fuel ≥ enough, traverse bucket fuel calls none = some pages) ∧
      pages.flatten.Nodup ∧
      ∀ id ≠ zeroId, (∀ i < pages.length, Present bucket (calls i) id) →
        pages.flatten.count id = 1 := by
  have hlistings : ∀ i, ((calls i).listing bucket).Pairwise fun x y => idNumber x < idNumber y :=
    fun i => listedIds_sorted
  have hmin : ∀ i, 0 < min (calls i).limit MAX_IDS_PER_RESPONSE :=
    fun i => lt_min (hlimits i) (by decide)
  obtain ⟨pages, hpages⟩ : ∃ pages, roam idNumber (256 ^ 32 + 1)
      (fun i => (calls i).listing bucket) (fun i => min (calls i).limit MAX_IDS_PER_RESPONSE) none =
        some pages := roam_ends idNumber_lt hlistings le_rfl
  obtain ⟨hordered, -⟩ := roam_ordered hlistings hmin hpages
  have hnodup : pages.flatten.Nodup := hordered.imp fun hlt heq => hlt.ne (congrArg idNumber heq)
  refine ⟨pages, ⟨256 ^ 32 + 1, fun fuel hfuel => ?_⟩, hnodup, fun id hzero hpresent => ?_⟩
  · rw [traverse_eq hlimits]
    exact roam_mono hpages hfuel
  · have hmem : ∀ i < pages.length, id ∈ (calls i).listing bucket :=
      fun i hi => (mem_listing hzero).mpr (hpresent i hi)
    exact List.count_eq_one_of_mem hnodup (mem_roam hlistings hmin hpages trivial hmem)

def storeOf (records : List FlaggedFileRecord) : SignatureDatabase :=
  match (SignatureDatabase.open false).insertBatch sampleReadings records with
  | .ok (_, db) => db
  | .error _ => .open false

/-- Three records, of which the first call finds two and the later ones the last two. -/
def shiftingCalls (i : ℕ) : Call :=
  if i = 0 then ⟨storeOf [sampleRecord 1 1 1 0 1000, sampleRecord 1 2 1 0 1000], 1, 0⟩
  else ⟨storeOf [sampleRecord 1 2 1 0 1000, sampleRecord 1 3 1 0 1000], 1, 1⟩

theorem shiftingCalls_survive : ∃ pages,
    (∃ enough, ∀ fuel ≥ enough, traverse 0 fuel shiftingCalls none = some pages) ∧
      pages.flatten.count (sampleRecord 1 2 1 0 1000).recordId = 1 := by
  have hlimits : ∀ i, 0 < (shiftingCalls i).limit := by
    intro i
    unfold shiftingCalls
    split_ifs <;> exact Nat.one_pos
  obtain ⟨pages, hends, -, honce⟩ := traversal_survives 0 shiftingCalls hlimits
  refine ⟨pages, hends, honce _ (by decide +kernel) fun i _ => ?_⟩
  unfold shiftingCalls
  split_ifs
  · decide +kernel
  · decide +kernel

end Protonet.IdTraversal
