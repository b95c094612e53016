import Protonet.Listing
import Protonet.RecordIdentity

namespace Protonet.InventoryDigests
open Postcard Record Database Sync Queries RecordIdentity Listing

def idBytes (ids : List RecordId) : Bytes := ids.flatMap Subtype.val

def idsOf (start : Int64) (rows : List (Int64 × RecordId)) : List RecordId :=
  (rows.filter fun e => decide (e.1 = start)).map Prod.snd

def bucketIds (db : SignatureDatabase) (now start : Int64) : List RecordId :=
  idsOf start (inventoryRows db now)

def starts (rows : List (Int64 × RecordId)) : Finset Int64 := (rows.map Prod.fst).toFinset

variable {K : Primitives} {db : SignatureDatabase} {now c : Int64}
  {rows : List (Int64 × RecordId)} {buckets : List BucketDigest} {count : UInt32} {hashed : Bytes}

lemma idBytes_injective : Function.Injective idBytes := by
  intro xs ys h
  induction xs generalizing ys with
  | nil =>
    cases ys with
    | nil => rfl
    | cons y ys =>
      have hlen := congrArg List.length h
      rw [idBytes, idBytes, List.flatMap_nil, List.flatMap_cons, List.length_append, y.2,
        List.length_nil] at hlen
      omega
  | cons x xs ih =>
    cases ys with
    | nil =>
      have hlen := congrArg List.length h
      rw [idBytes, idBytes, List.flatMap_nil, List.flatMap_cons, List.length_append, x.2,
        List.length_nil] at hlen
      omega
    | cons y ys =>
      have hlen : x.1.length = y.1.length := x.2.trans y.2.symm
      obtain ⟨hhead, htail⟩ := List.append_inj h hlen
      rw [Subtype.ext hhead, ih htail]

instance : Std.Total inventoryOrder where
  total x y := by
    unfold inventoryOrder
    rcases lt_trichotomy x.1.toInt y.1.toInt with h | h | h
    · exact .inl (.inl (Int64.lt_iff_toInt_lt.mpr h))
    · rw [Int64.toInt_inj.mp h]
      rcases le_total (idNumber x.2) (idNumber y.2) with hid | hid
      · exact .inl (.inr ⟨rfl, hid⟩)
      · exact .inr (.inr ⟨rfl, hid⟩)
    · exact .inr (.inl (Int64.lt_iff_toInt_lt.mpr h))

instance : IsTrans (Int64 × RecordId) inventoryOrder where
  trans x y z := by
    unfold inventoryOrder
    rw [Int64.lt_iff_toInt_lt, Int64.lt_iff_toInt_lt, Int64.lt_iff_toInt_lt]
    rintro (hxy | ⟨hxy, hid⟩) (hyz | ⟨hyz, hid'⟩)
    · exact .inl (hxy.trans hyz)
    · exact .inl (hyz ▸ hxy)
    · exact .inl (hxy ▸ hyz)
    · exact .inr ⟨hxy.trans hyz, hid.trans hid'⟩

lemma inventoryOrder_antisymm {x y : Int64 × RecordId} (hxy : inventoryOrder x y)
    (hyx : inventoryOrder y x) : x = y := by
  unfold inventoryOrder at hxy hyx
  rw [Int64.lt_iff_toInt_lt] at hxy hyx
  rcases hxy with hxy | ⟨hxy, hid⟩
  · rcases hyx with hyx | ⟨hyx, -⟩
    · exact absurd hxy (lt_asymm hyx)
    · exact absurd hxy (hyx ▸ lt_irrefl _)
  · rcases hyx with hyx | ⟨-, hid'⟩
    · exact absurd hyx (hxy ▸ lt_irrefl _)
    · exact Prod.ext hxy (idNumber_injective (hid.antisymm hid'))

lemma inventoryRows_sorted :
    (inventoryRows db now).Pairwise fun x y => x.1.toInt ≤ y.1.toInt := by
  refine (List.pairwise_insertionSort inventoryOrder _).imp fun {x y} h => ?_
  rcases h with h | ⟨h, -⟩
  · exact (Int64.lt_iff_toInt_lt.mp h).le
  · rw [h]

lemma mem_inventoryRows {e : Int64 × RecordId} : e ∈ inventoryRows db now ↔
    ∃ r ∈ db.records.rows, Row.active now r = true ∧ (bucketStart r.createdAt, r.recordId) = e := by
  unfold inventoryRows activeRows
  rw [List.mem_insertionSort, List.mem_map]
  simp only [List.mem_filter, and_assoc]

lemma bucketStart_mem {r : Row} (hr : r ∈ db.records.rows) (hactive : Row.active now r = true) :
    bucketStart r.createdAt ∈ starts (inventoryRows db now) :=
  List.mem_toFinset.mpr
    (List.mem_map_of_mem (mem_inventoryRows.mpr ⟨r, hr, hactive, rfl⟩) (f := Prod.fst))

lemma mem_bucketIds {start : Int64} {id : RecordId} : id ∈ bucketIds db now start ↔
    ∃ r ∈ db.records.rows, Row.active now r = true ∧ bucketStart r.createdAt = start ∧
      r.recordId = id := by
  unfold bucketIds idsOf
  simp only [List.mem_map, List.mem_filter, decide_eq_true_eq, mem_inventoryRows]
  constructor
  · rintro ⟨e, ⟨⟨r, hr, ha, rfl⟩, rfl⟩, rfl⟩
    exact ⟨r, hr, ha, rfl, rfl⟩
  · rintro ⟨r, hr, ha, rfl, rfl⟩
    exact ⟨_, ⟨⟨r, hr, ha, rfl⟩, rfl⟩, rfl⟩

lemma inventoryRows_ids : ((inventoryRows db now).map Prod.snd).Nodup := by
  unfold inventoryRows activeRows
  rw [((List.perm_insertionSort _ _).map _).nodup_iff, List.map_map]
  exact db.records.recordId_nodup.sublist (List.filter_sublist.map Row.recordId)

lemma bucketIds_sorted {start : Int64} :
    (bucketIds db now start).Pairwise fun x y => idNumber x < idNumber y := by
  have hnodup : (bucketIds db now start).Nodup :=
    inventoryRows_ids.sublist (List.filter_sublist.map _)
  have hle : (bucketIds db now start).Pairwise fun x y => idNumber x ≤ idNumber y := by
    refine List.pairwise_map.mpr (List.pairwise_filter.mpr ?_)
    refine (List.pairwise_insertionSort inventoryOrder _).imp fun {x y} h hx hy => ?_
    rw [decide_eq_true_eq] at hx hy
    rcases h with hlt | ⟨-, hid⟩
    · rw [hx, hy, Int64.lt_iff_toInt_lt] at hlt
      exact absurd hlt (lt_irrefl _)
    · exact hid
  exact (hle.and hnodup).imp fun {x y} h => lt_of_le_of_ne h.1 fun heq =>
    h.2 (idNumber_injective heq)

lemma length_bucketIds {start : Int64} : (bucketIds db now start).length =
    ((activeRows db now).filter fun r => decide (bucketStart r.createdAt = start)).length := by
  unfold bucketIds idsOf inventoryRows
  rw [List.length_map, ((List.perm_insertionSort _ _).filter _).length_eq, List.filter_map,
    List.length_map]
  rfl

lemma starts_card_steady {now' : Int64} (h : Steady db now now') :
    inventoryRows db now' = inventoryRows db now := by
  unfold inventoryRows activeRows
  rw [List.filter_congr h]

lemma finish_open : (⟨buckets, some c, count, hashed⟩ : InventoryScan).finish K =
    if buckets.length < MAX_BUCKETS then buckets ++ [closeBucket K c count hashed]
    else buckets := rfl

lemma scanRows_same {id : RecordId} :
    scanRows K ⟨buckets, some c, count, hashed⟩ ((c, id) :: rows) =
      scanRows K ⟨buckets, some c, saturatingSucc count, hashed ++ id.1⟩ rows := by
  simp only [scanRows, ne_eq, not_true_eq_false, if_false]

lemma scanRows_next {start : Int64} {id : RecordId} (h : c ≠ start) :
    scanRows K ⟨buckets, some c, count, hashed⟩ ((start, id) :: rows) =
      if (buckets ++ [closeBucket K c count hashed]).length ≥ MAX_BUCKETS then
        ⟨buckets ++ [closeBucket K c count hashed], some c, count, hashed⟩
      else
        scanRows K ⟨buckets ++ [closeBucket K c count hashed], some start, saturatingSucc 0, id.1⟩
          rows := by
  simp only [scanRows, if_pos h]

lemma starts_cons (e : Int64 × RecordId) : starts (e :: rows) = insert e.1 (starts rows) :=
  List.toFinset_cons

lemma idsOf_cons_self {id : RecordId} : idsOf c ((c, id) :: rows) = id :: idsOf c rows := by
  simp [idsOf]

lemma idsOf_cons_ne {start : Int64} {id : RecordId} (h : start ≠ c) :
    idsOf c ((start, id) :: rows) = idsOf c rows := by
  simp [idsOf, h]

lemma idsOf_nil_of_later (h : ∀ e ∈ rows, c.toInt < e.1.toInt) : idsOf c rows = [] := by
  unfold idsOf
  rw [List.map_eq_nil_iff, List.filter_eq_nil_iff]
  intro e he heq
  rw [decide_eq_true_eq] at heq
  exact lt_irrefl _ (heq ▸ h e he)

/-- Rows from the open bucket on: a new start lies after it, and so does what follows. -/
lemma later_of_ne {start : Int64} {id : RecordId}
    (hsorted : ((start, id) :: rows).Pairwise fun x y => x.1.toInt ≤ y.1.toInt)
    (hc : ∀ e ∈ (start, id) :: rows, c.toInt ≤ e.1.toInt) (hne : c ≠ start) :
    ∀ e ∈ (start, id) :: rows, c.toInt < e.1.toInt := by
  have hlt : c.toInt < start.toInt :=
    lt_of_le_of_ne (hc _ List.mem_cons_self) fun h => hne (Int64.toInt_inj.mp h)
  intro e he
  rcases List.mem_cons.mp he with rfl | he
  · exact hlt
  · exact hlt.trans_le ((List.pairwise_cons.mp hsorted).1 e he)

def counted (count : UInt32) (n : ℕ) : UInt32 := saturatingSucc^[n] count

lemma counted_toNat {n : ℕ} : (counted count n).toNat = min (count.toNat + n) (2 ^ 32 - 1) := by
  have hlt := count.toNat_lt
  unfold counted
  induction n with
  | zero =>
    rw [Function.iterate_zero, id]
    omega
  | succ n ih =>
    rw [Function.iterate_succ_apply', saturatingSucc, ih]
    split_ifs with h
    · rw [UInt32.toNat_add, ih, UInt32.toNat_one]
      omega
    · rw [ih]
      omega

/-- What a closed bucket may say: the open bucket with what was hashed so far, or a later one. -/
lemma scan_buckets (hsorted : rows.Pairwise fun x y => x.1.toInt ≤ y.1.toInt)
    (hc : ∀ e ∈ rows, c.toInt ≤ e.1.toInt) {d : BucketDigest}
    (hd : d ∈ (scanRows K ⟨buckets, some c, count, hashed⟩ rows).finish K) :
    d ∈ buckets ∨
      d = closeBucket K c (counted count (idsOf c rows).length)
        (hashed ++ idBytes (idsOf c rows)) ∨
      d.startUnix ≠ c ∧ d.startUnix ∈ starts rows ∧
        d = closeBucket K d.startUnix (counted 0 (idsOf d.startUnix rows).length)
          (idBytes (idsOf d.startUnix rows)) := by
  induction rows generalizing buckets c count hashed with
  | nil =>
    rw [scanRows, finish_open] at hd
    split_ifs at hd
    · rcases List.mem_append.mp hd with hd | hd
      · exact .inl hd
      · obtain rfl := List.mem_singleton.mp hd
        exact .inr (.inl (by simp [counted, idsOf, idBytes]))
    · exact .inl hd
  | cons e rows ih =>
    obtain ⟨start, id⟩ := e
    have htail := (List.pairwise_cons.mp hsorted).2
    by_cases hne : c ≠ start
    · have hlater := later_of_ne hsorted hc hne
      have hnil : idsOf c ((start, id) :: rows) = [] := idsOf_nil_of_later hlater
      have hclosed : d ∈ buckets ++ [closeBucket K c count hashed] → d ∈ buckets ∨
          d = closeBucket K c (counted count (idsOf c ((start, id) :: rows)).length)
            (hashed ++ idBytes (idsOf c ((start, id) :: rows))) := by
        intro h
        rcases List.mem_append.mp h with h | h
        · exact .inl h
        · obtain rfl := List.mem_singleton.mp h
          exact .inr (by simp [hnil, idBytes, counted])
      rw [scanRows_next hne] at hd
      split_ifs at hd with hfull
      · rw [finish_open, if_neg (not_lt.mpr hfull)] at hd
        exact (hclosed hd).imp_right .inl
      · rcases ih htail (fun e he => (List.pairwise_cons.mp hsorted).1 e he) hd with
          h | h | ⟨hs, hmem, h⟩
        · exact (hclosed h).imp_right .inl
        · have hs : d.startUnix = start := congrArg BucketDigest.startUnix h
          refine .inr (.inr ⟨fun heq => hne (heq.symm.trans hs), ?_, ?_⟩)
          · rw [starts_cons, hs]
            exact Finset.mem_insert_self _ _
          · rw [hs, idsOf_cons_self]
            exact h
        · refine .inr (.inr ⟨fun heq => ?_, ?_, ?_⟩)
          · obtain ⟨e, he, hes⟩ := List.mem_map.mp (List.mem_toFinset.mp hmem)
            have hlt := hlater e (List.mem_cons_of_mem _ he)
            rw [hes, heq] at hlt
            exact lt_irrefl _ hlt
          · rw [starts_cons]
            exact Finset.mem_insert_of_mem hmem
          · rw [idsOf_cons_ne (Ne.symm hs)]
            exact h
    · obtain rfl := not_not.mp hne
      rw [scanRows_same] at hd
      rcases ih htail (fun e he => hc e (List.mem_cons_of_mem _ he)) hd with
        h | h | ⟨hs, hmem, h⟩
      · exact .inl h
      · refine .inr (.inl ?_)
        rw [h, idsOf_cons_self, List.append_assoc]
        rfl
      · refine .inr (.inr ⟨hs, ?_, ?_⟩)
        · rw [starts_cons]
          exact Finset.mem_insert_of_mem hmem
        · rw [idsOf_cons_ne (Ne.symm hs)]
          exact h

lemma inventory_scan : inventoryRows db now = [] ∧ (inventory K db now).bucketDigests = [] ∨
    ∃ start id rows, inventoryRows db now = (start, id) :: rows ∧
      (∀ e ∈ rows, start.toInt ≤ e.1.toInt) ∧
      (rows.Pairwise fun x y => x.1.toInt ≤ y.1.toInt) ∧
      (inventory K db now).bucketDigests =
        (scanRows K ⟨[], some start, saturatingSucc 0, id.1⟩ rows).finish K := by
  have hsorted := @inventoryRows_sorted db now
  have hscan : (inventory K db now).bucketDigests =
      (scanRows K ⟨[], none, 0, []⟩ (inventoryRows db now)).finish K := rfl
  rw [hscan]
  rcases hrows : inventoryRows db now with _ | ⟨⟨start, id⟩, rows⟩
  · exact .inl ⟨rfl, rfl⟩
  · rw [hrows] at hsorted
    obtain ⟨hhead, htail⟩ := List.pairwise_cons.mp hsorted
    exact .inr ⟨start, id, rows, rfl, hhead, htail, rfl⟩

lemma inventory_bucket {d : BucketDigest} (hd : d ∈ (inventory K db now).bucketDigests) :
    d = closeBucket K d.startUnix (counted 0 (bucketIds db now d.startUnix).length)
      (idBytes (bucketIds db now d.startUnix)) := by
  unfold bucketIds
  rcases @inventory_scan K db now with ⟨-, hnone⟩ | ⟨start, id, rows, hrows, hhead, htail, hscan⟩
  · simp [hnone] at hd
  · rw [hscan] at hd
    rw [hrows]
    rcases scan_buckets htail hhead hd with h | h | ⟨hs, -, h⟩
    · simp at h
    · have hs : d.startUnix = start := congrArg BucketDigest.startUnix h
      rw [hs, idsOf_cons_self]
      exact h
    · rw [idsOf_cons_ne (Ne.symm hs)]
      exact h

lemma inventory_digest {d : BucketDigest} (hd : d ∈ (inventory K db now).bucketDigests) :
    d.digest = K.blake3 (idBytes (bucketIds db now d.startUnix)) :=
  congrArg BucketDigest.digest (inventory_bucket hd)

lemma inventory_start {d : BucketDigest} (hd : d ∈ (inventory K db now).bucketDigests) :
    d.startUnix ∈ starts (inventoryRows db now) := by
  rcases @inventory_scan K db now with ⟨-, hnone⟩ | ⟨start, id, rows, hrows, hhead, htail, hscan⟩
  · simp [hnone] at hd
  · rw [hscan] at hd
    rw [hrows, starts_cons]
    rcases scan_buckets htail hhead hd with h | h | ⟨-, hmem, -⟩
    · simp at h
    · exact Finset.mem_insert.mpr (.inl (congrArg BucketDigest.startUnix h))
    · exact Finset.mem_insert_of_mem hmem

/-- With few enough starts left, every bucket is closed. -/
lemma scan_covers (hsorted : rows.Pairwise fun x y => x.1.toInt ≤ y.1.toInt)
    (hc : ∀ e ∈ rows, c.toInt ≤ e.1.toInt)
    (hfew : buckets.length + 1 + ((starts rows).erase c).card ≤ MAX_BUCKETS) {start : Int64}
    (hstart : start ∈ buckets.map BucketDigest.startUnix ∨ start = c ∨ start ∈ starts rows) :
    start ∈ ((scanRows K ⟨buckets, some c, count, hashed⟩ rows).finish K).map
      BucketDigest.startUnix := by
  induction rows generalizing buckets c count hashed with
  | nil =>
    have hroom : buckets.length < MAX_BUCKETS := by omega
    rw [scanRows, finish_open, if_pos hroom, List.map_append, List.mem_append]
    rcases hstart with h | rfl | h
    · exact .inl h
    · exact .inr (by simp [closeBucket])
    · simp [starts] at h
  | cons e rows ih =>
    obtain ⟨next, id⟩ := e
    obtain ⟨hhead, htail⟩ := List.pairwise_cons.mp hsorted
    rw [starts_cons, Finset.mem_insert] at hstart
    by_cases hne : c ≠ next
    · have hlater := later_of_ne hsorted hc hne
      have hnot : c ∉ starts rows := by
        intro h
        obtain ⟨e, he, hes⟩ := List.mem_map.mp (List.mem_toFinset.mp h)
        have hlt := hlater e (List.mem_cons_of_mem _ he)
        rw [hes] at hlt
        exact lt_irrefl _ hlt
      have hcard : ((starts ((next, id) :: rows)).erase c).card =
          ((starts rows).erase next).card + 1 := by
        rw [starts_cons, Finset.erase_eq_of_notMem (by simp [hne, hnot]),
          ← Finset.insert_erase (Finset.mem_insert_self next (starts rows)),
          Finset.card_insert_of_notMem (Finset.notMem_erase _ _), Finset.erase_insert_eq_erase]
      have hroom : ¬ (buckets ++ [closeBucket K c count hashed]).length ≥ MAX_BUCKETS := by
        rw [List.length_append, List.length_singleton]
        omega
      rw [scanRows_next hne, if_neg hroom]
      refine ih htail hhead ?_ ?_
      · rw [List.length_append, List.length_singleton]
        omega
      · rcases hstart with h | rfl | rfl | h
        · exact .inl (by simp [h])
        · exact .inl (by simp [closeBucket])
        · exact .inr (.inl rfl)
        · exact .inr (.inr h)
    · obtain rfl := not_not.mp hne
      rw [scanRows_same]
      refine ih htail (fun e he => hc e (List.mem_cons_of_mem _ he)) ?_ ?_
      · have hsub : (starts rows).erase c ⊆ (starts ((c, id) :: rows)).erase c := by
          rw [starts_cons]
          exact Finset.erase_subset_erase c (Finset.subset_insert _ _)
        have hle := Finset.card_le_card hsub
        omega
      · rcases hstart with h | rfl | rfl | h
        · exact .inl h
        · exact .inr (.inl rfl)
        · exact .inr (.inl rfl)
        · exact .inr (.inr h)

lemma inventory_covers (hfew : (starts (inventoryRows db now)).card ≤ MAX_BUCKETS) {r : Row}
    (hr : r ∈ db.records.rows) (hactive : Row.active now r = true) :
    ∃ d ∈ (inventory K db now).bucketDigests, d.startUnix = bucketStart r.createdAt := by
  have hmem : (bucketStart r.createdAt, r.recordId) ∈ inventoryRows db now :=
    mem_inventoryRows.mpr ⟨r, hr, hactive, rfl⟩
  rcases @inventory_scan K db now with ⟨hnone, -⟩ | ⟨start, id, rows, hrows, hhead, htail, hscan⟩
  · simp [hnone] at hmem
  · rw [hrows] at hmem hfew
    refine List.mem_map.mp ?_
    rw [hscan]
    refine scan_covers htail hhead ?_ ?_
    · rw [starts_cons, ← Finset.insert_erase (Finset.mem_insert_self start (starts rows)),
        Finset.erase_insert_eq_erase, Finset.card_insert_of_notMem (Finset.notMem_erase _ _)]
        at hfew
      rw [List.length_nil, Nat.zero_add, Nat.add_comm]
      exact hfew
    · rcases List.mem_cons.mp hmem with heq | hmem
      · exact .inr (.inl (Prod.mk.inj heq).1)
      · exact .inr (.inr (List.mem_toFinset.mpr (List.mem_map_of_mem hmem)))

lemma scan_length (h : buckets.length < MAX_BUCKETS) :
    ((scanRows K ⟨buckets, some c, count, hashed⟩ rows).finish K).length ≤ MAX_BUCKETS := by
  induction rows generalizing buckets c count hashed with
  | nil =>
    rw [scanRows, finish_open, if_pos h, List.length_append, List.length_singleton]
    omega
  | cons e rows ih =>
    obtain ⟨start, id⟩ := e
    by_cases hne : c ≠ start
    · rw [scanRows_next hne]
      split_ifs with hfull
      · rw [finish_open, if_neg (not_lt.mpr hfull), List.length_append, List.length_singleton]
        omega
      · exact ih (not_le.mp hfull)
    · obtain rfl := not_not.mp hne
      rw [scanRows_same]
      exact ih h

lemma inventory_length : (inventory K db now).bucketDigests.length ≤ MAX_BUCKETS := by
  rcases @inventory_scan K db now with ⟨-, hnone⟩ | ⟨start, id, rows, -, -, -, hscan⟩
  · simp [hnone]
  · rw [hscan]
    exact scan_length (by decide)

lemma scan_increasing (hsorted : rows.Pairwise fun x y => x.1.toInt ≤ y.1.toInt)
    (hc : ∀ e ∈ rows, c.toInt ≤ e.1.toInt)
    (hbuckets : buckets.Pairwise fun x y => x.startUnix.toInt < y.startUnix.toInt)
    (hbefore : ∀ d ∈ buckets, d.startUnix.toInt < c.toInt) :
    ((scanRows K ⟨buckets, some c, count, hashed⟩ rows).finish K).Pairwise
      fun x y => x.startUnix.toInt < y.startUnix.toInt := by
  have hclosed : ∀ (c : Int64) (count : UInt32) (hashed : Bytes) (buckets : List BucketDigest),
      buckets.Pairwise (fun x y => x.startUnix.toInt < y.startUnix.toInt) →
      (∀ d ∈ buckets, d.startUnix.toInt < c.toInt) →
        (buckets ++ [closeBucket K c count hashed]).Pairwise
          fun x y => x.startUnix.toInt < y.startUnix.toInt := by
    intro c count hashed buckets hp hlt
    refine List.pairwise_append.mpr ⟨hp, List.pairwise_singleton _ _, fun x hx y hy => ?_⟩
    rw [List.mem_singleton.mp hy]
    exact hlt x hx
  induction rows generalizing buckets c count hashed with
  | nil =>
    rw [scanRows, finish_open]
    split_ifs
    · exact hclosed c count hashed buckets hbuckets hbefore
    · exact hbuckets
  | cons e rows ih =>
    obtain ⟨start, id⟩ := e
    obtain ⟨hhead, htail⟩ := List.pairwise_cons.mp hsorted
    by_cases hne : c ≠ start
    · have hlater : c.toInt < start.toInt := later_of_ne hsorted hc hne _ List.mem_cons_self
      rw [scanRows_next hne]
      split_ifs with hfull
      · rw [finish_open, if_neg (not_lt.mpr hfull)]
        exact hclosed c count hashed buckets hbuckets hbefore
      · refine ih htail hhead (hclosed c count hashed buckets hbuckets hbefore) fun d hd => ?_
        rcases List.mem_append.mp hd with hd | hd
        · exact (hbefore d hd).trans hlater
        · rw [List.mem_singleton.mp hd]
          exact hlater
    · obtain rfl := not_not.mp hne
      rw [scanRows_same]
      exact ih htail (fun e he => hc e (List.mem_cons_of_mem _ he)) hbuckets hbefore

lemma inventory_increasing : (inventory K db now).bucketDigests.Pairwise
    fun x y => x.startUnix.toInt < y.startUnix.toInt := by
  rcases @inventory_scan K db now with ⟨-, hnone⟩ | ⟨start, id, rows, -, hhead, htail, hscan⟩
  · simp [hnone]
  · rw [hscan]
    exact scan_increasing htail hhead .nil nofun

lemma inventory_nodup :
    ((inventory K db now).bucketDigests.map BucketDigest.startUnix).Nodup := by
  refine List.pairwise_map.mpr (inventory_increasing.imp fun {x y} hlt heq => ?_)
  rw [heq] at hlt
  exact lt_irrefl _ hlt

/-- The buckets that an honest inventory makes differ are distinct and not too many. -/
lemma differing_bounds {here : InventorySummary} :
    (differingBuckets here (inventory K db now)).Nodup ∧
      (differingBuckets here (inventory K db now)).length ≤ MAX_BUCKETS := by
  constructor
  · exact inventory_nodup.sublist (List.filter_sublist.map _)
  · unfold differingBuckets
    rw [List.length_map]
    exact (List.length_filter_le _ _).trans inventory_length

/-- The bucket of a remote row that the local store lacks is asked for, as far as the hash tells
the two id lists apart. -/
lemma differs_of_lacking {localDb remote : SignatureDatabase} {there here : Int64} {r : Row}
    (hfew : (starts (inventoryRows remote there)).card ≤ MAX_BUCKETS)
    (hr : r ∈ remote.records.rows) (hactive : Row.active there r = true)
    (hcf : CollisionFree K {idBytes (bucketIds remote there (bucketStart r.createdAt)),
      idBytes (bucketIds localDb here (bucketStart r.createdAt))})
    (hlack : r.recordId ∉ localDb.records.rows.map Row.recordId) :
    bucketStart r.createdAt ∈
      differingBuckets (inventory K localDb here) (inventory K remote there) := by
  obtain ⟨d, hd, hstart⟩ := @inventory_covers K remote there hfew r hr hactive
  rw [← hstart] at hcf ⊢
  refine mem_differingBuckets hd fun d' hd' hsame heq => hlack ?_
  rw [inventory_digest hd, inventory_digest hd', hsame] at heq
  have hids := idBytes_injective (hcf (by simp) (by simp) heq)
  have hmem : r.recordId ∈ bucketIds remote there d.startUnix :=
    mem_bucketIds.mpr ⟨r, hr, hactive, hstart.symm, rfl⟩
  rw [← hids] at hmem
  obtain ⟨s, hs, -, -, hid⟩ := mem_bucketIds.mp hmem
  exact List.mem_map.mpr ⟨s, hs, hid⟩

end Protonet.InventoryDigests
