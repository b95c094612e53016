import Protonet.Metering
import Protonet.RateLimit

namespace Protonet.BucketTables
open Lru RateLimit Metering Rounding

variable {κ : Type*} [DecidableEq κ] {table table' : LruCache κ Bucket} {capacity amount t t' : ℕ}
  {k k' : κ} {b : Bucket} {S : Finset κ}

def bucketOf (table : LruCache κ Bucket) (capacity : ℕ) (k : κ) (t : ℕ) : Bucket :=
  (table.peek k).getD (.new exact capacity (60 * second) t)

def level (table : LruCache κ Bucket) (capacity : ℕ) (k : κ) (t : ℕ) : ℚ :=
  (bucketOf table capacity k t).refilled exact t

def charge (table : LruCache κ Bucket) (capacity : ℕ) (k : κ) (t : ℕ) : LruCache κ Bucket :=
  table.put k ((bucketOf table capacity k t).take exact 1 t).2

/-- What a bucket takes in within a nanosecond. -/
def rate (capacity : ℕ) : ℚ := capacity / (60 * second : ℕ)

/-- A bucket of the capacity that was read no later than the instant. -/
structure Filled (capacity t : ℕ) (b : Bucket) : Prop where
  size : b.capacity = capacity
  refill : b.refillPerSecond = capacity / (((60 * second : ℕ) : ℚ) / second)
  nonneg : 0 ≤ b.tokens
  le_size : b.tokens ≤ capacity
  updated : b.updated ≤ t

/-- The table holds keys of the set only, which it has room for, with buckets of the capacity. -/
structure Kept (S : Finset κ) (capacity t : ℕ) (table : LruCache κ Bucket) : Prop where
  room : S.card ≤ table.cap
  keys : ∀ k ∈ table.keys, k ∈ S
  filled : ∀ k b, table.peek k = some b → Filled capacity t b

lemma rate_nonneg : 0 ≤ rate capacity := div_nonneg (Nat.cast_nonneg _) (Nat.cast_nonneg _)

lemma filled_new : Filled capacity t (.new exact capacity (60 * second) t) where
  size := congrArg Bucket.capacity (Bucket.new_exact ..)
  refill := congrArg Bucket.refillPerSecond (Bucket.new_exact ..)
  nonneg := by
    rw [Bucket.new_exact]
    exact Nat.cast_nonneg _
  le_size := by rw [Bucket.new_exact]
  updated := le_rfl

lemma Filled.later (h : Filled capacity t b) (hle : t ≤ t') : Filled capacity t' b :=
  ⟨h.size, h.refill, h.nonneg, h.le_size, h.updated.trans hle⟩

lemma Filled.refilled (h : Filled capacity t b) :
    b.refilled exact t' = flow (capacity : ℚ) (rate capacity) b.tokens (t' - b.updated) := by
  have hsecond : (second : ℚ) ≠ 0 := by decide
  unfold flow rate
  rw [Bucket.refilled_exact, h.size, h.refill]
  congr 2
  push_cast
  field_simp

lemma Filled.refilled_nonneg (h : Filled capacity t b) : 0 ≤ b.refilled exact t' := by
  rw [h.refilled]
  exact flow_nonneg (Nat.cast_nonneg _) rate_nonneg h.nonneg

lemma Filled.refilled_later (h : Filled capacity t b) (hle : t ≤ t') :
    b.refilled exact t' = flow (capacity : ℚ) (rate capacity) (b.refilled exact t) (t' - t) := by
  have hupdated := h.updated
  have htime : t - b.updated + (t' - t) = t' - b.updated := by omega
  rw [h.refilled, h.refilled, flow_flow rate_nonneg, htime]

lemma take_snd : (b.take exact 1 t).2 =
    { b with tokens := b.refilled exact t - if b.refilled exact t < 1 then 0 else 1, updated := t } := by
  rw [Bucket.take_exact, Nat.cast_one]
  split_ifs
  · rw [sub_zero]
  · rfl

lemma Filled.refilled_le (h : Filled capacity t b) : b.refilled exact t' ≤ capacity := by
  rw [h.refilled]
  exact min_le_right ..

lemma Filled.take (h : Filled capacity t' b) : Filled capacity t (b.take exact 1 t).2 := by
  have hnonneg : 0 ≤ b.refilled exact t := h.refilled_nonneg
  have hle : b.refilled exact t ≤ capacity := h.refilled_le
  rw [take_snd]
  refine ⟨h.size, h.refill, ?_, ?_, le_rfl⟩
  · dsimp only
    split_ifs with hdry
    · rwa [sub_zero]
    · exact sub_nonneg.mpr (not_lt.mp hdry)
  · dsimp only
    split_ifs
    · rwa [sub_zero]
    · linarith

lemma kept_new {cap : ℕ} (hcap : 0 < cap) (hroom : S.card ≤ cap) :
    Kept S capacity t (LruCache.new cap hcap : LruCache κ Bucket) where
  room := hroom
  keys := nofun
  filled k b hb := by
    rw [LruCache.peek_new] at hb
    cases hb

lemma Kept.later (h : Kept S capacity t table) (hle : t ≤ t') : Kept S capacity t' table :=
  ⟨h.room, h.keys, fun k b hb => (h.filled k b hb).later hle⟩

lemma Kept.bucketOf (h : Kept S capacity t table) (hle : t ≤ t') :
    Filled capacity t' (bucketOf table capacity k t') := by
  unfold BucketTables.bucketOf
  rcases hpeek : table.peek k with _ | b
  · exact filled_new
  · exact (h.filled k b hpeek).later hle

lemma Kept.level_nonneg (h : Kept S capacity t table) (hle : t ≤ t') :
    0 ≤ level table capacity k t' := (h.bucketOf hle).refilled_nonneg

lemma Kept.level_later (h : Kept S capacity t table) {t₁ t₂ : ℕ} (ht₁ : t ≤ t₁) (ht₂ : t₁ ≤ t₂) :
    level table capacity k t₂ =
      flow (capacity : ℚ) (rate capacity) (level table capacity k t₁) (t₂ - t₁) := by
  unfold level BucketTables.bucketOf
  rcases hpeek : table.peek k with _ | b
  · rw [Option.getD_none, Option.getD_none, filled_new.refilled, filled_new.refilled,
      flow_flow rate_nonneg]
    have hfull : ∀ n, flow (capacity : ℚ) (rate capacity) (capacity : ℚ) n = capacity := fun n =>
      min_eq_right (le_add_of_nonneg_right (mul_nonneg (Nat.cast_nonneg _) rate_nonneg))
    exact (hfull _).trans (hfull _).symm
  · exact ((h.filled k b hpeek).later ht₁).refilled_later ht₂

lemma peek_charge_self :
    (charge table capacity k t).peek k = some ((bucketOf table capacity k t).take exact 1 t).2 :=
  LruCache.peek_put_self ..

lemma Kept.peek_charge_ne (h : Kept S capacity t table) (hk : k ∈ S) (hne : k' ≠ k) :
    (charge table capacity k t').peek k' = table.peek k' :=
  LruCache.peek_put_of_room (LruCache.room_of_keys_subset h.keys hk h.room) hne

lemma Kept.charge (h : Kept S capacity t table) (hk : k ∈ S) (hle : t ≤ t') :
    Kept S capacity t' (charge table capacity k t') where
  room := h.room
  keys k' hk' := by
    by_cases heq : k' = k
    · exact heq ▸ hk
    · have hother : (BucketTables.charge table capacity k t').peek k' = table.peek k' :=
        h.peek_charge_ne hk heq
      refine h.keys k' (LruCache.mem_keys.mpr ?_)
      rw [← hother]
      exact LruCache.mem_keys.mp hk'
  filled k' b hb := by
    by_cases heq : k' = k
    · rw [heq, peek_charge_self] at hb
      obtain rfl := Option.some.inj hb
      exact (h.bucketOf hle).take
    · rw [h.peek_charge_ne hk heq] at hb
      exact (h.filled k' b hb).later hle

lemma Kept.level_charge (h : Kept S capacity t table) (hle : t ≤ t') :
    level (BucketTables.charge table capacity k t') capacity k t' =
      level table capacity k t' - if level table capacity k t' < 1 then 0 else 1 := by
  have hfilled : Filled capacity t' ((BucketTables.bucketOf table capacity k t').take exact 1 t').2 :=
    (h.bucketOf hle).take
  have hbucket : BucketTables.bucketOf (BucketTables.charge table capacity k t') capacity k t' =
      ((BucketTables.bucketOf table capacity k t').take exact 1 t').2 := by
    unfold BucketTables.bucketOf
    rw [peek_charge_self, Option.getD_some]
    rfl
  have hle : ((BucketTables.bucketOf table capacity k t').take exact 1 t').2.tokens ≤ capacity :=
    hfilled.le_size
  unfold level
  rw [hbucket, hfilled.refilled]
  rw [take_snd] at hle ⊢
  dsimp only at hle ⊢
  rw [Nat.sub_self, flow_zero hle]

lemma level_congr (h : table.peek k = table'.peek k) :
    level table capacity k t = level table' capacity k t := by
  unfold level BucketTables.bucketOf
  rw [h]

lemma Kept.peek_charge_congr (h : Kept S capacity t table) (h' : Kept S capacity t table')
    (hle : t ≤ t') (hlevel : level table capacity k t' = level table' capacity k t') :
    (BucketTables.charge table capacity k t').peek k =
      (BucketTables.charge table' capacity k t').peek k := by
  have hfilled := h.bucketOf (k := k) hle
  have hfilled' := h'.bucketOf (k := k) hle
  unfold level at hlevel
  rw [peek_charge_self, peek_charge_self, take_snd, take_snd, hlevel, Option.some.injEq,
    Bucket.mk.injEq]
  exact ⟨rfl, hfilled.size.trans hfilled'.size.symm, hfilled.refill.trans hfilled'.refill.symm, rfl⟩

/-- Charged alike, two tables go on agreeing where they agreed. -/
lemma Kept.peek_charge_both (h : Kept S capacity t table) (h' : Kept S capacity t table')
    (hk : k ∈ S) (hle : t ≤ t') (hsame : table.peek k' = table'.peek k') :
    (BucketTables.charge table capacity k t').peek k' =
      (BucketTables.charge table' capacity k t').peek k' := by
  by_cases heq : k' = k
  · subst heq
    exact h.peek_charge_congr h' hle (level_congr hsame)
  · rw [h.peek_charge_ne hk heq, h'.peek_charge_ne hk heq, hsame]

end Protonet.BucketTables
