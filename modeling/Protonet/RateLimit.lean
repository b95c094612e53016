import Protonet.Address
import Protonet.Lru
import Protonet.Rounding

/-!
# Rate limits

Token buckets for each peer and for each source address and prefix. Token counts are doubles, whose
arithmetic rounds each exact result; instants and periods are nanoseconds.
-/
namespace Protonet.RateLimit
open Lru Record Address Rounding

def second : ℕ := 1000000000

def MAX_TRACKED_RATE_PEERS : ℕ := 10000
def GOSSIP_RECORDS_PER_MINUTE : ℕ := 120
def GOSSIP_BYTES_PER_MINUTE : ℕ := 2 * 1024 * 1024
def SYNC_REQUESTS_PER_MINUTE : ℕ := 30
def SYNC_RESPONSE_BYTES_PER_HOUR : ℕ := 32 * 1024 * 1024
def INVALID_MESSAGES_PER_MINUTE : ℕ := 10
def INGESTION_RECORDS_PER_IP_PER_MINUTE : ℕ := 60
def INGESTION_RECORDS_PER_PREFIX_PER_MINUTE : ℕ := 600

structure Bucket where
  tokens : ℚ
  capacity : ℚ
  refillPerSecond : ℚ
  updated : ℕ

/-- The seconds of a duration, `as_secs_f64`. -/
def seconds (r : Arithmetic) (duration : ℕ) : ℚ :=
  r.round (r.round (duration / second : ℕ) +
    r.round (r.round (duration % second : ℕ) / r.round second))

def Bucket.new (r : Arithmetic) (capacity period now : ℕ) : Bucket where
  tokens := r.round capacity
  capacity := r.round capacity
  refillPerSecond := r.round (r.round capacity / seconds r period)
  updated := now

/-- The tokens at an instant, before anything is taken. -/
def Bucket.refilled (r : Arithmetic) (b : Bucket) (now : ℕ) : ℚ :=
  min (r.round (b.tokens + r.round (seconds r (now - b.updated) * b.refillPerSecond))) b.capacity

def Bucket.take (r : Arithmetic) (b : Bucket) (amount now : ℕ) : Bool × Bucket :=
  let tokens := b.refilled r now
  if tokens < r.round amount then (false, { b with tokens, updated := now })
  else (true, { b with tokens := r.round (tokens - r.round amount), updated := now })

structure PeerBuckets where
  gossipRecords : Bucket
  gossipBytes : Bucket
  syncRequests : Bucket
  syncResponseBytes : Bucket
  invalid : Bucket

def PeerBuckets.new (r : Arithmetic) (now : ℕ) : PeerBuckets where
  gossipRecords := .new r GOSSIP_RECORDS_PER_MINUTE (60 * second) now
  gossipBytes := .new r GOSSIP_BYTES_PER_MINUTE (60 * second) now
  syncRequests := .new r SYNC_REQUESTS_PER_MINUTE (60 * second) now
  syncResponseBytes := .new r SYNC_RESPONSE_BYTES_PER_HOUR (60 * 60 * second) now
  invalid := .new r INVALID_MESSAGES_PER_MINUTE (60 * second) now

/-- The arithmetic is that of the program, or the exact one it stands for. -/
structure RateLimiter where
  arithmetic : Arithmetic
  peers : LruCache PeerId PeerBuckets
  ingestionIps : LruCache IpAddr Bucket
  ingestionPrefixes : LruCache Prefix Bucket

def RateLimiter.new (arithmetic : Arithmetic) : RateLimiter :=
  ⟨arithmetic, .new MAX_TRACKED_RATE_PEERS (by decide), .new MAX_TRACKED_RATE_PEERS (by decide),
    .new MAX_TRACKED_RATE_PEERS (by decide)⟩

def RateLimiter.default : RateLimiter := .new float64

/-- The limiter without rounding. -/
def RateLimiter.exact : RateLimiter := .new Rounding.exact

def RateLimiter.peer (l : RateLimiter) (peer : PeerId) (now : ℕ) : PeerBuckets :=
  (l.peers.peek peer).getD (.new l.arithmetic now)

def RateLimiter.setPeer (l : RateLimiter) (peer : PeerId) (buckets : PeerBuckets) : RateLimiter :=
  { l with peers := l.peers.put peer buckets }

/-- The second bucket is only asked when the first one grants. -/
def RateLimiter.allowGossip (l : RateLimiter) (peer : PeerId) (bytes now : ℕ) :
    Bool × RateLimiter :=
  let buckets := l.peer peer now
  match buckets.gossipRecords.take l.arithmetic 1 now with
  | (false, gossipRecords) => (false, l.setPeer peer { buckets with gossipRecords })
  | (true, gossipRecords) =>
    let (granted, gossipBytes) := buckets.gossipBytes.take l.arithmetic bytes now
    (granted, l.setPeer peer { buckets with gossipRecords, gossipBytes })

def RateLimiter.allowSyncRequest (l : RateLimiter) (peer : PeerId) (now : ℕ) :
    Bool × RateLimiter :=
  let buckets := l.peer peer now
  let (granted, syncRequests) := buckets.syncRequests.take l.arithmetic 1 now
  (granted, l.setPeer peer { buckets with syncRequests })

def RateLimiter.allowSyncResponse (l : RateLimiter) (peer : PeerId) (bytes now : ℕ) :
    Bool × RateLimiter :=
  let buckets := l.peer peer now
  let (granted, syncResponseBytes) := buckets.syncResponseBytes.take l.arithmetic bytes now
  (granted, l.setPeer peer { buckets with syncResponseBytes })

def RateLimiter.noteInvalid (l : RateLimiter) (peer : PeerId) (now : ℕ) : Bool × RateLimiter :=
  let buckets := l.peer peer now
  let (granted, invalid) := buckets.invalid.take l.arithmetic 1 now
  (granted, l.setPeer peer { buckets with invalid })

def RateLimiter.ipBucket (l : RateLimiter) (ip : IpAddr) (now : ℕ) : Bucket :=
  (l.ingestionIps.peek ip).getD
    (.new l.arithmetic INGESTION_RECORDS_PER_IP_PER_MINUTE (60 * second) now)

def RateLimiter.prefixBucket (l : RateLimiter) (p : Prefix) (now : ℕ) : Bucket :=
  (l.ingestionPrefixes.peek p).getD
    (.new l.arithmetic INGESTION_RECORDS_PER_PREFIX_PER_MINUTE (60 * second) now)

/-- Both buckets are charged, whatever the first one answers. -/
def RateLimiter.allowIngestionSource (l : RateLimiter) (ip : IpAddr) (p : Prefix) (now : ℕ) :
    Bool × RateLimiter :=
  let (ipAllowed, ipBucket) := (l.ipBucket ip now).take l.arithmetic 1 now
  let (prefixAllowed, prefixBucket) := (l.prefixBucket p now).take l.arithmetic 1 now
  (ipAllowed && prefixAllowed,
    { l with
      ingestionIps := l.ingestionIps.put ip ipBucket
      ingestionPrefixes := l.ingestionPrefixes.put p prefixBucket })

lemma Bucket.take_fst (r : Arithmetic) (b : Bucket) (amount now : ℕ) :
    (b.take r amount now).1 = true ↔ r.round amount ≤ b.refilled r now := by
  unfold Bucket.take
  by_cases h : b.refilled r now < r.round amount
  · simp [h]
  · simp only [h, if_false, true_iff]
    exact not_lt.mp h

/-- Of the tokens that come in over two seconds, the doubles lose a little. -/
example :
    ((Bucket.take float64 ⟨0, 60, 1, 0⟩ 1 1400000000).2.take float64 1 2000000000).1 = false ∧
      ((Bucket.take exact ⟨0, 60, 1, 0⟩ 1 1400000000).2.take exact 1 2000000000).1 = true := by
  decide +kernel

lemma RateLimiter.allowIngestionSource_fst (l : RateLimiter) (ip : IpAddr) (p : Prefix)
    (now : ℕ) : (l.allowIngestionSource ip p now).1 = true ↔
      1 ≤ (l.ipBucket ip now).refilled l.arithmetic now ∧
        1 ≤ (l.prefixBucket p now).refilled l.arithmetic now := by
  have hip := (l.ipBucket ip now).take_fst l.arithmetic 1 now
  have hp := (l.prefixBucket p now).take_fst l.arithmetic 1 now
  rw [Nat.cast_one, Arithmetic.round_one] at hip hp
  rw [← hip, ← hp]
  exact Bool.and_eq_true_iff

lemma seconds_exact (duration : ℕ) : seconds exact duration = duration / second := by
  have hsecond : (second : ℚ) ≠ 0 := by decide
  unfold seconds
  simp only [exact_round]
  rw [eq_div_iff hsecond, add_mul, div_mul_cancel₀ _ hsecond, ← Nat.cast_mul, ← Nat.cast_add,
    Nat.div_add_mod']

lemma Bucket.refilled_exact (b : Bucket) (now : ℕ) : b.refilled exact now =
    min (b.tokens + ((now - b.updated : ℕ) : ℚ) / second * b.refillPerSecond) b.capacity := by
  unfold Bucket.refilled
  rw [seconds_exact, exact_round, exact_round]

lemma Bucket.take_exact (b : Bucket) (amount now : ℕ) : b.take exact amount now =
    if b.refilled exact now < amount then
      (false, { b with tokens := b.refilled exact now, updated := now })
    else (true, { b with tokens := b.refilled exact now - amount, updated := now }) := rfl

lemma Bucket.new_exact (capacity period now : ℕ) : Bucket.new exact capacity period now =
    ⟨capacity, capacity, capacity / ((period : ℚ) / second), now⟩ := by
  unfold Bucket.new
  simp only [seconds_exact, exact_round]

structure WindowCounter where
  limit : ℕ
  period : ℕ
  start : ℕ
  used : ℕ

def WindowCounter.new (limit period now : ℕ) : WindowCounter := ⟨limit, period, now, 0⟩

def WindowCounter.take (w : WindowCounter) (now : ℕ) : Bool × WindowCounter :=
  let w := if now - w.start ≥ w.period then { w with start := now, used := 0 } else w
  if w.used ≥ w.limit then (false, w) else (true, { w with used := w.used + 1 })

end Protonet.RateLimit
