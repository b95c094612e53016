import Protonet.Metering
import Protonet.RateLimit

namespace Protonet.RateWindows
open Lru Record RateLimit Metering Rounding

inductive Budget
  | gossipRecords
  | gossipBytes
  | syncRequests
  | syncResponseBytes
  | invalid
  deriving DecidableEq

def Budget.capacity : Budget → ℕ
  | .gossipRecords => GOSSIP_RECORDS_PER_MINUTE
  | .gossipBytes => GOSSIP_BYTES_PER_MINUTE
  | .syncRequests => SYNC_REQUESTS_PER_MINUTE
  | .syncResponseBytes => SYNC_RESPONSE_BYTES_PER_HOUR
  | .invalid => INVALID_MESSAGES_PER_MINUTE

def Budget.period : Budget → ℕ
  | .syncResponseBytes => 60 * 60 * second
  | _ => 60 * second

def bucket (b : PeerBuckets) : Budget → Bucket
  | .gossipRecords => b.gossipRecords
  | .gossipBytes => b.gossipBytes
  | .syncRequests => b.syncRequests
  | .syncResponseBytes => b.syncResponseBytes
  | .invalid => b.invalid

inductive Ask
  | gossip (bytes : ℕ)
  | syncRequest
  | syncResponse (bytes : ℕ)
  | invalid

structure Call where
  peer : PeerId
  ask : Ask
  now : ℕ

def answer (l : RateLimiter) (c : Call) : Bool × RateLimiter :=
  match c.ask with
  | .gossip bytes => l.allowGossip c.peer bytes c.now
  | .syncRequest => l.allowSyncRequest c.peer c.now
  | .syncResponse bytes => l.allowSyncResponse c.peer bytes c.now
  | .invalid => l.noteInvalid c.peer c.now

def Ask.amount : Ask → Budget → ℕ
  | .gossip _, .gossipRecords => 1
  | .gossip bytes, .gossipBytes => bytes
  | .syncRequest, .syncRequests => 1
  | .syncResponse bytes, .syncResponseBytes => bytes
  | .invalid, .invalid => 1
  | _, _ => 0

/-- What a call takes out of the bucket of a budget, whether it is granted or not. -/
def taken (r : Arithmetic) (b : PeerBuckets) (ask : Ask) (now : ℕ) (β : Budget) : ℕ :=
  match ask, β with
  | .gossip bytes, .gossipBytes =>
    bif (b.gossipRecords.take r 1 now).1 && (b.gossipBytes.take r bytes now).1 then bytes else 0
  | _, _ => bif ((bucket b β).take r (ask.amount β) now).1 then ask.amount β else 0

structure Entry where
  call : Call
  granted : Bool
  taken : Budget → ℕ

def entry (l : RateLimiter) (c : Call) : Entry :=
  ⟨c, (answer l c).1, taken l.arithmetic (l.peer c.peer c.now) c.ask c.now⟩

/-- A run of calls, with what each one was answered and took. -/
def journal (l : RateLimiter) : List Call → List Entry
  | [] => []
  | c :: calls => entry l c :: journal (answer l c).2 calls

def after (l : RateLimiter) (calls : List Call) : RateLimiter :=
  calls.foldl (fun l c => (answer l c).2) l

/-- What a call does to the buckets of its peer. -/
def askBuckets (r : Arithmetic) (b : PeerBuckets) (ask : Ask) (now : ℕ) : Bool × PeerBuckets :=
  match ask with
  | .gossip bytes =>
    match b.gossipRecords.take r 1 now with
    | (false, gossipRecords) => (false, { b with gossipRecords })
    | (true, gossipRecords) =>
      let (granted, gossipBytes) := b.gossipBytes.take r bytes now
      (granted, { b with gossipRecords, gossipBytes })
  | .syncRequest =>
    let (granted, syncRequests) := b.syncRequests.take r 1 now
    (granted, { b with syncRequests })
  | .syncResponse bytes =>
    let (granted, syncResponseBytes) := b.syncResponseBytes.take r bytes now
    (granted, { b with syncResponseBytes })
  | .invalid =>
    let (granted, invalid) := b.invalid.take r 1 now
    (granted, { b with invalid })

variable {r : Arithmetic} {l l' : RateLimiter} {c : Call} {calls : List Call} {b : PeerBuckets} {ask : Ask}
  {now : ℕ} {β : Budget} {p : PeerId}

lemma answer_eq : answer l c = ((askBuckets l.arithmetic (l.peer c.peer c.now) c.ask c.now).1,
    l.setPeer c.peer (askBuckets l.arithmetic (l.peer c.peer c.now) c.ask c.now).2) := by
  unfold answer askBuckets
  cases c.ask with
  | gossip bytes =>
    dsimp only [RateLimiter.allowGossip]
    rcases (l.peer c.peer c.now).gossipRecords.take l.arithmetic 1 c.now with ⟨_ | _, gossipRecords⟩
    · rfl
    · rfl
  | syncRequest => rfl
  | syncResponse bytes => rfl
  | invalid => rfl

/-- A message is charged its bytes after it was charged for itself. -/
lemma askBuckets_gossip (bytes : ℕ) : askBuckets r b (.gossip bytes) now =
    ((b.gossipRecords.take r 1 now).1 && (b.gossipBytes.take r bytes now).1,
      { b with
        gossipRecords := (b.gossipRecords.take r 1 now).2
        gossipBytes := bif (b.gossipRecords.take r 1 now).1 then (b.gossipBytes.take r bytes now).2
          else b.gossipBytes }) := by
  unfold askBuckets
  dsimp only
  rcases b.gossipRecords.take r 1 now with ⟨_ | _, gossipRecords⟩ <;> rfl

/-- A bucket is asked for what the call wants of it, or left alone. -/
lemma askBuckets_bucket :
    (bucket (askBuckets r b ask now).2 β = ((bucket b β).take r (ask.amount β) now).2 ∧
        taken r b ask now β =
          bif ((bucket b β).take r (ask.amount β) now).1 then ask.amount β else 0) ∨
      bucket (askBuckets r b ask now).2 β = bucket b β ∧ taken r b ask now β = 0 := by
  cases ask with
  | gossip bytes =>
    rw [askBuckets_gossip]
    cases β with
    | gossipRecords => exact .inl ⟨rfl, rfl⟩
    | gossipBytes =>
      have htaken : taken r b (.gossip bytes) now .gossipBytes =
          bif (b.gossipRecords.take r 1 now).1 && (b.gossipBytes.take r bytes now).1 then bytes else
            0 := rfl
      rw [htaken]
      cases (b.gossipRecords.take r 1 now).1
      · exact .inr ⟨rfl, rfl⟩
      · exact .inl ⟨rfl, rfl⟩
    | _ => exact .inr ⟨rfl, Bool.cond_self ..⟩
  | syncRequest =>
    cases β with
    | syncRequests => exact .inl ⟨rfl, rfl⟩
    | _ => exact .inr ⟨rfl, Bool.cond_self ..⟩
  | syncResponse bytes =>
    cases β with
    | syncResponseBytes => exact .inl ⟨rfl, rfl⟩
    | _ => exact .inr ⟨rfl, Bool.cond_self ..⟩
  | invalid =>
    cases β with
    | invalid => exact .inl ⟨rfl, rfl⟩
    | _ => exact .inr ⟨rfl, Bool.cond_self ..⟩

lemma granted_le_taken (h : (askBuckets r b ask now).1 = true) :
    ask.amount β ≤ taken r b ask now β := by
  have hwhole : ∀ {granted : Bool} {amount : ℕ}, granted = true →
      amount ≤ bif granted then amount else 0 := by
    rintro _ _ rfl
    exact le_rfl
  cases ask with
  | gossip bytes =>
    rw [askBuckets_gossip] at h
    cases β with
    | gossipRecords => exact hwhole (Bool.and_eq_true_iff.mp h).1
    | gossipBytes => exact hwhole h
    | _ => exact Nat.zero_le _
  | syncRequest =>
    cases β with
    | syncRequests => exact hwhole h
    | _ => exact Nat.zero_le _
  | syncResponse bytes =>
    cases β with
    | syncResponseBytes => exact hwhole h
    | _ => exact Nat.zero_le _
  | invalid =>
    cases β with
    | invalid => exact hwhole h
    | _ => exact Nat.zero_le _

structure Sized (β : Budget) (b : Bucket) : Prop where
  capacity : b.capacity = β.capacity
  refill : b.refillPerSecond = β.capacity / ((β.period : ℚ) / second)

def Budget.rate (β : Budget) : ℚ := β.capacity / β.period

lemma rate_nonneg : 0 ≤ β.rate := div_nonneg (Nat.cast_nonneg _) (Nat.cast_nonneg _)

lemma Sized.refilled {b : Bucket} (h : Sized β b) : b.refilled exact now =
    min (b.tokens + (now - b.updated : ℕ) * β.rate) β.capacity := by
  have hperiod : (β.period : ℚ) ≠ 0 := by cases β <;> decide
  have hsecond : (second : ℚ) ≠ 0 := by decide
  unfold Budget.rate
  rw [Bucket.refilled_exact, h.capacity, h.refill]
  congr 2
  field_simp

/-- The bucket meters what is taken out of it, and was last read at some instant up to now. -/
structure Meters (β : Budget) (log : List (ℕ × ℚ)) (now : ℕ) (b : Bucket) : Prop where
  sized : Sized β b
  updated : b.updated ≤ now
  metered : Metered (β.capacity : ℚ) β.rate log b.tokens b.updated

variable {log : List (ℕ × ℚ)} {amount : ℕ}

lemma bucket_new : bucket (.new exact now) β =
    ⟨β.capacity, β.capacity, β.capacity / ((β.period : ℚ) / second), now⟩ := by
  rw [← Bucket.new_exact]
  cases β <;> rfl

lemma meters_new : Meters β [] now (bucket (.new exact now) β) := by
  rw [bucket_new]
  exact ⟨⟨rfl, rfl⟩, le_rfl, .start (Nat.cast_nonneg _) rate_nonneg⟩

lemma Meters.take {b : Bucket} (h : Meters β log now b) : Meters β
    (log ++ [(now, ((bif (b.take exact amount now).1 then amount else 0 : ℕ) : ℚ))]) now
      (b.take exact amount now).2 := by
  have hrefilled : 0 ≤ b.refilled exact now := by
    rw [h.sized.refilled]
    exact le_min (add_nonneg h.metered.nonneg (mul_nonneg (Nat.cast_nonneg _) rate_nonneg))
      (Nat.cast_nonneg _)
  rw [Bucket.take_exact]
  by_cases hfew : b.refilled exact now < amount
  · rw [if_pos hfew]
    refine ⟨⟨h.sized.capacity, h.sized.refill⟩, le_rfl, ?_⟩
    refine h.metered.spend rate_nonneg h.updated (Nat.cast_nonneg _) hrefilled ?_
    rw [cond_false, Nat.cast_zero, add_zero]
    exact h.sized.refilled
  · rw [if_neg hfew]
    refine ⟨⟨h.sized.capacity, h.sized.refill⟩, le_rfl, ?_⟩
    refine h.metered.spend rate_nonneg h.updated (Nat.cast_nonneg _)
      (sub_nonneg.mpr (not_lt.mp hfew)) ?_
    rw [cond_true, sub_add_cancel]
    exact h.sized.refilled

lemma Meters.later {b : Bucket} (h : Meters β log now b) {now' : ℕ} (hle : now ≤ now') :
    Meters β log now' b := ⟨h.sized, h.updated.trans hle, h.metered⟩

lemma meters_ask (h : Meters β log now (bucket b β)) :
    Meters β (log ++ [(now, (taken exact b ask now β : ℚ))]) now (bucket (askBuckets exact b ask now).2 β) := by
  rcases @askBuckets_bucket exact b ask now β with ⟨hbucket, htaken⟩ | ⟨hbucket, htaken⟩
  · rw [hbucket, htaken]
    exact h.take
  · rw [hbucket, htaken, Nat.cast_zero]
    exact ⟨h.sized, h.updated, h.metered.idle⟩

/-- What the entries of a peer took out of a budget, and when. -/
def logOf (p : PeerId) (β : Budget) (es : List Entry) : List (ℕ × ℚ) :=
  (es.filter fun e => e.call.peer = p).map fun e => (e.call.now, (e.taken β : ℚ))

/-- The cache holds peers of the set only, and has room for all of them. -/
structure Roomy (S : Finset PeerId) (l : RateLimiter) : Prop where
  room : S.card ≤ l.peers.cap
  peers : ∀ p ∈ l.peers.keys, p ∈ S

structure Running (now : ℕ) (es : List Entry) (l : RateLimiter) : Prop where
  arithmetic : l.arithmetic = exact
  fresh : ∀ p, l.peers.peek p = none → ∀ β, logOf p β es = []
  meters : ∀ p b, l.peers.peek p = some b → ∀ β, Meters β (logOf p β es) now (bucket b β)

variable {S : Finset PeerId} {es : List Entry}

lemma peek_answer_self : (answer l c).2.peers.peek c.peer =
    some (askBuckets l.arithmetic (l.peer c.peer c.now) c.ask c.now).2 := by
  rw [answer_eq]
  exact LruCache.peek_put_self ..

lemma peek_answer_ne (h : Roomy S l) (hc : c.peer ∈ S) (hp : p ≠ c.peer) :
    (answer l c).2.peers.peek p = l.peers.peek p := by
  rw [answer_eq]
  exact LruCache.peek_put_of_room (LruCache.room_of_keys_subset h.peers hc h.room) hp

lemma arithmetic_answer : (answer l c).2.arithmetic = l.arithmetic := by
  rw [answer_eq]
  rfl

lemma roomy_answer (h : Roomy S l) (hc : c.peer ∈ S) : Roomy S (answer l c).2 where
  room := by
    rw [answer_eq]
    exact h.room
  peers p hp := by
    by_cases heq : p = c.peer
    · exact heq ▸ hc
    · refine h.peers p (LruCache.mem_keys.mpr ?_)
      rw [← peek_answer_ne h hc heq]
      exact LruCache.mem_keys.mp hp

lemma logOf_snoc_self : logOf c.peer β (es ++ [entry l c]) =
    logOf c.peer β es ++ [(c.now, (taken l.arithmetic (l.peer c.peer c.now) c.ask c.now β : ℚ))] := by
  unfold logOf
  rw [List.filter_append, List.map_append]
  simp [entry]

lemma logOf_snoc_ne (hp : p ≠ c.peer) : logOf p β (es ++ [entry l c]) = logOf p β es := by
  unfold logOf
  rw [List.filter_append, List.map_append]
  simp [entry, Ne.symm hp]

lemma running_answer (hroomy : Roomy S l) (h : Running now es l) (hc : c.peer ∈ S)
    (hnow : now ≤ c.now) : Running c.now (es ++ [entry l c]) (answer l c).2 where
  arithmetic := arithmetic_answer.trans h.arithmetic
  fresh p hp β := by
    by_cases heq : p = c.peer
    · rw [heq, peek_answer_self] at hp
      cases hp
    · rw [peek_answer_ne hroomy hc heq] at hp
      rw [logOf_snoc_ne heq]
      exact h.fresh p hp β
  meters p b hb β := by
    by_cases heq : p = c.peer
    · subst heq
      obtain rfl := Option.some.inj (peek_answer_self.symm.trans hb)
      rw [logOf_snoc_self, h.arithmetic]
      refine meters_ask ?_
      unfold RateLimiter.peer
      rw [h.arithmetic]
      rcases hpeek : l.peers.peek c.peer with _ | b
      · rw [h.fresh _ hpeek β]
        exact meters_new
      · exact (h.meters _ b hpeek β).later hnow
    · rw [peek_answer_ne hroomy hc heq] at hb
      rw [logOf_snoc_ne heq]
      exact (h.meters p b hb β).later hnow

lemma journal_snoc : journal l (calls ++ [c]) = journal l calls ++ [entry (after l calls) c] := by
  induction calls generalizing l with
  | nil => rfl
  | cons d calls ih => exact congrArg (entry l d :: ·) ih

lemma after_snoc : after l (calls ++ [c]) = (answer (after l calls) c).2 := List.foldl_append

lemma roomy_new (hcard : S.card ≤ MAX_TRACKED_RATE_PEERS) : Roomy S (.new r) where
  room := hcard
  peers := nofun

lemma peek_exact : RateLimiter.exact.peers.peek p = none := by
  unfold RateLimiter.exact
  exact LruCache.peek_new ..

lemma running_exact : Running 0 [] .exact where
  arithmetic := rfl
  fresh _ _ _ := rfl
  meters p b hb := by
    rw [peek_exact] at hb
    cases hb

/-- The instant of the last call. -/
def lastNow (calls : List Call) : ℕ := (calls.getLast?.map Call.now).getD 0

lemma running_run (hS : ∀ c ∈ calls, c.peer ∈ S) (hcard : S.card ≤ MAX_TRACKED_RATE_PEERS)
    (hsorted : calls.Pairwise fun c d => c.now ≤ d.now) :
    Roomy S (after .exact calls) ∧
      Running (lastNow calls) (journal .exact calls) (after .exact calls) := by
  induction calls using List.reverseRecOn with
  | nil => exact ⟨roomy_new hcard, running_exact⟩
  | append_singleton calls c ih =>
    obtain ⟨hbefore, -, hlast⟩ := List.pairwise_append.mp hsorted
    obtain ⟨hroomy, hrunning⟩ := ih (fun d hd => hS d (List.mem_append_left _ hd)) hbefore
    have hc : c.peer ∈ S := hS c (List.mem_append_right _ (List.mem_singleton_self c))
    have hnow : lastNow calls ≤ c.now := by
      unfold lastNow
      rcases hl : calls.getLast? with _ | d
      · exact Nat.zero_le _
      · exact hlast d (List.mem_of_getLast? hl) c (List.mem_singleton_self c)
    have hend : lastNow (calls ++ [c]) = c.now := by
      unfold lastNow
      rw [List.getLast?_concat]
      rfl
    rw [journal_snoc, after_snoc, hend]
    exact ⟨roomy_answer hroomy hc, running_answer hroomy hrunning hc hnow⟩

def total (f : Entry → ℕ) (p : PeerId) (t t' : ℕ) (es : List Entry) : ℕ :=
  ((es.filter fun e => e.call.peer = p ∧ t ≤ e.call.now ∧ e.call.now ≤ t').map f).sum

def granted (β : Budget) (e : Entry) : ℕ := bif e.granted then e.call.ask.amount β else 0

lemma total_taken {t t' : ℕ} : (total (fun e => e.taken β) p t t' es : ℚ) =
    spent (fun n => t ≤ n ∧ n ≤ t') (logOf p β es) := by
  unfold total spent logOf
  rw [List.filter_map, List.filter_filter, List.map_map, Nat.cast_list_sum, List.map_map]
  congr 2
  refine List.filter_congr fun e _ => ?_
  rw [Bool.decide_and, Bool.and_comm]
  rfl

lemma granted_le : ∀ e ∈ journal l calls, granted β e ≤ e.taken β := by
  induction calls generalizing l with
  | nil => nofun
  | cons c calls ih =>
    intro e he
    rcases List.mem_cons.mp he with rfl | he
    · unfold granted
      rcases hg : (entry l c).granted with _ | _
      · exact Nat.zero_le _
      · have hask : (askBuckets l.arithmetic (l.peer c.peer c.now) c.ask c.now).1 = true := by
          rw [← hg]
          exact (congrArg Prod.fst answer_eq).symm
        exact granted_le_taken hask
    · exact ih e he

/-- The entries of a peer are those of a run of its calls alone. -/
lemma journal_alone (h : Roomy S l) (hS : ∀ c ∈ calls, c.peer ∈ S)
    (hexact : l.arithmetic = l'.arithmetic) (hpeek : l.peers.peek p = l'.peers.peek p) :
    (journal l calls).filter (fun e => e.call.peer = p) =
      journal l' (calls.filter fun c => c.peer = p) := by
  induction calls generalizing l l' with
  | nil => rfl
  | cons c calls ih =>
    have hc := hS c List.mem_cons_self
    have htail := fun d hd => hS d (List.mem_cons_of_mem c hd)
    have hroomy := roomy_answer h hc
    by_cases heq : c.peer = p
    · subst heq
      have hsame : l.peer c.peer c.now = l'.peer c.peer c.now := by
        unfold RateLimiter.peer
        rw [hpeek, hexact]
      have hentry : entry l c = entry l' c := by
        unfold entry
        rw [congrArg Prod.fst (answer_eq (l := l)), congrArg Prod.fst (answer_eq (l := l')), hsame,
          hexact]
      have hpeek' : (answer l c).2.peers.peek c.peer = (answer l' c).2.peers.peek c.peer := by
        rw [peek_answer_self, peek_answer_self, hsame, hexact]
      have hexact' : (answer l c).2.arithmetic = (answer l' c).2.arithmetic := by
        rw [arithmetic_answer, arithmetic_answer, hexact]
      rw [journal, List.filter_cons_of_pos (by simp [entry]),
        List.filter_cons_of_pos (by simp), journal, hentry, ih hroomy htail hexact' hpeek']
    · have hpeek' : (answer l c).2.peers.peek p = l'.peers.peek p := by
        rw [peek_answer_ne h hc (Ne.symm heq), hpeek]
      rw [journal, List.filter_cons_of_neg (by simp [entry, heq]),
        List.filter_cons_of_neg (by simp [heq]), ih hroomy htail (arithmetic_answer.trans hexact)
          hpeek']

/-- In every run of calls at times that do not go back, for no more peers than the cache has room
for: what a budget grants a peer within a window is at most its capacity and what it takes in within
the window, its tokens stay between none and its capacity, and what a peer is answered is what a run
of its calls alone answers it, whatever the arithmetic. -/
theorem rate_limits_hold (calls : List Call) (hsorted : calls.Pairwise fun c d => c.now ≤ d.now)
    (hfew : (calls.map Call.peer).toFinset.card ≤ MAX_TRACKED_RATE_PEERS) (p : PeerId) :
    (∀ β t d, total (granted β) p t (t + d) (journal .exact calls) ≤
          total (fun e => e.taken β) p t (t + d) (journal .exact calls) ∧
        (total (fun e => e.taken β) p t (t + d) (journal .exact calls) : ℚ) ≤
          β.capacity + d * β.capacity / β.period) ∧
      (∀ b ∈ (after .exact calls).peers.peek p, ∀ β,
        0 ≤ (bucket b β).tokens ∧ (bucket b β).tokens ≤ β.capacity) ∧
      ∀ r, (journal (.new r) calls).filter (fun e => e.call.peer = p) =
        journal (.new r) (calls.filter fun c => c.peer = p) := by
  have hS : ∀ c ∈ calls, c.peer ∈ (calls.map Call.peer).toFinset := fun c hc =>
    List.mem_toFinset.mpr (List.mem_map_of_mem hc)
  obtain ⟨-, hrunning⟩ := running_run hS hfew hsorted
  refine ⟨fun β t d => ⟨?_, ?_⟩, ?_, fun r => journal_alone (roomy_new hfew) hS rfl rfl⟩
  · exact List.sum_le_sum fun e he => granted_le e (List.mem_of_mem_filter he)
  · have hflow : ((t + d - t : ℕ) : ℚ) * β.rate = d * β.capacity / β.period := by
      rw [Nat.add_sub_cancel_left, Budget.rate, mul_div_assoc]
    rw [total_taken, ← hflow]
    rcases hpeek : (after .exact calls).peers.peek p with _ | b
    · rw [hrunning.fresh p hpeek β, spent_nil]
      exact add_nonneg (Nat.cast_nonneg _) (mul_nonneg (Nat.cast_nonneg _) rate_nonneg)
    · exact (hrunning.meters p b hpeek β).metered.between t (t + d) (Nat.le_add_right t d)
  · intro b hb β
    have hmetered := (hrunning.meters p b hb β).metered
    exact ⟨hmetered.nonneg, hmetered.le_cap⟩

def sampleCalls : List Call :=
  [⟨⟨[1]⟩, .gossip 100, 0⟩, ⟨⟨[2]⟩, .syncRequest, 5⟩, ⟨⟨[1]⟩, .invalid, 7⟩]

theorem sampleCalls_limited :
    (total (fun e => e.taken .gossipBytes) ⟨[1]⟩ 0 (0 + 7) (journal .exact sampleCalls) : ℚ) ≤
        Budget.gossipBytes.capacity +
          (7 : ℕ) * Budget.gossipBytes.capacity / Budget.gossipBytes.period ∧
      (journal .default sampleCalls).filter (fun e => e.call.peer = ⟨[1]⟩) =
        journal .default (sampleCalls.filter fun c => c.peer = ⟨[1]⟩) := by
  obtain ⟨hwindow, -, halone⟩ :=
    rate_limits_hold sampleCalls (by unfold sampleCalls; decide) (by decide) ⟨[1]⟩
  exact ⟨(hwindow .gossipBytes 0 7).2, halone float64⟩

end Protonet.RateWindows
