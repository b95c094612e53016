import Protonet.BucketTables
import Protonet.RateWindows
import Protonet.StepRun

namespace Protonet.DeniedIngestion
open Lru Address RateLimit Metering BucketTables StepRun Rounding

structure Attempt where
  ip : IpAddr
  net : Prefix
  now : ℕ

inductive Request
  | ask (call : RateWindows.Call)
  | ingest (attempt : Attempt)

def Request.now : Request → ℕ
  | .ask call => call.now
  | .ingest attempt => attempt.now

def answer (l : RateLimiter) : Request → Bool × RateLimiter
  | .ask call => RateWindows.answer l call
  | .ingest attempt => l.allowIngestionSource attempt.ip attempt.net attempt.now

def handle (l : RateLimiter) (r : Request) : RateLimiter := (answer l r).2

def Request.isOf (ip : IpAddr) : Request → Bool
  | .ask _ => false
  | .ingest attempt => decide (attempt.ip = ip)

/-- What the attempts of an address are answered in a run. -/
def answersOf (ip : IpAddr) (l : RateLimiter) : List Request → List Bool
  | [] => []
  | r :: rs =>
    if r.isOf ip then (answer l r).1 :: answersOf ip (handle l r) rs
    else answersOf ip (handle l r) rs

def attempts (rs : List Request) : List Attempt :=
  rs.filterMap fun
    | .ask _ => none
    | .ingest attempt => some attempt

/-- Time does not go back, and the caches have room for all addresses and prefixes. -/
structure Regular (rs : List Request) : Prop where
  ordered : rs.Pairwise fun r s => r.now ≤ s.now
  ips : ((attempts rs).map Attempt.ip).toFinset.card ≤ MAX_TRACKED_RATE_PEERS
  nets : ((attempts rs).map Attempt.net).toFinset.card ≤ MAX_TRACKED_RATE_PEERS

def insist (ip : IpAddr) (net : Prefix) (times : List ℕ) : List Request :=
  times.map fun t => .ingest ⟨ip, net, t⟩

/-- Other addresses of the prefix are answered as if the attempts had not been made. -/
def Harmless (before : List Request) (ip : IpAddr) (net : Prefix) (times : List ℕ) : Prop :=
  ∀ other ≠ ip, ∀ later : List Request, Regular (before ++ insist ip net times ++ later) →
    (∀ a ∈ attempts later, a.ip = other → a.net = net) →
      answersOf other (run handle .exact (before ++ insist ip net times)) later =
        answersOf other (run handle .exact before) later

def Denied (l : RateLimiter) (rs : List Request) : Prop :=
  Along handle (fun l r => (answer l r).1 = false) l rs

def Dry (l : RateLimiter) (ip : IpAddr) (net : Prefix) (times : List ℕ) : Prop :=
  Along (fun l t => handle l (.ingest ⟨ip, net, t⟩))
    (fun l t => (l.prefixBucket net t).refilled l.arithmetic t < 1) l times

def ipLevel (l : RateLimiter) (ip : IpAddr) (t : ℕ) : ℚ :=
  level l.ingestionIps INGESTION_RECORDS_PER_IP_PER_MINUTE ip t

def netLevel (l : RateLimiter) (net : Prefix) (t : ℕ) : ℚ :=
  level l.ingestionPrefixes INGESTION_RECORDS_PER_PREFIX_PER_MINUTE net t

def Within (S : Finset IpAddr) (N : Finset Prefix) (rs : List Request) : Prop :=
  ∀ a ∈ attempts rs, a.ip ∈ S ∧ a.net ∈ N

/-- Nothing is rounded, and both tables are kept. -/
structure Sound (S : Finset IpAddr) (N : Finset Prefix) (t : ℕ) (l : RateLimiter) : Prop where
  arithmetic : l.arithmetic = exact
  ips : Kept S INGESTION_RECORDS_PER_IP_PER_MINUTE t l.ingestionIps
  nets : Kept N INGESTION_RECORDS_PER_PREFIX_PER_MINUTE t l.ingestionPrefixes

/-- Two limiters that differ at most in an address and in when the bucket of a prefix was read. -/
structure Same (ip : IpAddr) (net : Prefix) (t : ℕ) (l l' : RateLimiter) : Prop where
  ips : ∀ other ≠ ip, l.ingestionIps.peek other = l'.ingestionIps.peek other
  nets : ∀ m ≠ net, l.ingestionPrefixes.peek m = l'.ingestionPrefixes.peek m
  level : ∀ t' ≥ t, netLevel l net t' = netLevel l' net t'

variable {l l' l₀ : RateLimiter} {ip other : IpAddr} {net : Prefix} {t t' : ℕ}
  {S : Finset IpAddr} {N : Finset Prefix} {r : Request} {rs : List Request} {a : Attempt}
  {call : RateWindows.Call} {times : List ℕ}

lemma tables_ask : (handle l (.ask call)).ingestionIps = l.ingestionIps ∧
    (handle l (.ask call)).ingestionPrefixes = l.ingestionPrefixes := by
  have hask : answer l (.ask call) = RateWindows.answer l call := rfl
  unfold handle
  rw [hask, RateWindows.answer_eq]
  exact ⟨rfl, rfl⟩

lemma arithmetic_handle : (handle l r).arithmetic = l.arithmetic := by
  cases r with
  | ask call => exact RateWindows.arithmetic_answer
  | ingest a => rfl

lemma ips_ingest (h : l.arithmetic = exact) : (handle l (.ingest a)).ingestionIps =
    charge l.ingestionIps INGESTION_RECORDS_PER_IP_PER_MINUTE a.ip a.now := by
  unfold handle answer RateLimiter.allowIngestionSource RateLimiter.ipBucket
  rw [h]
  rfl

lemma nets_ingest (h : l.arithmetic = exact) : (handle l (.ingest a)).ingestionPrefixes =
    charge l.ingestionPrefixes INGESTION_RECORDS_PER_PREFIX_PER_MINUTE a.net a.now := by
  unfold handle answer RateLimiter.allowIngestionSource RateLimiter.prefixBucket
  rw [h]
  rfl

lemma refilled_prefixBucket (h : l.arithmetic = exact) :
    (l.prefixBucket net t).refilled l.arithmetic t = netLevel l net t := by
  unfold RateLimiter.prefixBucket
  rw [h]
  rfl

lemma answer_ingest (h : l.arithmetic = exact) : (answer l (.ingest a)).1 = true ↔
    1 ≤ ipLevel l a.ip a.now ∧ 1 ≤ netLevel l a.net a.now := by
  have hfst := l.allowIngestionSource_fst a.ip a.net a.now
  rw [refilled_prefixBucket h] at hfst
  unfold RateLimiter.ipBucket at hfst
  rw [h] at hfst
  exact hfst

lemma attempts_append (xs ys : List Request) : attempts (xs ++ ys) = attempts xs ++ attempts ys :=
  List.filterMap_append ..

lemma within_append {xs ys : List Request} :
    Within S N (xs ++ ys) ↔ Within S N xs ∧ Within S N ys := by
  unfold Within
  rw [attempts_append, List.forall_mem_append]

lemma within_cons : Within S N (r :: rs) ↔ Within S N [r] ∧ Within S N rs :=
  @within_append S N [r] rs

lemma within_ingest : Within S N [.ingest a] ↔ a.ip ∈ S ∧ a.net ∈ N := by
  unfold Within attempts
  simp

lemma Within.card_ips (h : Within S N rs) :
    ((attempts rs).map Attempt.ip).toFinset.card ≤ S.card := by
  refine Finset.card_le_card fun x hx => ?_
  obtain ⟨a, ha, rfl⟩ := List.mem_map.mp (List.mem_toFinset.mp hx)
  exact (h a ha).1

lemma Within.card_nets (h : Within S N rs) :
    ((attempts rs).map Attempt.net).toFinset.card ≤ N.card := by
  refine Finset.card_le_card fun x hx => ?_
  obtain ⟨a, ha, rfl⟩ := List.mem_map.mp (List.mem_toFinset.mp hx)
  exact (h a ha).2

lemma Sound.mono (h : Sound S N t l) (hle : t ≤ t') : Sound S N t' l :=
  ⟨h.arithmetic, h.ips.later hle, h.nets.later hle⟩

lemma Sound.handle (h : Sound S N t l) (hr : Within S N [r]) (hle : t ≤ r.now) :
    Sound S N r.now (handle l r) := by
  have hexact : (DeniedIngestion.handle l r).arithmetic = exact := arithmetic_handle.trans h.arithmetic
  cases r with
  | ask call =>
    obtain ⟨hips, hnets⟩ := @tables_ask l call
    have hlater := h.mono hle
    exact ⟨hexact, hips ▸ hlater.ips, hnets ▸ hlater.nets⟩
  | ingest a =>
    obtain ⟨hip, hnet⟩ := within_ingest.mp hr
    refine ⟨hexact, ?_, ?_⟩
    · rw [ips_ingest h.arithmetic]
      exact h.ips.charge hip hle
    · rw [nets_ingest h.arithmetic]
      exact h.nets.charge hnet hle

lemma Sound.attempt (h : Sound S N t l) (hip : ip ∈ S) (hnet : net ∈ N) (hle : t ≤ t') :
    Sound S N t' (DeniedIngestion.handle l (.ingest ⟨ip, net, t'⟩)) :=
  h.handle (r := .ingest ⟨ip, net, t'⟩) (within_ingest.mpr ⟨hip, hnet⟩) hle

lemma Sound.run (h : Sound S N t l) (hrs : Within S N rs)
    (hordered : rs.Pairwise fun r s => r.now ≤ s.now) (hstart : ∀ r ∈ rs, t ≤ r.now)
    (hle : t ≤ t') (hend : ∀ r ∈ rs, r.now ≤ t') :
    Sound S N t' (run DeniedIngestion.handle l rs) := by
  induction rs generalizing l t with
  | nil => exact h.mono hle
  | cons r rs ih =>
    obtain ⟨hr, hrest⟩ := within_cons.mp hrs
    obtain ⟨hfirst, hordered'⟩ := List.pairwise_cons.mp hordered
    exact ih (h.handle hr (hstart r List.mem_cons_self)) hrest hordered' hfirst
      (hend r List.mem_cons_self) fun s hs => hend s (List.mem_cons_of_mem r hs)

lemma Same.handle (h : Same ip net t l l') (hl : Sound S N t l) (hl' : Sound S N t l')
    (hr : Within S N [r]) (hle : t ≤ r.now) :
    Same ip net r.now (handle l r) (handle l' r) := by
  cases r with
  | ask call =>
    obtain ⟨hips, hnets⟩ := @tables_ask l call
    obtain ⟨hips', hnets'⟩ := @tables_ask l' call
    refine ⟨fun other hne => ?_, fun m hne => ?_, fun t' ht' => ?_⟩
    · rw [hips, hips', h.ips other hne]
    · rw [hnets, hnets', h.nets m hne]
    · unfold netLevel
      rw [hnets, hnets']
      exact h.level t' (hle.trans ht')
  | ingest a =>
    obtain ⟨hip, hnet⟩ := within_ingest.mp hr
    refine ⟨fun other hne => ?_, fun m hne => ?_, fun t' ht' => ?_⟩
    · rw [ips_ingest hl.arithmetic, ips_ingest hl'.arithmetic]
      exact hl.ips.peek_charge_both hl'.ips hip hle (h.ips other hne)
    · rw [nets_ingest hl.arithmetic, nets_ingest hl'.arithmetic]
      exact hl.nets.peek_charge_both hl'.nets hnet hle (h.nets m hne)
    · unfold netLevel
      rw [nets_ingest hl.arithmetic, nets_ingest hl'.arithmetic]
      by_cases heq : net = a.net
      · subst heq
        exact level_congr (hl.nets.peek_charge_congr hl'.nets hle (h.level _ hle))
      · rw [level_congr (hl.nets.peek_charge_ne hnet heq),
          level_congr (hl'.nets.peek_charge_ne hnet heq)]
        exact h.level t' (hle.trans ht')

lemma Same.answer (h : Same ip net t l l') (hl : Sound S N t l) (hl' : Sound S N t l')
    (hne : a.ip ≠ ip) (hle : t ≤ a.now) :
    (answer l (.ingest a)).1 = (answer l' (.ingest a)).1 := by
  have hip : ipLevel l a.ip a.now = ipLevel l' a.ip a.now := level_congr (h.ips _ hne)
  have hnet : netLevel l a.net a.now = netLevel l' a.net a.now := by
    by_cases heq : a.net = net
    · rw [heq]
      exact h.level _ hle
    · exact level_congr (h.nets _ heq)
  rw [Bool.eq_iff_iff, answer_ingest hl.arithmetic, answer_ingest hl'.arithmetic, hip, hnet]

lemma Same.answersOf (h : Same ip net t l l') (hne : other ≠ ip) (hl : Sound S N t l)
    (hl' : Sound S N t l') (hrs : Within S N rs)
    (hordered : rs.Pairwise fun r s => r.now ≤ s.now) (hstart : ∀ r ∈ rs, t ≤ r.now) :
    answersOf other l rs = answersOf other l' rs := by
  induction rs generalizing l l' t with
  | nil => rfl
  | cons r rs ih =>
    obtain ⟨hr, hrest⟩ := within_cons.mp hrs
    obtain ⟨hfirst, hordered'⟩ := List.pairwise_cons.mp hordered
    have hle := hstart r List.mem_cons_self
    have hrec := ih (h.handle hl hl' hr hle) (hl.handle hr hle) (hl'.handle hr hle) hrest
      hordered' hfirst
    unfold DeniedIngestion.answersOf
    rw [hrec]
    split_ifs with hof
    · cases r with
      | ask call => cases hof
      | ingest a =>
        have hip : a.ip = other := of_decide_eq_true hof
        rw [h.answer hl hl' (hip ▸ hne) hle]
    · rfl

/-- An attempt that finds less than a token for its prefix leaves its bucket as it was. -/
lemma Same.dry (h : Same ip net t l₀ l) (hl : Sound S N t l) (hip : ip ∈ S) (hnet : net ∈ N)
    (hle : t ≤ t') (hdry : netLevel l net t' < 1) :
    Same ip net t' l₀ (DeniedIngestion.handle l (.ingest ⟨ip, net, t'⟩)) := by
  refine ⟨fun other hne => ?_, fun m hne => ?_, fun t'' ht'' => ?_⟩
  · rw [ips_ingest hl.arithmetic, hl.ips.peek_charge_ne hip hne]
    exact h.ips other hne
  · rw [nets_ingest hl.arithmetic, hl.nets.peek_charge_ne hnet hne]
    exact h.nets m hne
  · have hcharge : netLevel (DeniedIngestion.handle l (.ingest ⟨ip, net, t'⟩)) net t' =
        netLevel l net t' := by
      unfold netLevel at hdry ⊢
      rw [nets_ingest hl.arithmetic, hl.nets.level_charge hle, if_pos hdry, sub_zero]
    rw [h.level t'' (hle.trans ht'')]
    unfold netLevel at hcharge ⊢
    rw [hl.nets.level_later hle ht'', ← hcharge, nets_ingest hl.arithmetic]
    exact ((hl.nets.charge hnet hle).level_later le_rfl ht'').symm

/-- The first limiter has at least a token more for the prefix. -/
def Ahead (net : Prefix) (t : ℕ) (l₀ l : RateLimiter) : Prop :=
  netLevel l net t + 1 ≤ netLevel l₀ net t

lemma netLevel_attempt (hl : Sound S N t l) (hle : t ≤ t') :
    netLevel (handle l (.ingest ⟨ip, net, t'⟩)) net t' =
      netLevel l net t' - if netLevel l net t' < 1 then 0 else 1 := by
  unfold netLevel
  rw [nets_ingest hl.arithmetic]
  exact hl.nets.level_charge hle

/-- A lead of a token lasts while the limiter behind has less than a token less than a full
bucket. -/
lemma Ahead.later (h : Ahead net t l₀ l) (hl₀ : Sound S N t l₀) (hl : Sound S N t l) (hle : t ≤ t')
    (hroom : netLevel l net t' + 1 ≤ INGESTION_RECORDS_PER_PREFIX_PER_MINUTE) :
    Ahead net t' l₀ l := by
  unfold Ahead netLevel at *
  rw [hl.nets.level_later le_rfl hle] at hroom ⊢
  rw [hl₀.nets.level_later le_rfl hle]
  exact flow_lead h hroom

lemma behind_attempt (hl₀ : Sound S N t l₀) (hl : Sound S N t l) (hle : t ≤ t')
    (hbelow : netLevel l net t ≤ netLevel l₀ net t) :
    netLevel (handle l (.ingest ⟨ip, net, t'⟩)) net t' ≤ netLevel l₀ net t' ∧
      (Ahead net t l₀ l ∨ ¬ netLevel l net t' < 1 →
        Ahead net t' l₀ (handle l (.ingest ⟨ip, net, t'⟩))) := by
  have hstill : netLevel l net t' ≤ netLevel l₀ net t' := by
    unfold netLevel at hbelow ⊢
    rw [hl.nets.level_later le_rfl hle, hl₀.nets.level_later le_rfl hle]
    exact flow_mono hbelow
  have hattempt := @netLevel_attempt l ip net t t' S N hl hle
  by_cases hdry : netLevel l net t' < 1
  · rw [if_pos hdry, sub_zero] at hattempt
    refine ⟨hattempt.trans_le hstill, fun h => ?_⟩
    have hahead := h.resolve_right (not_not.mpr hdry)
    have hroom : netLevel l net t' + 1 ≤ INGESTION_RECORDS_PER_PREFIX_PER_MINUTE := by
      have htwo : (1 : ℚ) + 1 ≤ INGESTION_RECORDS_PER_PREFIX_PER_MINUTE := by
        norm_num [INGESTION_RECORDS_PER_PREFIX_PER_MINUTE]
      linarith
    have hkept := hahead.later hl₀ hl hle hroom
    unfold Ahead at hkept ⊢
    rwa [hattempt]
  · rw [if_neg hdry] at hattempt
    unfold Ahead
    rw [hattempt]
    exact ⟨by linarith, fun _ => by linarith⟩

/-- Attempts that are not all dry leave the limiter behind at the last of them. -/
lemma behind_insist (hl₀ : Sound S N t l₀) (hl : Sound S N t l) (hip : ip ∈ S) (hnet : net ∈ N)
    (hordered : times.Pairwise (· ≤ ·)) (hstart : ∀ x ∈ times, t ≤ x)
    (hbelow : netLevel l net t ≤ netLevel l₀ net t)
    (h : Ahead net t l₀ l ∨ ¬ Dry l ip net times) :
    ∃ T, t ≤ T ∧ (∀ x ∈ times, x ≤ T) ∧ Ahead net T l₀ (run handle l (insist ip net times)) ∧
      Sound S N T (run handle l (insist ip net times)) := by
  induction times generalizing l t with
  | nil => exact ⟨t, le_rfl, fun x hx => absurd hx List.not_mem_nil,
      h.resolve_right fun hnot => hnot trivial, hl⟩
  | cons t₁ times ih =>
    obtain ⟨hfirst, hordered'⟩ := List.pairwise_cons.mp hordered
    have hle := hstart t₁ List.mem_cons_self
    obtain ⟨hbelow', hahead⟩ := @behind_attempt l l₀ ip net t t₁ S N hl₀ hl hle hbelow
    have hl' : Sound S N t₁ (handle l (.ingest ⟨ip, net, t₁⟩)) := hl.attempt hip hnet hle
    have hnext : Ahead net t₁ l₀ (handle l (.ingest ⟨ip, net, t₁⟩)) ∨
        ¬ Dry (handle l (.ingest ⟨ip, net, t₁⟩)) ip net times := by
      rcases h with h | h
      · exact .inl (hahead (.inl h))
      · by_cases hdry : netLevel l net t₁ < 1
        · exact .inr fun hrest => h ⟨(refilled_prefixBucket hl.arithmetic).trans_lt hdry, hrest⟩
        · exact .inl (hahead (.inr hdry))
    obtain ⟨T, hT, hends, hlast, hsound⟩ :=
      ih (hl₀.mono hle) hl' hordered' hfirst hbelow' hnext
    refine ⟨T, hle.trans hT, fun x hx => ?_, hlast, hsound⟩
    rcases List.mem_cons.mp hx with rfl | hx
    · exact hT
    · exact hends x hx

/-- As many attempts at one instant as there are tokens for the prefix take these tokens, and leave
other addresses alone. -/
lemma drained (hl : Sound S N t l) (hip : ip ∈ S) (hnet : net ∈ N) {n : ℕ}
    (hn : (n : ℚ) ≤ netLevel l net t) :
    netLevel (run handle l (insist ip net (List.replicate n t))) net t = netLevel l net t - n ∧
      Sound S N t (run handle l (insist ip net (List.replicate n t))) ∧
      ∀ other ≠ ip, (run handle l (insist ip net (List.replicate n t))).ingestionIps.peek other =
        l.ingestionIps.peek other := by
  induction n generalizing l with
  | zero => exact ⟨by simp [insist], hl, fun _ _ => rfl⟩
  | succ n ih =>
    have hone : ¬ netLevel l net t < 1 := by
      rw [Nat.cast_succ] at hn
      have hpos : (0 : ℚ) ≤ n := Nat.cast_nonneg n
      exact not_lt.mpr (by linarith)
    have hattempt := @netLevel_attempt l ip net t t S N hl le_rfl
    rw [if_neg hone] at hattempt
    have hl' : Sound S N t (handle l (.ingest ⟨ip, net, t⟩)) := hl.attempt hip hnet le_rfl
    have hn' : (n : ℚ) ≤ netLevel (handle l (.ingest ⟨ip, net, t⟩)) net t := by
      rw [hattempt]
      rw [Nat.cast_succ] at hn
      linarith
    obtain ⟨hlevel, hsound, hothers⟩ := ih hl' hn'
    refine ⟨?_, hsound, fun other hne => ?_⟩
    · refine hlevel.trans ?_
      rw [hattempt, Nat.cast_succ]
      ring
    · refine (hothers other hne).trans ?_
      rw [ips_ingest hl.arithmetic]
      exact hl.ips.peek_charge_ne hip hne

lemma Ahead.drained (h : Ahead net t l₀ l) (hl₀ : Sound S N t l₀) (hl : Sound S N t l)
    (hip : ip ∈ S) (hnet : net ∈ N) : ∃ n : ℕ,
      Ahead net t (run handle l₀ (insist ip net (List.replicate n t)))
        (run handle l (insist ip net (List.replicate n t))) ∧
      netLevel (run handle l (insist ip net (List.replicate n t))) net t < 1 ∧
      Sound S N t (run handle l₀ (insist ip net (List.replicate n t))) ∧
      Sound S N t (run handle l (insist ip net (List.replicate n t))) ∧
      ∀ other ≠ ip, (run handle l₀ (insist ip net (List.replicate n t))).ingestionIps.peek other =
        l₀.ingestionIps.peek other := by
  have hnonneg : 0 ≤ netLevel l net t := hl.nets.level_nonneg le_rfl
  have hfloor := Nat.floor_le hnonneg
  have hceil := Nat.lt_floor_add_one (netLevel l net t)
  obtain ⟨hlevel, hsound, -⟩ := DeniedIngestion.drained hl hip hnet hfloor
  obtain ⟨hlevel₀, hsound₀, hothers₀⟩ := DeniedIngestion.drained hl₀ hip hnet
    (hfloor.trans ((le_add_of_nonneg_right zero_le_one).trans h))
  unfold Ahead at h
  refine ⟨⌊netLevel l net t⌋₊, ?_, ?_, hsound₀, hsound, hothers₀⟩
  · unfold Ahead
    rw [hlevel, hlevel₀]
    linarith
  · rw [hlevel]
    linarith

lemma answersOf_insist (hne : other ≠ ip) : answersOf other l (insist ip net times ++ rs) =
    answersOf other (run handle l (insist ip net times)) rs := by
  induction times generalizing l with
  | nil => rfl
  | cons t times ih =>
    have hnot : ¬ (Request.ingest ⟨ip, net, t⟩).isOf other = true := by
      simpa [Request.isOf] using hne.symm
    exact (if_neg hnot).trans ih

lemma answersOf_single : answersOf other l [.ingest ⟨other, net, t⟩] =
    [(answer l (.ingest ⟨other, net, t⟩)).1] := if_pos (decide_eq_true rfl)

lemma mem_insist : r ∈ insist ip net times ↔ ∃ t ∈ times, .ingest ⟨ip, net, t⟩ = r := List.mem_map

lemma within_insist (hip : ip ∈ S) (hnet : net ∈ N) : Within S N (insist ip net times) := by
  intro a ha
  obtain ⟨r, hr, hra⟩ := List.mem_filterMap.mp ha
  obtain ⟨t, -, rfl⟩ := mem_insist.mp hr
  obtain rfl := Option.some.inj hra
  exact ⟨hip, hnet⟩

lemma ipLevel_second (hl : Sound S N t l) : 1 ≤ ipLevel l ip (t + second) := by
  have hnonneg : 0 ≤ ipLevel l ip t := hl.ips.level_nonneg le_rfl
  unfold ipLevel at hnonneg ⊢
  rw [hl.ips.level_later le_rfl (Nat.le_add_right t second), Nat.add_sub_cancel_left]
  refine le_min ?_ ?_
  · have htoken : (second : ℚ) * rate INGESTION_RECORDS_PER_IP_PER_MINUTE = 1 := by
      norm_num [rate, second, INGESTION_RECORDS_PER_IP_PER_MINUTE]
    linarith
  · norm_num [INGESTION_RECORDS_PER_IP_PER_MINUTE]

/-- A second brings a prefix that has less than a token to less than eleven. -/
lemma netLevel_second (hl : Sound S N t l) (h : netLevel l net t < 1) :
    netLevel l net (t + second) + 1 ≤ INGESTION_RECORDS_PER_PREFIX_PER_MINUTE := by
  unfold netLevel at h ⊢
  rw [hl.nets.level_later le_rfl (Nat.le_add_right t second), Nat.add_sub_cancel_left]
  have htokens : (second : ℚ) * rate INGESTION_RECORDS_PER_PREFIX_PER_MINUTE = 10 := by
    norm_num [rate, second, INGESTION_RECORDS_PER_PREFIX_PER_MINUTE]
  have hfew : (12 : ℚ) ≤ INGESTION_RECORDS_PER_PREFIX_PER_MINUTE := by
    norm_num [INGESTION_RECORDS_PER_PREFIX_PER_MINUTE]
  have hmin := min_le_left
    (level l.ingestionPrefixes INGESTION_RECORDS_PER_PREFIX_PER_MINUTE net t +
      (second : ℚ) * rate INGESTION_RECORDS_PER_PREFIX_PER_MINUTE)
    (INGESTION_RECORDS_PER_PREFIX_PER_MINUTE : ℚ)
  unfold flow
  linarith

/-- The attempts that tell the limiters apart: the tokens of the one behind are used up twice, a
second apart, then another address asks. -/
def probe (ip other : IpAddr) (net : Prefix) (t m n : ℕ) : List Request :=
  insist ip net (List.replicate m t) ++ (insist ip net (List.replicate n (t + second)) ++
    [.ingest ⟨other, net, t + second⟩])

lemma within_probe {m n : ℕ} (hip : ip ∈ S) (hother : other ∈ S) (hnet : net ∈ N) :
    Within S N (probe ip other net t m n) :=
  within_append.mpr ⟨within_insist hip hnet,
    within_append.mpr ⟨within_insist hip hnet, within_ingest.mpr ⟨hother, hnet⟩⟩⟩

lemma insist_replicate {n : ℕ} (hr : r ∈ insist ip net (List.replicate n t)) : r.now = t := by
  obtain ⟨x, hx, rfl⟩ := mem_insist.mp hr
  exact List.eq_of_mem_replicate hx

lemma insist_replicate_ordered {n : ℕ} :
    (insist ip net (List.replicate n t)).Pairwise fun r s => r.now ≤ s.now :=
  List.pairwise_of_forall_mem_list fun r hr s hs => by
    rw [insist_replicate hr, insist_replicate hs]

lemma probe_ordered {m n : ℕ} :
    ((probe ip other net t m n).Pairwise fun r s => r.now ≤ s.now) ∧
      ∀ r ∈ probe ip other net t m n, t ≤ r.now := by
  have hle := Nat.le_add_right t second
  have hlast : ∀ s ∈ insist ip net (List.replicate n (t + second)) ++
      [.ingest ⟨other, net, t + second⟩], s.now = t + second := by
    intro s hs
    rcases List.mem_append.mp hs with hs | hs
    · exact insist_replicate hs
    · rw [List.mem_singleton.mp hs]
      rfl
  refine ⟨List.pairwise_append.mpr ⟨insist_replicate_ordered, ?_, fun r hr s hs => ?_⟩,
    fun r hr => ?_⟩
  · refine List.pairwise_of_forall_mem_list fun r hr s hs => ?_
    rw [hlast r hr, hlast s hs]
  · rw [insist_replicate hr, hlast s hs]
    exact hle
  · rcases List.mem_append.mp hr with hr | hr
    · exact (insist_replicate hr).ge
    · exact hle.trans_eq (hlast r hr).symm

lemma Ahead.probe (h : Ahead net t l₀ l) (hl₀ : Sound S N t l₀) (hl : Sound S N t l) (hip : ip ∈ S)
    (hnet : net ∈ N) (hne : other ≠ ip) : ∃ m n,
      answersOf other l (probe ip other net t m n) ≠
        answersOf other l₀ (probe ip other net t m n) := by
  obtain ⟨m, hahead, hfew, hl₀', hl', hothers⟩ := h.drained hl₀ hl hip hnet
  have hle := Nat.le_add_right t second
  have hlead := hahead.later hl₀' hl' hle (netLevel_second hl' hfew)
  obtain ⟨n, hlast, hdry, hl₀'', hl'', hothers'⟩ :=
    hlead.drained (hl₀'.mono hle) (hl'.mono hle) hip hnet
  refine ⟨m, n, ?_⟩
  unfold DeniedIngestion.probe
  rw [answersOf_insist hne, answersOf_insist hne, answersOf_insist hne, answersOf_insist hne]
  rw [answersOf_single, answersOf_single]
  intro heq
  have hgranted := congrArg List.head? heq
  rw [List.head?_cons, List.head?_cons, Option.some.injEq, Bool.eq_iff_iff,
    answer_ingest hl''.arithmetic, answer_ingest hl₀''.arithmetic] at hgranted
  have hnonneg := hl''.nets.level_nonneg (k := net) le_rfl
  have hip' : ipLevel _ other (t + second) = ipLevel l₀ other (t + second) :=
    level_congr ((hothers' other hne).trans (hothers other hne))
  have htoken : 1 ≤ ipLevel l₀ other (t + second) := ipLevel_second hl₀
  have hnet' : 1 ≤ netLevel _ net (t + second) := le_trans (le_add_of_nonneg_left hnonneg) hlast
  exact absurd (hgranted.mpr ⟨htoken.trans_eq hip'.symm, hnet'⟩).2 (not_le.mpr hdry)

lemma sound_exact (hS : S.card ≤ MAX_TRACKED_RATE_PEERS) (hN : N.card ≤ MAX_TRACKED_RATE_PEERS) :
    Sound S N 0 .exact :=
  ⟨rfl, kept_new _ hS, kept_new _ hN⟩

lemma exists_between {xs ys : List Request} (h : (xs ++ ys).Pairwise fun r s => r.now ≤ s.now) :
    ∃ t, (∀ r ∈ xs, r.now ≤ t) ∧ ∀ s ∈ ys, t ≤ s.now := by
  obtain ⟨hxs, -, hlast⟩ := List.pairwise_append.mp h
  rcases List.eq_nil_or_concat xs with rfl | ⟨xs, x, rfl⟩
  · exact ⟨0, fun r hr => absurd hr List.not_mem_nil, fun s _ => Nat.zero_le _⟩
  · rw [List.concat_eq_append] at *
    obtain ⟨-, -, hbefore⟩ := List.pairwise_append.mp hxs
    refine ⟨x.now, fun r hr => ?_, fun s hs => hlast x (by simp) s hs⟩
    rcases List.mem_append.mp hr with hr | hr
    · exact hbefore r hr x (List.mem_singleton_self x)
    · rw [List.mem_singleton.mp hr]

lemma dry_answersOf (h : Same ip net t l₀ l) (hne : other ≠ ip) (hl₀ : Sound S N t l₀)
    (hl : Sound S N t l) (hip : ip ∈ S) (hnet : net ∈ N) (hdry : Dry l ip net times)
    (hrs : Within S N rs)
    (hordered : (insist ip net times ++ rs).Pairwise fun r s => r.now ≤ s.now)
    (hstart : ∀ r ∈ insist ip net times ++ rs, t ≤ r.now) :
    answersOf other (run handle l (insist ip net times)) rs = answersOf other l₀ rs := by
  induction times generalizing l t with
  | nil => exact (h.answersOf hne hl₀ hl hrs hordered hstart).symm
  | cons t₁ times ih =>
    obtain ⟨hfirst, hrest⟩ := hdry
    obtain ⟨hlater, hordered'⟩ := List.pairwise_cons.mp hordered
    have hle : t ≤ t₁ := hstart _ List.mem_cons_self
    have hfirst' : netLevel l net t₁ < 1 := (refilled_prefixBucket hl.arithmetic).symm.trans_lt hfirst
    exact ih (h.dry hl hip hnet hle hfirst') (hl₀.mono hle) (hl.attempt hip hnet hle) hrest hordered'
      hlater

lemma exists_other (ip : IpAddr) (hS : S.card ≤ MAX_TRACKED_RATE_PEERS) :
    ∃ other ≠ ip, (insert other S).card ≤ MAX_TRACKED_RATE_PEERS := by
  by_cases hmore : ∃ x ∈ S, x ≠ ip
  · obtain ⟨x, hx, hne⟩ := hmore
    exact ⟨x, hne, by rwa [Finset.insert_eq_of_mem hx]⟩
  · have hfresh : ∃ other, other ≠ ip := by
      by_cases hzero : ip = .v4 ⟨0, 0, 0, 0⟩
      · exact ⟨.v4 ⟨0, 0, 0, 1⟩, by rw [hzero]; decide⟩
      · exact ⟨.v4 ⟨0, 0, 0, 0⟩, Ne.symm hzero⟩
    obtain ⟨other, hne⟩ := hfresh
    have hS' : S ⊆ {ip} := fun x hx =>
      Finset.mem_singleton.mpr (not_not.mp fun hx' => hmore ⟨x, hx, hx'⟩)
    refine ⟨other, hne, (Finset.card_insert_le other S).trans ?_⟩
    exact (Nat.succ_le_succ (Finset.card_le_card hS')).trans (by
      rw [Finset.card_singleton]
      decide)

lemma within_all : Within ((attempts rs).map Attempt.ip).toFinset
    ((attempts rs).map Attempt.net).toFinset rs := fun _ ha =>
  ⟨List.mem_toFinset.mpr (List.mem_map_of_mem ha), List.mem_toFinset.mpr (List.mem_map_of_mem ha)⟩

variable {before : List Request}

lemma harmless_of_dry (hdry : Dry (run handle .exact before) ip net times) :
    Harmless before ip net times := by
  rintro other hne later ⟨hordered, hips, hnets⟩ -
  obtain ⟨hwithin, hlater⟩ :=
    within_append.mp (@within_all (before ++ insist ip net times ++ later))
  obtain ⟨hbefore, hinsist⟩ := within_append.mp hwithin
  rw [run_append]
  cases times with
  | nil => rfl
  | cons t₁ times =>
    obtain ⟨hip, hnet⟩ := hinsist ⟨ip, net, t₁⟩ List.mem_cons_self
    rw [List.append_assoc] at hordered
    obtain ⟨t, hpast, hfuture⟩ := exists_between hordered
    obtain ⟨hordered₁, hordered₂, -⟩ := List.pairwise_append.mp hordered
    have hsound := (sound_exact hips hnets).run hbefore hordered₁ (fun r _ => Nat.zero_le _)
      (Nat.zero_le t) hpast
    exact dry_answersOf ⟨fun _ _ => rfl, fun _ _ => rfl, fun _ _ => rfl⟩ hne hsound hsound hip hnet
      hdry hlater hordered₂ hfuture

lemma dry_of_harmless (hregular : Regular (before ++ insist ip net times))
    (h : Harmless before ip net times) : Dry (run handle .exact before) ip net times := by
  by_contra hdry
  obtain ⟨other, hne, hroom⟩ := exists_other ip hregular.ips
  have hwithin : Within (insert other ((attempts (before ++ insist ip net times)).map
      Attempt.ip).toFinset) ((attempts (before ++ insist ip net times)).map Attempt.net).toFinset
      (before ++ insist ip net times) := fun a ha =>
    ⟨Finset.mem_insert_of_mem (within_all a ha).1, (within_all a ha).2⟩
  obtain ⟨hbefore, hinsist⟩ := within_append.mp hwithin
  cases times with
  | nil => exact hdry trivial
  | cons t₁ times =>
    obtain ⟨hip, hnet⟩ := hinsist ⟨ip, net, t₁⟩ List.mem_cons_self
    obtain ⟨t, hpast, hfuture⟩ := exists_between hregular.ordered
    obtain ⟨hordered₁, hordered₂, -⟩ := List.pairwise_append.mp hregular.ordered
    have hsound := (sound_exact hroom hregular.nets).run hbefore hordered₁
      (fun r _ => Nat.zero_le _) (Nat.zero_le t) hpast
    have hstart : ∀ x ∈ t₁ :: times, t ≤ x := fun x hx =>
      hfuture (.ingest ⟨ip, net, x⟩) (mem_insist.mpr ⟨x, hx, rfl⟩)
    rw [insist, List.pairwise_map] at hordered₂
    obtain ⟨T, hT, hends, hahead, hlast⟩ :=
      behind_insist hsound hsound hip hnet hordered₂ hstart le_rfl (.inr hdry)
    obtain ⟨m, n, hdiff⟩ :=
      hahead.probe (hsound.mono hT) hlast hip hnet hne
    obtain ⟨hprobe, hlater⟩ := @probe_ordered ip other net T m n
    have hall := within_append.mpr ⟨hwithin, within_probe (t := T) (m := m) (n := n) hip
      (Finset.mem_insert_self other _) hnet⟩
    have hdone : ∀ r ∈ before ++ insist ip net (t₁ :: times), r.now ≤ T := by
      intro r hr
      rcases List.mem_append.mp hr with hr | hr
      · exact (hpast r hr).trans hT
      · obtain ⟨x, hx, rfl⟩ := mem_insist.mp hr
        exact hends x hx
    refine hdiff ?_
    rw [← run_append]
    refine h other hne _ ⟨List.pairwise_append.mpr ⟨hregular.ordered, hprobe, fun r hr s hs =>
      (hdone r hr).trans (hlater s hs)⟩, hall.card_ips.trans hroom,
      hall.card_nets.trans hregular.nets⟩ fun a ha _ => ?_
    have honly := @within_probe ip other net T {ip, other} {net} m n (by simp) (by simp) (by simp)
    exact Finset.mem_singleton.mp (honly a ha).2

/-- Attempts of an address, denied or not, leave what the other addresses of the prefix are answered
exactly when each of them finds less than a token for the prefix. -/
theorem harmless_iff (hregular : Regular (before ++ insist ip net times)) :
    Harmless before ip net times ↔ Dry (run handle .exact before) ip net times :=
  ⟨dry_of_harmless hregular, harmless_of_dry⟩

lemma insist_append (xs ys : List ℕ) :
    insist ip net xs ++ insist ip net ys = insist ip net (xs ++ ys) := List.map_append.symm

lemma regular_insist (n : ℕ) : Regular (insist ip net (List.replicate n t)) := by
  have hwithin : Within {ip} {net} (insist ip net (List.replicate n t)) :=
    within_insist (Finset.mem_singleton_self ip) (Finset.mem_singleton_self net)
  refine ⟨insist_replicate_ordered, ?_, ?_⟩
  · exact hwithin.card_ips.trans ((Finset.card_singleton ip).le.trans (by decide))
  · exact hwithin.card_nets.trans ((Finset.card_singleton net).le.trans (by decide))

def firstIp : IpAddr := .v4 ⟨1, 2, 3, 4⟩
def secondIp : IpAddr := .v4 ⟨1, 2, 3, 5⟩
def sampleNet : Prefix := .v4 1 2 3

lemma denied_spent (hl : Sound S N t l) (hip : ip ∈ S) (hnet : net ∈ N)
    (hspent : ipLevel l ip t < 1) (n : ℕ) : Denied l (insist ip net (List.replicate n t)) := by
  induction n generalizing l with
  | zero => trivial
  | succ n ih =>
    have hdenied : (answer l (.ingest ⟨ip, net, t⟩)).1 = false := by
      rw [← Bool.not_eq_true, answer_ingest hl.arithmetic]
      exact fun h => absurd h.1 (not_le.mpr hspent)
    have hstill : ipLevel (handle l (.ingest ⟨ip, net, t⟩)) ip t < 1 := by
      unfold ipLevel at hspent ⊢
      rw [ips_ingest hl.arithmetic, hl.ips.level_charge le_rfl, if_pos hspent, sub_zero]
      exact hspent
    exact ⟨hdenied, ih (hl.attempt hip hnet le_rfl) hstill⟩

lemma sound_sample : Sound {firstIp} {sampleNet} 0 .exact :=
  sound_exact (by decide) (by decide)

lemma net_used_up : Sound {firstIp} {sampleNet} 0
      (run handle .exact (insist firstIp sampleNet (List.replicate 600 0))) ∧
    netLevel (run handle .exact (insist firstIp sampleNet (List.replicate 600 0))) sampleNet 0 <
      1 := by
  have hfull : netLevel .exact sampleNet 0 = 600 := by decide +kernel
  obtain ⟨hlevel, hsound, -⟩ := drained sound_sample (Finset.mem_singleton_self firstIp)
    (Finset.mem_singleton_self sampleNet) (n := 600) (by rw [hfull]; norm_num)
  refine ⟨hsound, ?_⟩
  rw [hlevel, hfull]
  norm_num

theorem exhausted_harmless :
    Harmless (insist firstIp sampleNet (List.replicate 600 0)) firstIp sampleNet [0] := by
  have hregular : Regular (insist firstIp sampleNet (List.replicate 600 0) ++
      insist firstIp sampleNet [0]) := by
    rw [insist_append, ← List.replicate_succ']
    exact regular_insist 601
  obtain ⟨hsound, hlevel⟩ := net_used_up
  exact (harmless_iff hregular).mpr
    ⟨(refilled_prefixBucket hsound.arithmetic).trans_lt hlevel, trivial⟩

/-- An address that has had its sixty records goes on for 540 attempts, which are all denied and use
up the prefix: the first record of its neighbour is refused. -/
theorem denied_attempts_starve :
    Denied (run handle .exact (insist firstIp sampleNet (List.replicate 60 0)))
        (insist firstIp sampleNet (List.replicate 540 0)) ∧
      answersOf secondIp (run handle .exact (insist firstIp sampleNet (List.replicate 60 0)))
        [.ingest ⟨secondIp, sampleNet, 0⟩] = [true] ∧
      answersOf secondIp (run handle .exact (insist firstIp sampleNet (List.replicate 60 0) ++
        insist firstIp sampleNet (List.replicate 540 0)))
        [.ingest ⟨secondIp, sampleNet, 0⟩] = [false] ∧
      ¬ Harmless (insist firstIp sampleNet (List.replicate 60 0)) firstIp sampleNet
        (List.replicate 540 0) := by
  have hip := Finset.mem_singleton_self firstIp
  have hnet := Finset.mem_singleton_self sampleNet
  have hsound : Sound {firstIp} {sampleNet} 0
      (run handle .exact (insist firstIp sampleNet (List.replicate 60 0))) :=
    (drained sound_sample hip hnet (n := 60) (by decide +kernel)).2.1
  have hsplit : insist firstIp sampleNet (List.replicate 60 0) ++
      insist firstIp sampleNet (List.replicate 540 0) =
        insist firstIp sampleNet (List.replicate 600 0) := by
    rw [insist_append, List.replicate_append_replicate]
  refine ⟨denied_spent hsound hip hnet (by decide +kernel) 540, by decide +kernel, ?_, fun h => ?_⟩
  · rw [hsplit]
    have hdenied : (answer (run handle .exact
        (insist firstIp sampleNet (List.replicate 600 0)))
          (.ingest ⟨secondIp, sampleNet, 0⟩)).1 = false := by
      obtain ⟨hempty, hlevel⟩ := net_used_up
      rw [← Bool.not_eq_true, answer_ingest hempty.arithmetic]
      exact fun h => absurd h.2 (not_le.mpr hlevel)
    rw [answersOf_single, hdenied]
  · have hregular : Regular (insist firstIp sampleNet (List.replicate 60 0) ++
        insist firstIp sampleNet (List.replicate 540 0)) := by
      rw [hsplit]
      exact regular_insist 600
    have hdry := dry_of_harmless hregular h
    have hcons : List.replicate 540 0 = 0 :: List.replicate 539 0 := List.replicate_succ
    rw [hcons, Dry, along_cons] at hdry
    exact absurd hdry.1 (by decide +kernel)

end Protonet.DeniedIngestion
