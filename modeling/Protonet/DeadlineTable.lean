import Protonet.Lru
import Protonet.StepRun

/-!
# Deadlines in a bounded table

A table maps keys to deadlines. A call sets the deadline of its key to its start plus its
duration, and overwrites what was there; a query drops the entry of its key once it is over. A
call stands as long as the table holds a deadline for its key that is not before the call's own.
-/
namespace Protonet.DeadlineTable
open Lru StepRun

variable {κ : Type*}

structure Call (κ : Type*) where
  key : κ
  start : ℕ
  duration : ℕ
  deriving DecidableEq

def Call.deadline (c : Call κ) : ℕ := c.start + c.duration

inductive Op (κ : Type*)
  | query (key : κ) (now : ℕ)
  | call (c : Call κ)

def Op.time : Op κ → ℕ
  | .query _ now => now
  | .call c => c.start

def Op.call? : Op κ → Option (Call κ)
  | .query _ _ => none
  | .call c => some c

def callsOf (ops : List (Op κ)) : List (Call κ) := ops.filterMap Op.call?

variable [DecidableEq κ]

/-- The table after a query: a live entry moves to the front, a dead one is dropped. -/
def queried (table : LruCache κ ℕ) (key : κ) (now : ℕ) : LruCache κ ℕ :=
  match table.peek key with
  | none => table
  | some deadline =>
    if deadline > now then table.promote key else (table.promote key).pop key

def called (table : LruCache κ ℕ) (c : Call κ) : LruCache κ ℕ := table.put c.key c.deadline

def apply (table : LruCache κ ℕ) : Op κ → LruCache κ ℕ
  | .query key now => queried table key now
  | .call c => called table c

lemma peek_queried (table : LruCache κ ℕ) (key k : κ) (now : ℕ) :
    (queried table key now).peek k =
      if k = key then (table.peek k).filter (now < ·) else table.peek k := by
  unfold queried
  rcases h : table.peek key with _ | deadline
  · by_cases hk : k = key
    · subst hk
      simp [h]
    · simp [hk]
  · by_cases hd : deadline > now
    · by_cases hk : k = key
      · subst hk
        simp [hd, h, Option.filter]
      · simp [hd, hk]
    · by_cases hk : k = key
      · subst hk
        simp [hd, h, Option.filter]
      · simp [hd, hk, LruCache.peek_pop]

lemma queried_cap (table : LruCache κ ℕ) (key : κ) (now : ℕ) :
    (queried table key now).cap = table.cap := by
  unfold queried
  rcases table.peek key with _ | deadline
  · rfl
  · dsimp only
    split_ifs <;> simp

/-- What stands at an instant: every call that is not over has its deadline, or a later one, in
the table, and the table never outgrows the keys it may bind. -/
structure Standing (table : LruCache κ ℕ) (keys : Finset κ) (calls : List (Call κ)) (now : ℕ) :
    Prop where
  owed : ∀ c ∈ calls, now < c.deadline → ∃ d ∈ table.peek c.key, c.deadline ≤ d
  within : ∀ k, (table.peek k).isSome → k ∈ keys
  room : keys.card ≤ table.cap

variable {table : LruCache κ ℕ} {keys : Finset κ} {calls : List (Call κ)} {now : ℕ}

lemma standing_new {cap : ℕ} (hcap : 0 < cap) (hroom : keys.card ≤ cap) :
    Standing (LruCache.new cap hcap) keys [] now where
  owed := by simp
  within := by simp
  room := hroom

lemma Standing.live (h : Standing table keys calls now) {c : Call κ} (hc : c ∈ calls) {t : ℕ}
    (hnow : now ≤ t) (ht : t < c.deadline) : ∃ d ∈ table.peek c.key, t < d := by
  obtain ⟨d, hd, hle⟩ := h.owed c hc (hnow.trans_lt ht)
  exact ⟨d, hd, ht.trans_le hle⟩

lemma Standing.later (h : Standing table keys calls now) {t : ℕ} (ht : now ≤ t) :
    Standing table keys calls t :=
  ⟨fun c hc hlt => h.owed c hc (ht.trans_lt hlt), h.within, h.room⟩

lemma Standing.query (h : Standing table keys calls now) (key : κ) :
    Standing (queried table key now) keys calls now where
  owed := by
    intro c hc hlt
    obtain ⟨d, hd, hle⟩ := h.owed c hc hlt
    refine ⟨d, ?_, hle⟩
    rw [peek_queried]
    split_ifs
    · exact Option.mem_filter_iff.mpr ⟨hd, by simpa using hlt.trans_le hle⟩
    · exact hd
  within := by
    intro k hk
    rw [peek_queried] at hk
    split_ifs at hk
    · obtain ⟨d, hd⟩ := Option.isSome_iff_exists.mp hk
      exact h.within k (Option.isSome_iff_exists.mpr ⟨d, (Option.mem_filter_iff.mp hd).1⟩)
    · exact h.within k hk
  room := by
    rw [queried_cap]
    exact h.room

/-- A call that does not bring the deadline of its key forward leaves every other one standing. -/
lemma Standing.call (h : Standing table keys calls now) {c : Call κ} (hnow : now ≤ c.start)
    (hkey : c.key ∈ keys) (hfit : ∀ d ∈ table.peek c.key, d ≤ c.deadline) :
    Standing (called table c) keys (calls ++ [c]) c.start where
  owed := by
    intro b hb hlt
    rcases List.mem_append.mp hb with hb | hb
    · obtain ⟨d, hd, hle⟩ := h.owed b hb (hnow.trans_lt hlt)
      by_cases hk : b.key = c.key
      · rw [hk] at hd ⊢
        exact ⟨c.deadline, LruCache.peek_put_self .., hle.trans (hfit d hd)⟩
      · refine ⟨d, ?_, hle⟩
        have hroom : c.key ∈ table.table ∨ table.len < table.cap :=
          LruCache.room_of_keys_subset (fun x hx => h.within x (LruCache.mem_keys.mp hx)) hkey
            h.room
        rwa [called, LruCache.peek_put_of_room hroom hk]
    · obtain rfl := List.mem_singleton.mp hb
      exact ⟨b.deadline, LruCache.peek_put_self .., le_rfl⟩
  within := by
    intro k hk
    by_cases hkc : k = c.key
    · rwa [hkc]
    · obtain ⟨d, hd⟩ := Option.isSome_iff_exists.mp hk
      exact h.within k (Option.isSome_iff_exists.mpr ⟨d, LruCache.peek_of_peek_put hkc hd⟩)
  room := h.room

/-- An operation brings no deadline forward. -/
def Fits (table : LruCache κ ℕ) (op : Op κ) : Prop :=
  ∀ c ∈ op.call?, ∀ d ∈ table.peek c.key, d ≤ c.deadline

/-- The operations come in the order of time, from one instant to another. -/
def Timed : ℕ → List (Op κ) → ℕ → Prop
  | now, [], finish => now ≤ finish
  | now, op :: ops, finish => now ≤ op.time ∧ Timed op.time ops finish

omit [DecidableEq κ] in
lemma Timed.weaken {ops : List (Op κ)} {t finish : ℕ} (h : Timed now ops finish) (ht : t ≤ now) :
    Timed t ops finish := by
  cases ops with
  | nil => exact ht.trans h
  | cons op ops => exact ⟨ht.trans h.1, h.2⟩

lemma Standing.run {ops : List (Op κ)} {finish : ℕ} (h : Standing table keys calls now)
    (htime : Timed now ops finish) (hkeys : ∀ c ∈ callsOf ops, c.key ∈ keys)
    (hfits : Along apply Fits table ops) :
    Standing (run apply table ops) keys (calls ++ callsOf ops) finish := by
  induction ops generalizing table calls now with
  | nil => simpa [callsOf] using h.later htime
  | cons op ops ih =>
    cases op with
    | query key t => exact ih ((h.later htime.1).query key) htime.2 hkeys hfits.2
    | call c =>
      have hc : callsOf (Op.call c :: ops) = c :: callsOf ops := rfl
      rw [hc] at hkeys ⊢
      have hstep : Standing (called table c) keys (calls ++ [c]) c.start :=
        h.call htime.1 (hkeys c (by simp)) (hfits.1 c rfl)
      rw [List.append_cons]
      exact ih hstep htime.2 (fun b hb => hkeys b (List.mem_cons_of_mem c hb)) hfits.2

end Protonet.DeadlineTable
