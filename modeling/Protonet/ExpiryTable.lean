import Protonet.Lru

/-!
# Expiries in a bounded table

What enters a table at an instant is over a fixed time later, and a sweep takes entries that are
over off the far end until it meets one that is not. When entries come in the order of time the
table is sorted by expiry, and the sweep finds everything that is over.
-/
namespace Protonet.ExpiryTable
open Lru

variable {κ : Type*} {table : LruCache κ ℕ} {key : κ} {now t ttl expiry r : ℕ}

lemma kept_sublist (table : LruCache κ ℕ) (now : ℕ) :
    (table.table.entries.rdropWhile fun e => e.2 ≤ now).Sublist table.table.entries :=
  (List.rdropWhile_prefix _ _).sublist

def swept (table : LruCache κ ℕ) (now : ℕ) : LruCache κ ℕ :=
  ⟨table.cap, table.cap_pos,
    ⟨table.table.entries.rdropWhile fun e => e.2 ≤ now,
      table.table.nodupKeys.sublist (kept_sublist table now)⟩,
    (kept_sublist table now).length_le.trans table.bounded⟩

/-! A sweep one entry at a time. -/

lemma swept_of_peekLru_none (h : table.peekLru = none) : swept table now = table := by
  have hnil : table.table.entries = [] := by simpa [LruCache.peekLru] using h
  exact LruCache.eq_of_entries rfl (by simp [swept, hnil])

lemma entries_of_peekLru (h : table.peekLru = some (key, expiry)) :
    table.table.entries = table.popLru.table.entries ++ [⟨key, expiry⟩] := by
  obtain ⟨e, he, hpair⟩ := Option.map_eq_some_iff.mp h
  obtain ⟨rfl, rfl⟩ := Prod.mk.inj hpair
  exact (List.dropLast_append_getLast? e he).symm

lemma swept_of_live (h : table.peekLru = some (key, expiry)) (hlive : now < expiry) :
    swept table now = table := by
  refine LruCache.eq_of_entries rfl ?_
  change table.table.entries.rdropWhile _ = _
  rw [entries_of_peekLru h, List.rdropWhile_concat_neg _ _ _ (by simpa using hlive)]

lemma swept_popLru (h : table.peekLru = some (key, expiry)) (hover : expiry ≤ now) :
    swept table.popLru now = swept table now := by
  refine LruCache.eq_of_entries rfl ?_
  change table.popLru.table.entries.rdropWhile _ = table.table.entries.rdropWhile _
  rw [entries_of_peekLru h, List.rdropWhile_concat_pos _ _ _ (by simpa using hover)]

inductive Op (κ : Type*)
  | enter (key : κ) (now : ℕ)
  | leave (key : κ)
  | sweep (now : ℕ)

def Op.During (start finish : ℕ) : Op κ → Prop
  | .enter _ now => start ≤ now ∧ now ≤ finish
  | .leave _ => start ≤ finish
  | .sweep now => start ≤ now ∧ now ≤ finish

/-- The operation leaves the entry of a key that is over at `expiry`, unless for lack of room. -/
def Op.Spares (key : κ) (expiry : ℕ) : Op κ → Prop
  | .enter k now => k ≠ key ∧ now < expiry
  | .leave k => k ≠ key
  | .sweep now => now < expiry

def Op.entering : Op κ → ℕ
  | .enter _ _ => 1
  | _ => 0

/-- Newer entries last longer, and none lasts longer than what enters now. -/
structure ByDeadline (ttl now : ℕ) (table : LruCache κ ℕ) : Prop where
  sorted : table.table.entries.Pairwise fun x y => y.2 ≤ x.2
  soon : ∀ e ∈ table.table.entries, e.2 ≤ now + ttl

lemma byDeadline_new {cap : ℕ} (hcap : 0 < cap) : ByDeadline ttl now (.new cap hcap : LruCache κ ℕ) :=
  ⟨List.Pairwise.nil, by simp [LruCache.new]⟩

lemma ByDeadline.mono (h : ByDeadline ttl now table) (ht : now ≤ t) : ByDeadline ttl t table :=
  ⟨h.sorted, fun e he => (h.soon e he).trans (Nat.add_le_add_right ht ttl)⟩

lemma ByDeadline.of_sublist (h : ByDeadline ttl now table) {other : LruCache κ ℕ}
    (hsub : other.table.entries.Sublist table.table.entries) : ByDeadline ttl now other :=
  ⟨h.sorted.sublist hsub, fun e he => h.soon e (hsub.subset he)⟩

/-- In a sorted list, what is dropped from the end is all that is over. -/
lemma rdropWhile_eq_filter {l : List (Sigma fun _ : κ => ℕ)}
    (h : l.Pairwise fun x y => y.2 ≤ x.2) (now : ℕ) :
    (l.rdropWhile fun e => e.2 ≤ now) = l.filter fun e => now < e.2 := by
  induction l using List.reverseRecOn with
  | nil => rfl
  | append_singleton l e ih =>
    obtain ⟨hl, -, hlast⟩ := List.pairwise_append.mp h
    rw [List.filter_append]
    by_cases he : e.2 ≤ now
    · rw [List.rdropWhile_concat_pos _ _ _ (by simpa using he), ih hl]
      simp [he]
    · rw [List.rdropWhile_concat_neg _ _ _ (by simpa using he)]
      have hall : ∀ x ∈ l, now < x.2 := fun x hx =>
        (not_le.mp he).trans_le (hlast x hx e (List.mem_singleton_self e))
      rw [List.filter_eq_self.mpr (by simpa using hall)]
      simp [not_le.mp he]

/-- The entry of the key is there, with at most `r` newer ones. -/
def Held (table : LruCache κ ℕ) (key : κ) (expiry r : ℕ) : Prop :=
  ∃ newer older, table.table.entries = newer ++ ⟨key, expiry⟩ :: older ∧ newer.length ≤ r

lemma rdropWhile_append_cons {l l' : List (Sigma fun _ : κ => ℕ)} {e : Sigma fun _ : κ => ℕ}
    (he : now < e.2) : ((l ++ e :: l').rdropWhile fun x => x.2 ≤ now) =
      l ++ e :: l'.rdropWhile fun x => x.2 ≤ now := by
  induction l' using List.reverseRecOn with
  | nil => simp [he]
  | append_singleton l' x ih =>
    rw [← List.cons_append, ← List.append_assoc, List.rdropWhile_concat, List.rdropWhile_concat, ih]
    split_ifs <;> simp

/-- A sweep stops at the latest where it meets an entry that is not over. -/
lemma Held.swept (h : Held table key expiry r) (ht : t < expiry) :
    Held (swept table t) key expiry r := by
  obtain ⟨newer, older, he, hr⟩ := h
  refine ⟨newer, older.rdropWhile fun e => e.2 ≤ t, ?_, hr⟩
  change table.table.entries.rdropWhile _ = _
  rw [he, rdropWhile_append_cons ht]

variable [DecidableEq κ]

def apply (ttl : ℕ) (table : LruCache κ ℕ) : Op κ → LruCache κ ℕ
  | .enter key now => (swept table now).put key (now + ttl)
  | .leave key => table.pop key
  | .sweep now => swept table now

lemma apply_cap (op : Op κ) : (apply ttl table op).cap = table.cap := by
  cases op <;> rfl

lemma ByDeadline.mem_peek_swept (h : ByDeadline ttl now table) {v : ℕ} :
    v ∈ (swept table t).peek key ↔ v ∈ table.peek key ∧ t < v := by
  rw [LruCache.mem_peek, LruCache.mem_peek]
  change _ ∈ table.table.entries.rdropWhile _ ↔ _
  rw [rdropWhile_eq_filter h.sorted, List.mem_filter, decide_eq_true_iff]

lemma ByDeadline.put (h : ByDeadline ttl now table) (key : κ) :
    ByDeadline ttl now (table.put key (now + ttl)) := by
  have hold : ∀ e ∈ table.table.entries.kerase key, e.2 ≤ now + ttl :=
    fun e he => h.soon e ((List.kerase_sublist key _).subset he)
  constructor
  · rw [LruCache.entries_put]
    refine List.Pairwise.sublist (List.take_sublist _ _) ?_
    exact List.pairwise_cons.mpr ⟨hold, h.sorted.sublist (List.kerase_sublist key _)⟩
  · intro e he
    rw [LruCache.entries_put] at he
    rcases List.mem_cons.mp (List.mem_of_mem_take he) with rfl | he
    · exact le_rfl
    · exact hold e he

lemma ByDeadline.apply (h : ByDeadline ttl now table) {op : Op κ} (hop : op.During now t) :
    ByDeadline ttl t (apply ttl table op) := by
  cases op with
  | enter key s =>
    have hswept : ByDeadline ttl s (swept table s) :=
      (h.mono hop.1).of_sublist (kept_sublist table s)
    exact (hswept.put key).mono hop.2
  | leave key => exact (h.mono hop).of_sublist (List.kerase_sublist key _)
  | sweep s => exact (h.mono (hop.1.trans hop.2)).of_sublist (kept_sublist table s)

lemma Held.peek (h : Held table key expiry r) : table.peek key = some expiry := by
  obtain ⟨newer, older, he, -⟩ := h
  exact LruCache.mem_peek.mpr (by simp [he])

lemma held_put_self (v : ℕ) : Held (table.put key v) key v 0 := by
  refine ⟨[], (table.table.entries.kerase key).take (table.cap - 1), ?_, le_rfl⟩
  obtain ⟨n, hn⟩ : ∃ n, table.cap = n + 1 := ⟨table.cap - 1, by have := table.cap_pos; omega⟩
  simp [LruCache.entries_put, hn]

lemma kerase_split {newer older : List (Sigma fun _ : κ => ℕ)} {k : κ} (hk : k ≠ key) :
    ∃ newer' older', (newer ++ ⟨key, expiry⟩ :: older).kerase k =
      newer' ++ ⟨key, expiry⟩ :: older' ∧ newer'.length ≤ newer.length := by
  by_cases hmem : k ∈ newer.keys
  · exact ⟨newer.kerase k, older, List.kerase_append_left hmem,
      (List.kerase_sublist k newer).length_le⟩
  · refine ⟨newer, older.kerase k, ?_, le_rfl⟩
    rw [List.kerase_append_right hmem, List.kerase_cons_ne hk]

lemma Held.pop (h : Held table key expiry r) {k : κ} (hk : k ≠ key) :
    Held (table.pop k) key expiry r := by
  obtain ⟨newer, older, he, hr⟩ := h
  obtain ⟨newer', older', he', hr'⟩ := @kerase_split κ key expiry _ newer older k hk
  exact ⟨newer', older', (congrArg (List.kerase k) he).trans he', hr'.trans hr⟩

/-- A newer entry pushes the others one place down, and only the last one out. -/
lemma Held.put (h : Held table key expiry r) {k : κ} (hk : k ≠ key) (v : ℕ)
    (hroom : r + 1 < table.cap) : Held (table.put k v) key expiry (r + 1) := by
  obtain ⟨newer, older, he, hr⟩ := h
  obtain ⟨newer', older', he', hr'⟩ := @kerase_split κ key expiry _ newer older k hk
  have hlen : (⟨k, v⟩ :: newer').length ≤ r + 1 := by
    rw [List.length_cons]
    omega
  obtain ⟨n, hn⟩ : ∃ n, table.cap - (newer'.length + 1) = n + 1 :=
    ⟨table.cap - (newer'.length + 1) - 1, by omega⟩
  refine ⟨⟨k, v⟩ :: newer', older'.take n, ?_, hlen⟩
  rw [LruCache.entries_put, he, he', ← List.cons_append, List.take_append,
    List.take_of_length_le (by omega), List.length_cons, hn, List.take_succ_cons]

lemma Held.apply (h : Held table key expiry r) {op : Op κ} (hop : op.Spares key expiry)
    (hroom : r + op.entering < table.cap) :
    Held (apply ttl table op) key expiry (r + op.entering) := by
  cases op with
  | enter k t => exact (h.swept hop.2).put hop.1 (t + ttl) hroom
  | leave k => exact h.pop hop
  | sweep t => exact h.swept hop

end Protonet.ExpiryTable
