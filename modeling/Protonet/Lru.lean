import Mathlib

namespace Protonet.Lru

structure LruCache (κ ν : Type*) where
  cap : ℕ
  cap_pos : 0 < cap
  table : AList (fun _ : κ => ν)
  bounded : table.entries.length ≤ cap

variable {κ ν : Type*}

def LruCache.new (cap : ℕ) (h : 0 < cap) : LruCache κ ν := ⟨cap, h, ∅, by simp⟩

def LruCache.len (c : LruCache κ ν) : ℕ := c.table.entries.length

/-- The keys a cache binds, most recent first. -/
def LruCache.keys (c : LruCache κ ν) : List κ := c.table.keys

theorem LruCache.len_eq_keys (c : LruCache κ ν) : c.len = c.keys.length := by
  simp [LruCache.len, LruCache.keys, AList.keys, List.keys]

theorem LruCache.keys_nodup (c : LruCache κ ν) : c.keys.Nodup := c.table.keys_nodup

def LruCache.peekLru (c : LruCache κ ν) : Option (κ × ν) :=
  c.table.entries.getLast?.map fun e => (e.1, e.2)

def LruCache.popLru (c : LruCache κ ν) : LruCache κ ν :=
  ⟨c.cap, c.cap_pos,
    ⟨c.table.entries.dropLast, c.table.nodupKeys.sublist (List.dropLast_sublist _)⟩,
    (List.dropLast_sublist _).length_le.trans c.bounded⟩

theorem LruCache.eq_of_entries {c d : LruCache κ ν} (hcap : c.cap = d.cap)
    (h : c.table.entries = d.table.entries) : c = d := by
  obtain ⟨cap, hpos, x, hx⟩ := c
  obtain ⟨cap', hpos', y, hy⟩ := d
  obtain rfl : cap = cap' := hcap
  obtain rfl : x = y := AList.ext h
  rfl

def LruCache.Every (P : κ → ν → Prop) (c : LruCache κ ν) : Prop :=
  ∀ e ∈ c.table.entries, P e.1 e.2

variable {P Q : κ → ν → Prop} {c : LruCache κ ν}

theorem every_new (cap : ℕ) (h : 0 < cap) : (LruCache.new cap h).Every P := by
  simp [LruCache.Every, LruCache.new]

theorem LruCache.Every.mono (h : c.Every P) (hPQ : ∀ k v, P k v → Q k v) : c.Every Q :=
  fun e he => hPQ e.1 e.2 (h e he)

theorem LruCache.Every.popLru (h : c.Every P) : c.popLru.Every P :=
  fun e he => h e ((List.dropLast_sublist _).subset he)

variable [DecidableEq κ]

/-- Look a key up without touching the order. -/
def LruCache.peek (c : LruCache κ ν) (k : κ) : Option ν := c.table.lookup k

/-- The cache after a `get` of `k`: a present key becomes the most recent one. -/
def LruCache.promote (c : LruCache κ ν) (k : κ) : LruCache κ ν :=
  match h : c.table.lookup k with
  | none => c
  | some v =>
    ⟨c.cap, c.cap_pos, c.table.insert k v, by
      have hk : k ∈ c.table.keys := AList.mem_keys.mp (AList.lookup_isSome.mp (by simp [h]))
      have hl : (c.table.keys.erase k).length + 1 = c.table.keys.length := by
        rw [List.length_erase_of_mem hk]
        have := List.length_pos_of_mem hk
        omega
      have hb := c.bounded
      have hi := congrArg List.length (AList.keys_insert (a := k) (b := v) c.table)
      simp only [AList.keys, List.keys, List.length_cons, List.length_map] at hi hl
      omega⟩

/-- Store a value as the most recent entry, dropping the last one of a full cache. -/
def LruCache.put (c : LruCache κ ν) (k : κ) (v : ν) : LruCache κ ν :=
  ⟨c.cap, c.cap_pos,
    ⟨(c.table.insert k v).entries.take c.cap,
      (c.table.insert k v).nodupKeys.sublist (List.take_sublist _ _)⟩,
    by simp⟩

def LruCache.pop (c : LruCache κ ν) (k : κ) : LruCache κ ν :=
  ⟨c.cap, c.cap_pos, c.table.erase k, by
    have hl : (c.table.keys.erase k).length ≤ c.table.keys.length := List.length_erase_le
    have hb := c.bounded
    have he := congrArg List.length (AList.keys_erase k c.table)
    simp only [AList.keys, List.keys, List.length_map] at he hl
    omega⟩

@[simp] theorem LruCache.peek_new (cap : ℕ) (h : 0 < cap) (k : κ) :
    (LruCache.new cap h : LruCache κ ν).peek k = none := rfl

@[simp] theorem LruCache.promote_cap (c : LruCache κ ν) (k : κ) : (c.promote k).cap = c.cap := by
  unfold LruCache.promote
  split <;> rfl

@[simp] theorem LruCache.put_cap (c : LruCache κ ν) (k : κ) (v : ν) : (c.put k v).cap = c.cap := rfl

@[simp] theorem LruCache.pop_cap (c : LruCache κ ν) (k : κ) : (c.pop k).cap = c.cap := rfl

/-- Promotion reorders the cache and changes no binding. -/
@[simp] theorem LruCache.peek_promote (c : LruCache κ ν) (k k' : κ) :
    (c.promote k).peek k' = c.peek k' := by
  unfold LruCache.promote LruCache.peek
  split
  · rfl
  · next v h =>
    by_cases hk : k' = k
    · subst hk
      simp [h]
    · exact AList.lookup_insert_ne hk

theorem LruCache.peek_pop (c : LruCache κ ν) (k k' : κ) :
    (c.pop k).peek k' = if k' = k then none else c.peek k' := by
  unfold LruCache.pop LruCache.peek
  split_ifs with h
  · subst h
    exact AList.lookup_erase k' c.table
  · exact AList.lookup_erase_ne h

@[simp] theorem LruCache.peek_pop_self (c : LruCache κ ν) (k : κ) : (c.pop k).peek k = none := by
  simp [LruCache.peek_pop]

/-- A prefix of the entries can only lose bindings. -/
theorem dlookup_take {l : List (Sigma fun _ : κ => ν)} {n : ℕ} {k : κ} {v : ν}
    (h : (l.take n).dlookup k = some v) : l.dlookup k = some v := by
  induction l generalizing n with
  | nil => simp at h
  | cons e l ih =>
    cases n with
    | zero => simp at h
    | succ n =>
      by_cases he : e.1 = k
      · obtain ⟨a, b⟩ := e
        simp only at he
        subst he
        simpa using h
      · obtain ⟨a, b⟩ := e
        rw [List.take_succ_cons, List.dlookup_cons_ne _ _ (Ne.symm he)] at h
        rw [List.dlookup_cons_ne _ _ (Ne.symm he)]
        exact ih h

@[simp] theorem LruCache.peek_put_self (c : LruCache κ ν) (k : κ) (v : ν) :
    (c.put k v).peek k = some v := by
  have hc := c.cap_pos
  obtain ⟨n, hn⟩ : ∃ n, c.cap = n + 1 := ⟨c.cap - 1, by omega⟩
  simp [LruCache.put, LruCache.peek, AList.lookup, AList.entries_insert, hn]

theorem LruCache.peek_of_peek_put {c : LruCache κ ν} {k k' : κ} {v w : ν} (hk : k' ≠ k)
    (h : (c.put k v).peek k' = some w) : c.peek k' = some w := by
  have h' : (c.table.insert k v).lookup k' = some w := dlookup_take h
  rwa [AList.lookup_insert_ne hk] at h'

/-- Storing into a cache with room, or over a present key, drops nothing. -/
theorem LruCache.peek_put_of_room {c : LruCache κ ν} {k k' : κ} {v : ν}
    (hroom : k ∈ c.table ∨ c.len < c.cap) (hk : k' ≠ k) : (c.put k v).peek k' = c.peek k' := by
  have hlen : (c.table.insert k v).entries.length ≤ c.cap := by
    have hi := congrArg List.length (AList.keys_insert (a := k) (b := v) c.table)
    simp only [AList.keys, List.keys, List.length_cons, List.length_map] at hi
    rcases hroom with hm | hl
    · have hpos := List.length_pos_of_mem (AList.mem_keys.mp hm)
      have he := List.length_erase_of_mem (AList.mem_keys.mp hm)
      have hb := c.bounded
      simp only [AList.keys, List.keys, List.length_map] at he hpos
      omega
    · have he : (c.table.keys.erase k).length ≤ c.table.keys.length := List.length_erase_le
      unfold LruCache.len at hl
      simp only [AList.keys, List.keys, List.length_map] at he
      omega
  have ht : (c.put k v).table.entries = (c.table.insert k v).entries :=
    List.take_of_length_le hlen
  unfold LruCache.peek AList.lookup
  rw [ht]
  exact AList.lookup_insert_ne hk

theorem LruCache.mem_keys {c : LruCache κ ν} {k : κ} : k ∈ c.keys ↔ (c.peek k).isSome :=
  (AList.mem_keys (s := c.table)).symm.trans AList.lookup_isSome.symm

/-- A cache whose keys all come from a set no larger than its capacity never drops a key of
that set. -/
theorem LruCache.room_of_keys_subset {c : LruCache κ ν} {s : Finset κ} {k : κ}
    (hs : ∀ x ∈ c.keys, x ∈ s) (hk : k ∈ s) (hcard : s.card ≤ c.cap) :
    k ∈ c.table ∨ c.len < c.cap := by
  by_cases hm : k ∈ c.table
  · exact .inl hm
  · right
    have hsub : c.keys.toFinset ⊆ s.erase k := by
      intro x hx
      have hx' : x ∈ c.keys := by simpa using hx
      refine Finset.mem_erase.mpr ⟨?_, hs x hx'⟩
      rintro rfl
      exact hm (AList.mem_keys.mpr hx')
    have hle := Finset.card_le_card hsub
    rw [List.toFinset_card_of_nodup c.keys_nodup, Finset.card_erase_of_mem hk] at hle
    have hpos : 0 < s.card := Finset.card_pos.mpr ⟨k, hk⟩
    rw [LruCache.len_eq_keys]
    omega

theorem LruCache.mem_peek {c : LruCache κ ν} {k : κ} {v : ν} :
    v ∈ c.peek k ↔ ⟨k, v⟩ ∈ c.table.entries := List.mem_dlookup_iff c.table.nodupKeys

theorem LruCache.entries_put (c : LruCache κ ν) (k : κ) (v : ν) :
    (c.put k v).table.entries = (⟨k, v⟩ :: c.table.entries.kerase k).take c.cap := by
  simp [LruCache.put, AList.entries_insert]

theorem LruCache.Every.peek (h : c.Every P) {k : κ} {v : ν} (hv : v ∈ c.peek k) : P k v :=
  h ⟨k, v⟩ (LruCache.mem_peek.mp hv)

theorem LruCache.Every.put (h : c.Every P) {k : κ} {v : ν} (hv : P k v) : (c.put k v).Every P := by
  intro e he
  rw [LruCache.entries_put] at he
  rcases List.mem_cons.mp (List.mem_of_mem_take he) with rfl | he
  · exact hv
  · exact h e ((List.kerase_sublist k _).subset he)

theorem LruCache.Every.pop (h : c.Every P) (k : κ) : (c.pop k).Every P :=
  fun e he => h e ((List.kerase_sublist k _).subset he)

end Protonet.Lru
