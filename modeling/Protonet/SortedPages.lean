import Mathlib

namespace Protonet.SortedPages

variable {α κ : Type*} [LinearOrder κ] {key : α → κ} {rows xs ys : List α} {size j n : ℕ}

/-- The rows, the greatest key first. -/
structure Lists (key : α → κ) (rows xs : List α) : Prop where
  perm : xs.Perm rows
  descending : xs.Pairwise fun x y => key y ≤ key x

def page (size j : ℕ) (xs : List α) : List α := (xs.drop (j * size)).take size

/-- How many rows come before those of the key. -/
def before (key : α → κ) (rows : List α) (t : κ) : ℕ := rows.countP fun x => t < key x

/-- How many rows come before those of lesser keys. -/
def upTo (key : α → κ) (rows : List α) (t : κ) : ℕ := rows.countP fun x => t ≤ key x

def Whole (key : α → κ) (size : ℕ) (rows : List α) (t : κ) : Prop :=
  before key rows t / size = (upTo key rows t - 1) / size

lemma flatten_pages (xs : List α) (size n : ℕ) :
    ((List.range n).map fun j => page size j xs).flatten = xs.take (n * size) := by
  induction n with
  | zero => simp
  | succ n ih =>
    rw [List.range_succ, List.map_append, List.flatten_append, ih, List.map_singleton,
      List.flatten_singleton, page, Nat.succ_mul, ← List.take_add]

lemma map_page {β : Type*} (f : α → β) : (page size j xs).map f = page size j (xs.map f) := by
  rw [page, page, List.map_take, List.map_drop]

lemma take_countP (h : xs.Pairwise fun x y => key y ≤ key x) {p : κ → Bool}
    (hp : ∀ s t, s ≤ t → p s = true → p t = true) :
    xs.take (xs.countP fun x => p (key x)) = xs.filter fun x => p (key x) := by
  induction xs with
  | nil => rfl
  | cons x xs ih =>
    obtain ⟨hx, hxs⟩ := List.pairwise_cons.mp h
    by_cases hkey : p (key x) = true
    · rw [List.countP_cons_of_pos (p := fun x => p (key x)) hkey,
        List.filter_cons_of_pos (p := fun x => p (key x)) hkey, List.take_succ_cons, ih hxs]
    · have hnone : ∀ y ∈ x :: xs, ¬p (key y) = true := by
        intro y hy hpy
        rcases List.mem_cons.mp hy with rfl | hy
        · exact hkey hpy
        · exact hkey (hp _ _ (hx y hy) hpy)
      rw [List.countP_eq_zero.mpr hnone, List.filter_eq_nil_iff.mpr hnone, List.take_zero]

variable [DecidableEq α] {x : α}

omit [DecidableEq α] in
lemma Lists.take_before (h : Lists key rows xs) (t : κ) :
    xs.take (before key rows t) = xs.filter fun x => t < key x := by
  have htake := take_countP h.descending (p := fun s => decide (t < s)) fun s s' hs ht => by
    rw [decide_eq_true_eq] at ht ⊢
    exact ht.trans_le hs
  rw [before, ← h.perm.countP_eq]
  exact htake

omit [DecidableEq α] in
lemma Lists.take_upTo (h : Lists key rows xs) (t : κ) :
    xs.take (upTo key rows t) = xs.filter fun x => t ≤ key x := by
  have htake := take_countP h.descending (p := fun s => decide (t ≤ s)) fun s s' hs ht => by
    rw [decide_eq_true_eq] at ht ⊢
    exact ht.trans hs
  rw [upTo, ← h.perm.countP_eq]
  exact htake

lemma Lists.count_before (h : Lists key rows xs) (hn : n ≤ before key rows (key x)) :
    (xs.take n).count x = 0 := by
  rw [List.count_eq_zero]
  intro hmem
  have hbefore := (List.take_sublist_take_left hn).subset hmem
  rw [h.take_before, List.mem_filter, decide_eq_true_eq] at hbefore
  exact lt_irrefl _ hbefore.2

lemma Lists.count_upTo (h : Lists key rows xs) (hn : upTo key rows (key x) ≤ n) :
    (xs.take n).count x = rows.count x := by
  apply le_antisymm
  · rw [← h.perm.count_eq x]
    exact (List.take_sublist n xs).count_le x
  · have hle := (List.take_sublist_take_left (l := xs) hn).count_le x
    rwa [h.take_upTo, List.count_filter (by simp), h.perm.count_eq x] at hle

/-- A row whose key no boundary divides is on one page of every listing. -/
lemma Lists.count_page (h : Lists key rows xs) (hsize : 0 < size) (hx : x ∈ rows)
    (hwhole : Whole key size rows (key x)) : (page size j xs).count x =
      if j = before key rows (key x) / size then rows.count x else 0 := by
  have hsplit : (xs.take ((j + 1) * size)).count x =
      (xs.take (j * size)).count x + (page size j xs).count x := by
    rw [Nat.succ_mul, List.take_add, List.count_append, page]
  have hlt : before key rows (key x) < upTo key rows (key x) := by
    by_contra hle
    have hnone := h.count_before (le_refl (before key rows (key x)))
    rw [h.count_upTo (not_lt.mp hle)] at hnone
    exact List.count_eq_zero.mp hnone hx
  generalize hk : before key rows (key x) / size = k
  have hfrom : k * size ≤ before key rows (key x) := hk ▸ Nat.div_mul_le_self _ _
  have hto : upTo key rows (key x) ≤ (k + 1) * size := by
    have hlast : (upTo key rows (key x) - 1) / size < k + 1 := by
      rw [← hwhole, hk]
      exact Nat.lt_succ_self k
    have hend := (Nat.div_lt_iff_lt_mul hsize).mp hlast
    omega
  rcases lt_trichotomy j k with hj | rfl | hj
  · rw [if_neg hj.ne]
    have hend : (j + 1) * size ≤ k * size := Nat.mul_le_mul_right size hj
    rw [h.count_before (hend.trans hfrom)] at hsplit
    omega
  · rw [if_pos rfl]
    rw [h.count_before hfrom, h.count_upTo hto] at hsplit
    omega
  · rw [if_neg hj.ne']
    have hstart : (k + 1) * size ≤ j * size := Nat.mul_le_mul_right size hj
    have hend : j * size ≤ (j + 1) * size := Nat.mul_le_mul_right size (Nat.le_succ j)
    rw [h.count_upTo (hto.trans hstart), h.count_upTo ((hto.trans hstart).trans hend)] at hsplit
    omega

lemma sum_indicator (k c n : ℕ) :
    ((List.range n).map fun j => if j = k then c else 0).sum = if k < n then c else 0 := by
  induction n with
  | zero => simp
  | succ n ih =>
    rw [List.range_succ, List.map_append, List.sum_append, ih, List.map_singleton,
      List.sum_singleton]
    split_ifs <;> omega

/-- Whatever listing each page comes from, such a row is on the pages as often as among the
rows. -/
theorem count_pages {listing : ℕ → List α} (h : ∀ j, Lists key rows (listing j)) (hsize : 0 < size)
    (hall : rows.length ≤ n * size) (hx : x ∈ rows) (hwhole : Whole key size rows (key x)) :
    ((List.range n).map fun j => page size j (listing j)).flatten.count x = rows.count x := by
  have hcounts : (List.range n).map (List.count x ∘ fun j => page size j (listing j)) =
      (List.range n).map fun j =>
        if j = before key rows (key x) / size then rows.count x else 0 :=
    List.map_congr_left fun j _ => (h j).count_page hsize hx hwhole
  have hlt : before key rows (key x) / size < n := by
    rw [Nat.div_lt_iff_lt_mul hsize]
    refine lt_of_lt_of_le ?_ hall
    refine lt_of_le_of_ne List.countP_le_length fun heq => ?_
    have hself := List.countP_eq_length.mp heq x hx
    rw [decide_eq_true_eq] at hself
    exact lt_irrefl _ hself
  rw [List.count_flatten, List.map_map, hcounts, sum_indicator, if_pos hlt]

omit [DecidableEq α] in
theorem Lists.map_key (h : Lists key rows xs) (h' : Lists key rows ys) :
    xs.map key = ys.map key := by
  refine List.Perm.eq_of_pairwise (fun s t _ _ (hst : t ≤ s) (hts : s ≤ t) => ?_)
    (List.pairwise_map.mpr h.descending) (List.pairwise_map.mpr h'.descending)
    ((h.perm.trans h'.perm.symm).map key)
  exact le_antisymm hts hst

omit [DecidableEq α] in
theorem keys_pages {listing : ℕ → List α} (h : ∀ j, Lists key rows (listing j))
    (hall : rows.length ≤ n * size) (hxs : Lists key rows xs) :
    ((List.range n).map fun j => page size j (listing j)).flatten.map key = xs.map key := by
  have hsame : (List.range n).map (List.map key ∘ fun j => page size j (listing j)) =
      (List.range n).map fun j => page size j (xs.map key) :=
    List.map_congr_left fun j _ => by
      rw [Function.comp_apply, map_page, (h j).map_key hxs]
  have hlength : (xs.map key).length ≤ n * size := by
    rw [List.length_map, hxs.perm.length_eq]
    exact hall
  rw [List.map_flatten, List.map_map, hsame, flatten_pages, List.take_of_length_le hlength]

omit [DecidableEq α] in
theorem Lists.unique (h : Lists key rows xs) (h' : Lists key rows ys)
    (hnodup : (rows.map key).Nodup) : xs = ys := by
  refine List.Perm.eq_of_pairwise (fun x y hx hy hxy hyx => ?_) h.descending h'.descending
    (h.perm.trans h'.perm.symm)
  exact List.inj_on_of_nodup_map hnodup (h.perm.mem_iff.mp hx) (h'.perm.mem_iff.mp hy)
    (le_antisymm hyx hxy)

omit [DecidableEq α] in
theorem flatten_unique {listing : ℕ → List α} (h : ∀ j, Lists key rows (listing j))
    (hall : rows.length ≤ n * size) (hxs : Lists key rows xs) (hnodup : (rows.map key).Nodup) :
    ((List.range n).map fun j => page size j (listing j)).flatten = xs := by
  have hsame : (List.range n).map (fun j => page size j (listing j)) =
      (List.range n).map fun j => page size j xs :=
    List.map_congr_left fun j _ => by rw [(h j).unique hxs hnodup]
  rw [hsame, flatten_pages, List.take_of_length_le (hxs.perm.length_eq.trans_le hall)]

end Protonet.SortedPages
