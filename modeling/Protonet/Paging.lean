import Mathlib

namespace Protonet.Paging

variable {α β : Type*} [LinearOrder β] {key : α → β} {l : List α} {limit k : ℕ}

def following (key : α → β) (l : List α) : Option α → List α
  | none => l
  | some c => l.filter fun x => decide (key c < key x)

lemma eq_of_ordered {l l' : List α} (hl : l.Pairwise fun x y => key x < key y)
    (hl' : l'.Pairwise fun x y => key x < key y) (h : ∀ x, x ∈ l ↔ x ∈ l') : l = l' := by
  have hne : ∀ {x y : α}, key x < key y → x ≠ y := fun hlt heq => hlt.ne (congrArg key heq)
  have hperm : l.Perm l' := (List.perm_ext_iff_of_nodup (hl.imp hne) (hl'.imp hne)).mpr h
  exact hperm.eq_of_pairwise (fun x y _ _ hxy hyx => absurd hxy (lt_asymm hyx)) hl hl'

/-- A page of at most `limit` elements, and its last one when more follow. -/
def page (limit : ℕ) (l : List α) : List α × Option α :=
  let all := l.take (limit + 1)
  if all.length > limit then (all.take limit, (all.take limit).getLast?) else (all, none)

lemma page_long (h : limit < l.length) :
    page limit l = (l.take limit, (l.take limit).getLast?) := by
  have hlen : (l.take (limit + 1)).length > limit := by
    rw [List.length_take]
    omega
  have htake : (l.take (limit + 1)).take limit = l.take limit := by
    rw [List.take_take, Nat.min_eq_left (Nat.le_succ limit)]
  simp only [page, hlen, if_true, htake]

lemma page_short (h : l.length ≤ limit) : page limit l = (l, none) := by
  have htake : l.take (limit + 1) = l := List.take_of_length_le (by omega)
  have hlen : ¬ l.length > limit := by omega
  simp only [page, htake, hlen, if_false]

lemma length_page_le : (page limit l).1.length ≤ limit := by
  by_cases h : limit < l.length
  · rw [page_long h]
    exact List.length_take_le _ _
  · rw [page_short (not_lt.mp h)]
    exact not_lt.mp h

lemma page_full (h : limit < l.length) (hlimit : 0 < limit) :
    (page limit l).1.length = limit ∧ ∃ c, (page limit l).2 = some c := by
  have hlength : (l.take limit).length = limit := List.length_take_of_le h.le
  have hne : l.take limit ≠ [] := List.ne_nil_of_length_pos (hlimit.trans_eq hlength.symm)
  rw [page_long h]
  exact ⟨hlength, _, List.getLast?_eq_some_getLast hne⟩

lemma following_getElem (h : l.Pairwise fun x y => key x < key y) {j : ℕ} (hj : j < l.length) :
    following key l (some l[j]) = l.drop (j + 1) := by
  induction l generalizing j with
  | nil => simp at hj
  | cons a t ih =>
    obtain ⟨ha, ht⟩ := List.pairwise_cons.mp h
    cases j with
    | zero =>
      have hall : t.filter (fun x => decide (key a < key x)) = t :=
        List.filter_eq_self.mpr fun x hx => by simpa using ha x hx
      simp [following, hall]
    | succ j =>
      have hj' : j < t.length := by simpa using hj
      have hnot : ¬ key t[j] < key a := not_lt.mpr (ha _ (List.getElem_mem hj')).le
      have hrest := ih ht hj'
      simp only [following] at hrest ⊢
      rw [List.getElem_cons_succ, List.filter_cons, if_neg (by simpa using hnot), hrest]
      rfl

/-- The last element of a page that is not the last one is the cursor of what is left. -/
lemma page_next (hl : l.Pairwise fun x y => key x < key y) (hlimit : 0 < limit) {j : ℕ}
    (hlong : limit < (l.drop j).length) : ∃ c,
      page limit (l.drop j) = ((l.drop j).take limit, some c) ∧
        following key l (some c) = l.drop (j + limit) := by
  rw [List.length_drop] at hlong
  have hj : j + (limit - 1) < l.length := by omega
  have hsucc : j + (limit - 1) + 1 = j + limit := by omega
  refine ⟨l[j + (limit - 1)], ?_, ?_⟩
  · rw [page_long (by rw [List.length_drop]; omega), List.getLast?_eq_getElem?, List.length_take,
      List.length_drop, Nat.min_eq_left (by omega), List.getElem?_take_of_lt (by omega),
      List.getElem?_drop, List.getElem?_eq_getElem hj]
  · rw [following_getElem hl hj, hsucc]

/-- The cursor stands before page number `k` of the listing. -/
def AtPage (key : α → β) (l : List α) (limit k : ℕ) (cursor : Option α) : Prop :=
  following key l cursor = l.drop (limit * k)

lemma atPage_start : AtPage key l limit 0 none := rfl

variable {cursor : Option α}

lemma AtPage.next (h : AtPage key l limit k cursor) (hl : l.Pairwise fun x y => key x < key y)
    (hlimit : 0 < limit) {c : α} (hc : (page limit (following key l cursor)).2 = some c) :
    AtPage key l limit (k + 1) (some c) := by
  rw [h] at hc
  by_cases hlong : limit < (l.drop (limit * k)).length
  · obtain ⟨next, hpage, hnext⟩ := page_next hl hlimit hlong
    rw [hpage, Option.some.injEq] at hc
    unfold AtPage
    rw [← hc, hnext, Nat.mul_succ]
  · rw [page_short (not_lt.mp hlong)] at hc
    simp at hc

lemma AtPage.holds (h : AtPage key l limit k cursor) (hlimit : 0 < limit) {i : ℕ}
    (hi : i < l.length) (hk : i / limit = k) :
    (page limit (following key l cursor)).1[i % limit]? = some l[i] := by
  have hmod : limit * k + i % limit = i := by
    rw [← hk]
    exact Nat.div_add_mod i limit
  have hoff : i % limit < limit := Nat.mod_lt i hlimit
  have hget : (l.drop (limit * k))[i % limit]? = some l[i] := by
    rw [List.getElem?_drop, List.getElem?_eq_getElem (by omega), Option.some.injEq]
    congr 1
  rw [h]
  by_cases hlong : limit < (l.drop (limit * k)).length
  · rw [page_long hlong, List.getElem?_take_of_lt hoff, hget]
  · rw [page_short (not_lt.mp hlong), hget]

lemma AtPage.more (h : AtPage key l limit k cursor) {i : ℕ} (hi : i < l.length)
    (hk : k < i / limit) : ∃ c, (page limit (following key l cursor)).2 = some c := by
  have hlimit : 0 < limit := by
    by_contra hzero
    rw [Nat.eq_zero_of_not_pos hzero, Nat.div_zero] at hk
    exact Nat.not_lt_zero k hk
  have hle : limit * (k + 1) ≤ i := (Nat.mul_le_mul_left limit hk).trans (Nat.mul_div_le i limit)
  rw [Nat.mul_succ] at hle
  have hlong : limit < (l.drop (limit * k)).length := by
    rw [List.length_drop]
    omega
  rw [h]
  exact (page_full hlong hlimit).2

/-- A walk from a cursor to the end, with a limit for each page; `none` when the fuel runs out. -/
def walk (key : α → β) (l : List α) : ℕ → (ℕ → ℕ) → Option α → Option (List α)
  | 0, _, _ => none
  | fuel + 1, limits, cursor =>
    match page (limits 0) (following key l cursor) with
    | (elements, none) => some elements
    | (elements, some next) =>
      (walk key l fuel (fun i => limits (i + 1)) (some next)).map (elements ++ ·)

/-- Whatever the limits, a long enough walk lists what follows its cursor, in order. -/
lemma walk_eq (hl : l.Pairwise fun x y => key x < key y) {fuel j : ℕ} {limits : ℕ → ℕ}
    (hlimits : ∀ i, 0 < limits i) (hcursor : following key l cursor = l.drop j)
    (hfuel : (l.drop j).length < fuel) : walk key l fuel limits cursor = some (l.drop j) := by
  induction fuel generalizing j limits cursor with
  | zero => exact absurd hfuel (Nat.not_lt_zero _)
  | succ fuel ih =>
    rw [walk, hcursor]
    by_cases hlong : limits 0 < (l.drop j).length
    · obtain ⟨c, hpage, hnext⟩ := page_next hl (hlimits 0) hlong
      have hrest : (l.drop (j + limits 0)).length < fuel := by
        have hpos := hlimits 0
        rw [List.length_drop] at hfuel hlong ⊢
        omega
      simp only [hpage]
      rw [ih (fun i => hlimits (i + 1)) hnext hrest, Option.map_some, Option.some.injEq,
        ← List.drop_drop, List.take_append_drop]
    · rw [page_short (not_lt.mp hlong)]

def Beyond (key : α → β) : Option α → α → Prop
  | none, _ => True
  | some c, x => key c < key x

/-- The pages of a walk that finds another listing for each page; `none` when the fuel runs out. -/
def roam (key : α → β) : ℕ → (ℕ → List α) → (ℕ → ℕ) → Option α → Option (List (List α))
  | 0, _, _, _ => none
  | fuel + 1, listings, limits, cursor =>
    match page (limits 0) (following key (listings 0) cursor) with
    | (elements, none) => some [elements]
    | (elements, some next) =>
      (roam key fuel (fun i => listings (i + 1)) (fun i => limits (i + 1)) (some next)).map
        (elements :: ·)

variable {x : α} {fuel : ℕ} {listings : ℕ → List α} {limits : ℕ → ℕ} {pages : List (List α)}

lemma mem_following : x ∈ following key l cursor ↔ x ∈ l ∧ Beyond key cursor x := by
  cases cursor with
  | none => simp [following, Beyond]
  | some c => simp [following, Beyond]

lemma following_ordered (hl : l.Pairwise fun x y => key x < key y) :
    (following key l cursor).Pairwise fun x y => key x < key y := by
  cases cursor with
  | none => exact hl
  | some c => exact hl.filter _

lemma Beyond.trans {c : α} (hc : Beyond key cursor c) (hx : Beyond key (some c) x) :
    Beyond key cursor x := by
  cases cursor with
  | none => trivial
  | some d => exact lt_trans hc hx

/-- A page with more to follow ends in the cursor, and holds what the listing has up to there. -/
lemma page_cut (hl : l.Pairwise fun x y => key x < key y) {elements : List α} {c : α}
    (h : page limit l = (elements, some c)) :
    c ∈ elements ∧ (∀ x ∈ elements, x ∈ l ∧ key x ≤ key c) ∧
      elements.Pairwise (fun x y => key x < key y) ∧
      ∀ x ∈ l, ¬ Beyond key (some c) x → x ∈ elements := by
  by_cases hlong : limit < l.length
  · rw [page_long hlong, Prod.mk.injEq] at h
    obtain ⟨rfl, hlast⟩ := h
    obtain ⟨front, hfront⟩ := List.getLast?_eq_some_iff.mp hlast
    have hsplit : l = front ++ c :: l.drop limit := by
      rw [List.append_cons, ← hfront, List.take_append_drop]
    have hordered := hl
    rw [hsplit] at hordered
    obtain ⟨-, hrest, hbefore⟩ := List.pairwise_append.mp hordered
    rw [hfront]
    refine ⟨by simp, fun x hx => ?_, ?_, fun x hx hnot => ?_⟩
    · refine ⟨List.mem_of_mem_take (hfront ▸ hx), ?_⟩
      rcases List.mem_append.mp hx with hx | hx
      · exact (hbefore x hx c List.mem_cons_self).le
      · rw [List.mem_singleton.mp hx]
    · rw [← hfront]
      exact hl.sublist (List.take_sublist _ _)
    · rw [hsplit, List.append_cons, List.mem_append] at hx
      refine hx.resolve_right fun hdrop => hnot ?_
      exact (List.pairwise_cons.mp hrest).1 x hdrop
  · rw [page_short (not_lt.mp hlong)] at h
    cases h

lemma page_last {elements : List α} (hlimit : 0 < limit) (h : page limit l = (elements, none)) :
    elements = l := by
  by_cases hlong : limit < l.length
  · obtain ⟨-, c, hc⟩ := page_full hlong hlimit
    rw [h] at hc
    cases hc
  · rw [page_short (not_lt.mp hlong), Prod.mk.injEq] at h
    exact h.1.symm

/-- One page of the walk: it is the last one, or the walk goes on behind its last element. -/
lemma roam_succ (h : roam key (fuel + 1) listings limits cursor = some pages) :
    (∃ elements, page (limits 0) (following key (listings 0) cursor) = (elements, none) ∧
      pages = [elements]) ∨
    ∃ elements c rest,
      page (limits 0) (following key (listings 0) cursor) = (elements, some c) ∧
      roam key fuel (fun i => listings (i + 1)) (fun i => limits (i + 1)) (some c) = some rest ∧
      pages = elements :: rest := by
  unfold roam at h
  rcases hpage : page (limits 0) (following key (listings 0) cursor) with ⟨elements, _ | c⟩
  · rw [hpage] at h
    exact .inl ⟨elements, rfl, (Option.some.inj h).symm⟩
  · rw [hpage] at h
    obtain ⟨rest, hrest, rfl⟩ := Option.map_eq_some_iff.mp h
    exact .inr ⟨elements, c, rest, rfl, hrest, rfl⟩

lemma roam_mono {more : ℕ} (h : roam key fuel listings limits cursor = some pages)
    (hmore : fuel ≤ more) : roam key more listings limits cursor = some pages := by
  induction fuel generalizing more listings limits cursor pages with
  | zero => cases h
  | succ fuel ih =>
    obtain ⟨k, rfl⟩ : ∃ k, more = k + 1 := Nat.exists_eq_succ_of_ne_zero (by omega)
    rcases roam_succ h with ⟨elements, hpage, rfl⟩ | ⟨elements, c, rest, hpage, hrest, rfl⟩
    · unfold roam
      rw [hpage]
    · unfold roam
      rw [hpage]
      dsimp only
      rw [ih hrest (Nat.succ_le_succ_iff.mp hmore), Option.map_some]

/-- Whatever the listings, the pages go on where the one before ended, so nothing comes twice. -/
lemma roam_ordered (hl : ∀ i, (listings i).Pairwise fun x y => key x < key y)
    (hlimits : ∀ i, 0 < limits i) (h : roam key fuel listings limits cursor = some pages) :
    pages.flatten.Pairwise (fun x y => key x < key y) ∧
      ∀ x ∈ pages.flatten, Beyond key cursor x := by
  induction fuel generalizing listings limits cursor pages with
  | zero => cases h
  | succ fuel ih =>
    have hordered : (following key (listings 0) cursor).Pairwise fun x y => key x < key y :=
      following_ordered (hl 0)
    rcases roam_succ h with ⟨elements, hpage, rfl⟩ | ⟨elements, c, rest, hpage, hrest, rfl⟩
    · obtain rfl := page_last (hlimits 0) hpage
      rw [List.flatten_singleton]
      exact ⟨hordered, fun x hx => (mem_following.mp hx).2⟩
    · obtain ⟨hc, hle, hfirst, -⟩ := page_cut hordered hpage
      obtain ⟨hlater, hbeyond⟩ := ih (fun i => hl (i + 1)) (fun i => hlimits (i + 1)) hrest
      rw [List.flatten_cons]
      refine ⟨List.pairwise_append.mpr ⟨hfirst, hlater, fun x hx y hy => ?_⟩, fun x hx => ?_⟩
      · exact (hle x hx).2.trans_lt (hbeyond y hy)
      · rcases List.mem_append.mp hx with hx | hx
        · exact (mem_following.mp (hle x hx).1).2
        · exact Beyond.trans (mem_following.mp (hle c hc).1).2 (hbeyond x hx)

lemma mem_roam (hl : ∀ i, (listings i).Pairwise fun x y => key x < key y)
    (hlimits : ∀ i, 0 < limits i) (h : roam key fuel listings limits cursor = some pages)
    (hx : Beyond key cursor x) (hmem : ∀ i < pages.length, x ∈ listings i) :
    x ∈ pages.flatten := by
  induction fuel generalizing listings limits cursor pages with
  | zero => cases h
  | succ fuel ih =>
    rcases roam_succ h with ⟨elements, hpage, rfl⟩ | ⟨elements, c, rest, hpage, hrest, rfl⟩
    · obtain rfl := page_last (hlimits 0) hpage
      rw [List.flatten_singleton]
      exact mem_following.mpr ⟨hmem 0 Nat.one_pos, hx⟩
    · obtain ⟨-, -, -, hcut⟩ := page_cut (following_ordered (hl 0)) hpage
      rw [List.flatten_cons, List.mem_append]
      by_cases hc : Beyond key (some c) x
      · right
        refine ih (fun i => hl (i + 1)) (fun i => hlimits (i + 1)) hrest hc fun i hi => ?_
        exact hmem (i + 1) (Nat.succ_lt_succ hi)
      · left
        exact hcut x (mem_following.mpr ⟨hmem 0 (Nat.succ_pos _), hx⟩) hc

/-- How many keys below the bound come after the cursor, and one for a last empty page. -/
def ahead (key : α → ℕ) (bound : ℕ) : Option α → ℕ
  | none => bound + 1
  | some c => bound - key c

/-- Cursors only go up, so a walk under a bound ends. -/
lemma roam_ends {key : α → ℕ} {bound : ℕ} (hkey : ∀ x, key x < bound)
    (hl : ∀ i, (listings i).Pairwise fun x y => key x < key y)
    (hfuel : ahead key bound cursor ≤ fuel) :
    ∃ pages, roam key fuel listings limits cursor = some pages := by
  induction fuel generalizing listings limits cursor with
  | zero =>
    cases cursor with
    | none => exact absurd hfuel (Nat.not_succ_le_zero bound)
    | some c =>
      have hc := hkey c
      simp only [ahead] at hfuel
      omega
  | succ fuel ih =>
    unfold roam
    rcases hpage : page (limits 0) (following key (listings 0) cursor) with ⟨elements, _ | c⟩
    · exact ⟨_, rfl⟩
    · obtain ⟨hmem, hle, -⟩ := page_cut (following_ordered (hl 0)) hpage
      have hbeyond := (mem_following.mp (hle c hmem).1).2
      have hfewer : ahead key bound (some c) ≤ fuel := by
        cases cursor with
        | none => exact (Nat.sub_le bound _).trans (Nat.succ_le_succ_iff.mp hfuel)
        | some d =>
          have hc := hkey c
          simp only [ahead, Beyond] at hfuel hbeyond ⊢
          omega
      obtain ⟨rest, hrest⟩ : ∃ rest, roam key fuel (fun i => listings (i + 1))
          (fun i => limits (i + 1)) (some c) = some rest := ih (fun i => hl (i + 1)) hfewer
      exact ⟨_, congrArg (Option.map (elements :: ·)) hrest⟩

end Protonet.Paging
