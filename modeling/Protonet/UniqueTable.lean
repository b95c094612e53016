import Mathlib

namespace Protonet.UniqueTable

variable {α β κ μ : Type*}

structure Table (key : α → κ) (mark : α → μ) where
  entries : Finset α
  key_inj : Set.InjOn key entries
  mark_inj : Set.InjOn mark entries

variable {key : α → κ} {mark : α → μ}

def Table.empty (key : α → κ) (mark : α → μ) : Table key mark :=
  ⟨∅, by simp, by simp⟩

def Table.keep (t : Table key mark) (p : α → Bool) : Table key mark :=
  ⟨t.entries.filter fun x => p x, t.key_inj.mono (Finset.coe_subset.mpr (Finset.filter_subset _ _)),
    t.mark_inj.mono (Finset.coe_subset.mpr (Finset.filter_subset _ _))⟩

variable [DecidableEq α] [DecidableEq κ] [DecidableEq μ]

/-- An entry has the key or the mark of the new one. -/
def Table.Clashes (t : Table key mark) (x : α) : Prop :=
  ∃ y ∈ t.entries, key y = key x ∨ mark y = mark x

instance (t : Table key mark) (x : α) : Decidable (t.Clashes x) :=
  inferInstanceAs (Decidable (∃ y ∈ t.entries, key y = key x ∨ mark y = mark x))

lemma keeps_inj {γ : Type*} {f : α → γ} {s : Finset α} {x : α} (h : Set.InjOn f s)
    (hx : ∀ y ∈ s, f y ≠ f x) : Set.InjOn f (insert x s : Finset α) := by
  rw [Finset.coe_insert, Set.injOn_insert fun hmem => hx x hmem rfl]
  refine ⟨h, ?_⟩
  rintro ⟨y, hy, hyx⟩
  exact hx y hy hyx

def Table.add (t : Table key mark) (x : α) : Bool × Table key mark :=
  if h : t.Clashes x then (false, t)
  else
    (true, ⟨insert x t.entries, keeps_inj t.key_inj fun y hy hk => h ⟨y, hy, .inl hk⟩,
      keeps_inj t.mark_inj fun y hy hk => h ⟨y, hy, .inr hk⟩⟩)

def Table.addAll (t : Table key mark) : List α → List Bool × Table key mark
  | [] => ([], t)
  | x :: xs =>
    let (added, t) := t.add x
    let (results, t) := t.addAll xs
    (added :: results, t)

variable {t : Table key mark} {x y : α} {p : α → Bool}

omit [DecidableEq α] [DecidableEq κ] [DecidableEq μ] in
@[simp] lemma mem_keep : x ∈ (t.keep p).entries ↔ x ∈ t.entries ∧ p x = true := Finset.mem_filter

lemma add_clash (h : t.Clashes x) : t.add x = (false, t) := dif_pos h

lemma add_fresh (h : ¬t.Clashes x) :
    (t.add x).1 = true ∧ (t.add x).2.entries = insert x t.entries := by
  rw [Table.add, dif_neg h]
  exact ⟨rfl, rfl⟩

lemma addAll_cons (x : α) (xs : List α) : t.addAll (x :: xs) =
    ((t.add x).1 :: ((t.add x).2.addAll xs).1, ((t.add x).2.addAll xs).2) := rfl

structure Stands (image : α → Option β) (rows : List β) (t : Table key mark) : Prop where
  listed : ∀ x ∈ t.entries, ∃ row ∈ rows, image x = some row
  entered : ∀ row ∈ rows, ∃ x ∈ t.entries, image x = some row

variable {image : α → Option β} {rows : List β} {row : β}

omit [DecidableEq α] [DecidableEq κ] [DecidableEq μ] in
lemma stands_empty : Stands image [] (.empty key mark) := ⟨by simp [Table.empty], by simp⟩

omit [DecidableEq α] [DecidableEq κ] [DecidableEq μ] in
lemma Stands.length [DecidableEq β] (h : Stands image rows t) (hnodup : rows.Nodup)
    (hinj : ∀ x y row, image x = some row → image y = some row → x = y) :
    rows.length = t.entries.card := by
  have himage : t.entries.image image = rows.toFinset.image some := by
    ext o
    simp only [Finset.mem_image, List.mem_toFinset]
    constructor
    · rintro ⟨x, hx, rfl⟩
      obtain ⟨row, hrow, hxrow⟩ := h.listed x hx
      exact ⟨row, hrow, hxrow.symm⟩
    · rintro ⟨row, hrow, rfl⟩
      exact h.entered row hrow
  have hentries : Set.InjOn image t.entries := by
    intro x hx y hy hxy
    obtain ⟨row, -, hrow⟩ := h.listed x hx
    exact hinj x y row hrow (hxy ▸ hrow)
  rw [← List.toFinset_card_of_nodup hnodup, ← Finset.card_image_of_injOn hentries, himage,
    Finset.card_image_of_injective _ (Option.some_injective β)]

omit [DecidableEq α] [DecidableEq κ] [DecidableEq μ] in
lemma Stands.keep (h : Stands image rows t) {q : β → Bool}
    (hpq : ∀ x row, image x = some row → p x = q row) :
    Stands image (rows.filter q) (t.keep p) where
  listed x hx := by
    obtain ⟨hentry, hp⟩ := mem_keep.mp hx
    obtain ⟨row, hrow, hxrow⟩ := h.listed x hentry
    exact ⟨row, List.mem_filter.mpr ⟨hrow, hpq x row hxrow ▸ hp⟩, hxrow⟩
  entered row hrow := by
    obtain ⟨hmem, hq⟩ := List.mem_filter.mp hrow
    obtain ⟨x, hx, hxrow⟩ := h.entered row hmem
    exact ⟨x, mem_keep.mpr ⟨hx, (hpq x row hxrow).trans hq⟩, hxrow⟩

lemma Stands.add (h : Stands image rows t) (hx : image x = some row) (hclash : ¬t.Clashes x) :
    Stands image (rows ++ [row]) (t.add x).2 := by
  have hentries := (add_fresh hclash).2
  constructor
  · intro y hy
    rw [hentries] at hy
    rcases Finset.mem_insert.mp hy with rfl | hy
    · exact ⟨row, by simp, hx⟩
    · obtain ⟨row', hrow', hyrow⟩ := h.listed y hy
      exact ⟨row', List.mem_append_left _ hrow', hyrow⟩
  · intro row' hrow'
    rw [hentries]
    rcases List.mem_append.mp hrow' with hold | hnew
    · obtain ⟨y, hy, hyrow⟩ := h.entered row' hold
      exact ⟨y, Finset.mem_insert_of_mem hy, hyrow⟩
    · rw [List.mem_singleton.mp hnew]
      exact ⟨x, Finset.mem_insert_self _ _, hx⟩

end Protonet.UniqueTable
