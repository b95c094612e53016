import Mathlib

/-!
# Walks through chapters, page by page

A reader asks for pages by chapter and cursor, among other things. The answer to a page names the
cursor of the next one. Chapters are queued until their first page is asked for, and at most one
page of a chapter is under way.
-/
namespace Protonet.PageWalk

variable {ι β γ : Type*}

def pages (log : List (ι × Option (β × Option γ))) : List (β × Option γ) := log.filterMap Prod.snd

variable {place : Option γ → ℕ} {known : Finset γ}
  {Answered Answered' : ι → β → Option γ → Prop} {chapters queue : List β}
  {log : List (ι × Option (β × Option γ))} {waiting : Finset ι} {i n : ι} {b : β} {c c' : Option γ}
  {later : γ}

/-- A walk through the chapters; `Answered i b next` tells that request `i` was answered by a page
of chapter `b` with this successor. -/
structure Walk (place : Option γ → ℕ) (known : Finset γ) (Answered : ι → β → Option γ → Prop)
    (chapters : List β) (log : List (ι × Option (β × Option γ))) (waiting : Finset ι)
    (queue : List β) : Prop where
  distinct : (pages log).Nodup
  known : ∀ b c, (b, c) ∈ pages log → b ∈ chapters ∧ ∀ next ∈ c, next ∈ known
  queue_nodup : queue.Nodup
  queued : ∀ b ∈ queue, b ∈ chapters ∧ ∀ c, (b, c) ∉ pages log
  begun : ∀ b ∈ chapters, b ∈ queue ∨ (b, none) ∈ pages log
  single : ∀ b c c' i i', (i, some (b, c)) ∈ log → (i', some (b, c')) ∈ log → i ∈ waiting →
    i' ∈ waiting → i = i'
  frontier : ∀ b c i, (i, some (b, c)) ∈ log → i ∈ waiting →
    ∀ c', (b, c') ∈ pages log → place c' ≤ place c
  followed : ∀ b c i, (i, some (b, c)) ∈ log → i ∉ waiting →
    ∃ next, Answered i b next ∧ ∀ c' ∈ next, (b, some c') ∈ pages log

lemma mem_pages : (b, c) ∈ pages log ↔ ∃ i, (i, some (b, c)) ∈ log := by
  unfold pages
  rw [List.mem_filterMap]
  constructor
  · rintro ⟨⟨i, p⟩, hmem, rfl⟩
    exact ⟨i, hmem⟩
  · rintro ⟨i, hmem⟩
    exact ⟨_, hmem, rfl⟩

lemma pages_other : pages (log ++ [(n, none)]) = pages log :=
  List.filterMap_append.trans (List.append_nil _)

lemma pages_page : pages (log ++ [(n, some (b, c))]) = pages log ++ [(b, c)] :=
  List.filterMap_append

lemma mem_pages_page {b' : β} {c' : Option γ} :
    (b', c') ∈ pages (log ++ [(n, some (b, c))]) ↔ (b', c') ∈ pages log ∨ b' = b ∧ c' = c := by
  simp [pages_page]

lemma pages_page_nodup (h : (pages log).Nodup) (hnew : (b, c) ∉ pages log) :
    (pages (log ++ [(n, some (b, c))])).Nodup := by
  rw [pages_page, List.nodup_append]
  refine ⟨h, List.nodup_singleton _, fun p hp q hq heq => ?_⟩
  rw [List.mem_singleton.mp hq] at heq
  exact hnew (heq ▸ hp)

lemma mem_log_page {b' : β} {c' : Option γ} {i' : ι} :
    (i', some (b', c')) ∈ log ++ [(n, some (b, c))] ↔
      (i', some (b', c')) ∈ log ∨ i' = n ∧ b' = b ∧ c' = c := by
  simp

lemma walk_begin (hnone : pages log = []) (hqueue : queue.Nodup) :
    Walk place known Answered queue log waiting queue := by
  have hlog : ∀ b c i, (i, some (b, c)) ∉ log := by
    intro b c i hmem
    have hpage := mem_pages.mpr ⟨i, hmem⟩
    rw [hnone] at hpage
    cases hpage
  have hpages : ∀ b c, (b, c) ∉ pages log := by
    intro b c hmem
    rw [hnone] at hmem
    cases hmem
  exact ⟨hnone ▸ List.nodup_nil, fun b c hmem => absurd hmem (hpages b c), hqueue,
    fun b hb => ⟨hb, hpages b⟩, fun b hb => .inl hb, fun b c _ i _ hmem => absurd hmem (hlog b c i),
    fun b c i hmem => absurd hmem (hlog b c i), fun b c i hmem => absurd hmem (hlog b c i)⟩

lemma Walk.mono (h : Walk place known Answered chapters log waiting queue)
    (hmono : ∀ i b next, Answered i b next → Answered' i b next) :
    Walk place known Answered' chapters log waiting queue :=
  ⟨h.distinct, h.known, h.queue_nodup, h.queued, h.begun, h.single, h.frontier,
    fun b c i hmem hi => (h.followed b c i hmem hi).imp fun next hnext =>
      ⟨hmono i b next hnext.1, hnext.2⟩⟩

lemma Walk.all_begun (h : Walk place known Answered chapters log waiting []) :
    ∀ b ∈ chapters, (b, none) ∈ pages log :=
  fun b hb => (h.begun b hb).resolve_left List.not_mem_nil

/-- There are no more pages than chapters times cursors. -/
lemma Walk.pages_length [DecidableEq β] [DecidableEq γ]
    (h : Walk place known Answered chapters log waiting queue) :
    (pages log).length ≤ chapters.length * (known.card + 1) := by
  have hsub : (pages log).toFinset ⊆ chapters.toFinset ×ˢ Finset.insertNone known := by
    rintro ⟨b, c⟩ hmem
    obtain ⟨hb, hc⟩ := h.known b c (List.mem_toFinset.mp hmem)
    exact Finset.mem_product.mpr ⟨List.mem_toFinset.mpr hb, Finset.mem_insertNone.mpr hc⟩
  calc (pages log).length = (pages log).toFinset.card :=
        (List.toFinset_card_of_nodup h.distinct).symm
    _ ≤ chapters.toFinset.card * (Finset.insertNone known).card :=
        (Finset.card_le_card hsub).trans_eq (Finset.card_product _ _)
    _ ≤ chapters.length * (known.card + 1) := by
        rw [Finset.card_insertNone]
        exact Nat.mul_le_mul_right _ (List.toFinset_card_le _)

def others (log : List (ι × Option (β × Option γ))) : ℕ := log.countP fun e => e.2.isNone

lemma length_eq : log.length = others log + (pages log).length := by
  unfold others pages
  induction log with
  | nil => rfl
  | cons e log ih =>
    rcases e with ⟨i, _ | p⟩
    · simp only [List.length_cons, List.countP_cons, List.filterMap_cons, Option.isNone_none,
        if_true]
      omega
    · simp only [List.length_cons, List.countP_cons, List.filterMap_cons, Option.isNone_some,
        Bool.false_eq_true, if_false]
      omega

variable [DecidableEq ι]

lemma waits_before {p : Option (β × Option γ)} (hn : ∀ p, (n, p) ∉ log) (hmem : (i, p) ∈ log)
    (hi : i ∈ insert n waiting) : i ∈ waiting :=
  (Finset.mem_insert.mp hi).resolve_left fun heq => hn _ (heq ▸ hmem)

lemma Walk.other (h : Walk place known Answered chapters log waiting queue)
    (hn : ∀ p, (n, p) ∉ log) :
    Walk place known Answered chapters (log ++ [(n, none)]) (insert n waiting) queue := by
  have hlog : ∀ {b c i}, (i, some (b, c)) ∈ log ++ [(n, none)] → (i, some (b, c)) ∈ log := by
    intro b c i hmem
    simpa using hmem
  refine ⟨?_, ?_, h.queue_nodup, ?_, ?_, fun b c c' i i' hi hi' hw hw' => ?_, fun b c i hi hw => ?_,
    fun b c i hi hw => ?_⟩
  · rw [pages_other]
    exact h.distinct
  · rw [pages_other]
    exact h.known
  · rw [pages_other]
    exact h.queued
  · rw [pages_other]
    exact h.begun
  · exact h.single b c c' i i' (hlog hi) (hlog hi') (waits_before hn (hlog hi) hw)
      (waits_before hn (hlog hi') hw')
  · rw [pages_other]
    exact h.frontier b c i (hlog hi) (waits_before hn (hlog hi) hw)
  · rw [pages_other]
    exact h.followed b c i (hlog hi) fun hmem => hw (Finset.mem_insert_of_mem hmem)

/-- A request is done with, after its successor was asked for. -/
lemma Walk.settle (h : Walk place known Answered chapters log waiting queue)
    (hdone : ∀ b c, (i, some (b, c)) ∈ log →
      ∃ next, Answered i b next ∧ ∀ c' ∈ next, (b, some c') ∈ pages log) :
    Walk place known Answered chapters log (waiting.erase i) queue where
  distinct := h.distinct
  known := h.known
  queue_nodup := h.queue_nodup
  queued := h.queued
  begun := h.begun
  single b c c' j j' hj hj' hw hw' :=
    h.single b c c' j j' hj hj' (Finset.mem_of_mem_erase hw) (Finset.mem_of_mem_erase hw')
  frontier b c j hj hw := h.frontier b c j hj (Finset.mem_of_mem_erase hw)
  followed b c j hj hw := by
    by_cases heq : j = i
    · subst heq
      exact hdone b c hj
    · exact h.followed b c j hj fun hmem => hw (Finset.mem_erase.mpr ⟨heq, hmem⟩)

/-- The first page of the next chapter is asked for. -/
lemma Walk.first (h : Walk place known Answered chapters log waiting (b :: queue))
    (hn : ∀ p, (n, p) ∉ log) :
    Walk place known Answered chapters (log ++ [(n, some (b, none))]) (insert n waiting) queue := by
  obtain ⟨hb, hnone⟩ := h.queued b List.mem_cons_self
  obtain ⟨hnotin, hnodup⟩ := List.nodup_cons.mp h.queue_nodup
  have hfresh : ∀ c i, (i, some (b, c)) ∉ log := fun c i hmem => hnone c (mem_pages.mpr ⟨i, hmem⟩)
  refine ⟨?_, fun b' c hmem => ?_, hnodup, fun b' hb' => ?_, fun b' hb' => ?_,
    fun b' c c' i i' hj hj' hw hw' => ?_, fun b' c i hj hw c' hc' => ?_, fun b' c i hj hw => ?_⟩
  · exact pages_page_nodup h.distinct (hnone none)
  · rcases mem_pages_page.mp hmem with hmem | ⟨rfl, rfl⟩
    · exact h.known b' c hmem
    · exact ⟨hb, nofun⟩
  · obtain ⟨hchapter, hno⟩ := h.queued b' (List.mem_cons_of_mem _ hb')
    refine ⟨hchapter, fun c hmem => ?_⟩
    rcases mem_pages_page.mp hmem with hmem | ⟨rfl, -⟩
    · exact hno c hmem
    · exact hnotin hb'
  · rcases h.begun b' hb' with hmem | hmem
    · rcases List.mem_cons.mp hmem with rfl | hmem
      · exact .inr (mem_pages_page.mpr (.inr ⟨rfl, rfl⟩))
      · exact .inl hmem
    · exact .inr (mem_pages_page.mpr (.inl hmem))
  · rcases mem_log_page.mp hj with hi | ⟨rfl, rfl, -⟩
    · rcases mem_log_page.mp hj' with hi' | ⟨-, rfl, -⟩
      · exact h.single b' c c' i i' hi hi' (waits_before hn hi hw) (waits_before hn hi' hw')
      · exact absurd hi (hfresh c i)
    · rcases mem_log_page.mp hj' with hi' | ⟨rfl, -, -⟩
      · exact absurd hi' (hfresh c' i')
      · rfl
  · rcases mem_log_page.mp hj with hi | ⟨-, rfl, rfl⟩
    · rcases mem_pages_page.mp hc' with hc' | ⟨rfl, -⟩
      · exact h.frontier b' c i hi (waits_before hn hi hw) c' hc'
      · exact absurd hi (hfresh c i)
    · rcases mem_pages_page.mp hc' with hc' | ⟨-, rfl⟩
      · exact absurd hc' (hnone c')
      · exact le_rfl
  · rcases mem_log_page.mp hj with hi | ⟨rfl, -, -⟩
    · obtain ⟨next, hanswered, hnext⟩ := h.followed b' c i hi
        fun hmem => hw (Finset.mem_insert_of_mem hmem)
      exact ⟨next, hanswered, fun c' hc' => mem_pages_page.mpr (.inl (hnext c' hc'))⟩
    · exact absurd (Finset.mem_insert_self _ _) hw

/-- A page is done with and its successor, which stands behind it, is asked for. -/
lemma Walk.next (h : Walk place known Answered chapters log waiting queue)
    (hi : (i, some (b, c)) ∈ log) (hone : ∀ p, (i, p) ∈ log → p = some (b, c)) (hw : i ∈ waiting)
    (hanswered : Answered i b (some later)) (hlater : place c < place (some later))
    (hknown : later ∈ known) (hn : ∀ p, (n, p) ∉ log) :
    Walk place known Answered chapters (log ++ [(n, some (b, some later))])
      (insert n (waiting.erase i)) queue := by
  have hbehind : ∀ c', (b, c') ∈ pages log → place c' < place (some later) :=
    fun c' hc' => (h.frontier b c i hi hw c' hc').trans_lt hlater
  have hnew : (b, some later) ∉ pages log := fun hmem => lt_irrefl _ (hbehind _ hmem)
  have hwaits : ∀ {b c j}, (j, some (b, c)) ∈ log → j ∈ insert n (waiting.erase i) →
      j ≠ i ∧ j ∈ waiting := by
    intro b c j hmem hj
    exact Finset.mem_erase.mp (waits_before hn hmem hj)
  refine ⟨?_, fun b' c' hmem => ?_, h.queue_nodup, fun b' hb' => ?_, fun b' hb' => ?_,
    fun b' c₁ c₂ j j' hl hl' hwj hwj' => ?_, fun b' c₁ j hl hwj c₂ hc₂ => ?_,
    fun b' c₁ j hl hwj => ?_⟩
  · exact pages_page_nodup h.distinct hnew
  · rcases mem_pages_page.mp hmem with hmem | ⟨rfl, rfl⟩
    · exact h.known b' c' hmem
    · refine ⟨(h.known b' c (mem_pages.mpr ⟨i, hi⟩)).1, fun x hx => ?_⟩
      rwa [← Option.mem_some_iff.mp hx]
  · obtain ⟨hchapter, hno⟩ := h.queued b' hb'
    refine ⟨hchapter, fun c' hmem => ?_⟩
    rcases mem_pages_page.mp hmem with hmem | ⟨rfl, -⟩
    · exact hno c' hmem
    · exact hno c (mem_pages.mpr ⟨i, hi⟩)
  · exact (h.begun b' hb').imp_right fun hmem => mem_pages_page.mpr (.inl hmem)
  · rcases mem_log_page.mp hl with hj | ⟨rfl, rfl, -⟩
    · obtain ⟨hne, hwj⟩ := hwaits hj hwj
      rcases mem_log_page.mp hl' with hj' | ⟨-, rfl, -⟩
      · exact h.single b' c₁ c₂ j j' hj hj' hwj (hwaits hj' hwj').2
      · exact absurd (h.single b' c₁ c j i hj hi hwj hw) hne
    · rcases mem_log_page.mp hl' with hj' | ⟨rfl, -, -⟩
      · obtain ⟨hne, hwj'⟩ := hwaits hj' hwj'
        exact absurd (h.single b' c₂ c j' i hj' hi hwj' hw) hne
      · rfl
  · rcases mem_log_page.mp hl with hj | ⟨-, rfl, rfl⟩
    · obtain ⟨hne, hwj⟩ := hwaits hj hwj
      rcases mem_pages_page.mp hc₂ with hc₂ | ⟨rfl, -⟩
      · exact h.frontier b' c₁ j hj hwj c₂ hc₂
      · exact absurd (h.single b' c₁ c j i hj hi hwj hw) hne
    · rcases mem_pages_page.mp hc₂ with hc₂ | ⟨-, rfl⟩
      · exact (hbehind c₂ hc₂).le
      · exact le_rfl
  · rcases mem_log_page.mp hl with hj | ⟨rfl, -, -⟩
    · by_cases heq : j = i
      · subst heq
        obtain ⟨rfl, rfl⟩ := Prod.mk.inj (Option.some.inj (hone _ hj))
        refine ⟨some later, hanswered, fun x hx => ?_⟩
        rw [← Option.mem_some_iff.mp hx]
        exact mem_pages_page.mpr (.inr ⟨rfl, rfl⟩)
      · obtain ⟨next', hanswered', hnext'⟩ := h.followed b' c₁ j hj fun hmem =>
          hwj (Finset.mem_insert_of_mem (Finset.mem_erase.mpr ⟨heq, hmem⟩))
        exact ⟨next', hanswered', fun x hx => mem_pages_page.mpr (.inl (hnext' x hx))⟩
    · exact absurd (Finset.mem_insert_self _ _) hwj

def underway (log : List (ι × Option (β × Option γ))) (waiting : Finset ι) : ℕ :=
  log.countP fun e => e.2.isSome && decide (e.1 ∈ waiting)

/-- Apart from `given` requests, other requests follow pages that are done, and `k` more may. -/
def Thrifty (given k : ℕ) (log : List (ι × Option (β × Option γ))) (waiting : Finset ι) : Prop :=
  others log + underway log waiting + k ≤ (pages log).length + given

variable {given k k' : ℕ}

lemma Thrifty.of_le (h : Thrifty given k log waiting) (hle : k' ≤ k) :
    Thrifty given k' log waiting := (Nat.add_le_add_left hle _).trans h

lemma underway_insert (hn : ∀ p, (n, p) ∉ log) :
    underway log (insert n waiting) = underway log waiting := by
  refine List.countP_congr fun e he => ?_
  have hne : e.1 ≠ n := fun heq => hn e.2 (heq ▸ he)
  simp [Finset.mem_insert, hne]

lemma Thrifty.other (h : Thrifty given (k + 1) log waiting) (hn : ∀ p, (n, p) ∉ log) :
    Thrifty given k (log ++ [(n, none)]) (insert n waiting) := by
  have hothers : others (log ++ [(n, (none : Option (β × Option γ)))]) = others log + 1 := by
    simp [others, List.countP_append]
  have hunder : underway (log ++ [(n, none)]) (insert n waiting) = underway log waiting := by
    rw [← underway_insert hn]
    simp [underway, List.countP_append]
  unfold Thrifty at h ⊢
  rw [hothers, hunder, pages_other]
  omega

lemma Thrifty.page (h : Thrifty given k log waiting) (hn : ∀ p, (n, p) ∉ log) :
    Thrifty given k (log ++ [(n, some (b, c))]) (insert n waiting) := by
  have hothers : others (log ++ [(n, some (b, c))]) = others log := by
    simp [others, List.countP_append]
  have hunder : underway (log ++ [(n, some (b, c))]) (insert n waiting) =
      underway log waiting + 1 := by
    rw [← underway_insert hn]
    simp [underway, List.countP_append]
  unfold Thrifty at h ⊢
  rw [hothers, hunder, pages_page, List.length_append, List.length_singleton]
  omega

lemma underway_erase : underway log (waiting.erase i) ≤ underway log waiting := by
  refine List.countP_mono_left fun e _ he => ?_
  simp only [Bool.and_eq_true, decide_eq_true_eq] at he ⊢
  exact ⟨he.1, Finset.mem_of_mem_erase he.2⟩

lemma Thrifty.settle (h : Thrifty given k log waiting) : Thrifty given k log (waiting.erase i) := by
  have hle : underway log (waiting.erase i) ≤ underway log waiting := underway_erase
  unfold Thrifty at h ⊢
  omega

lemma Thrifty.done (h : Thrifty given k log waiting) (hi : (i, some (b, c)) ∈ log)
    (hw : i ∈ waiting) : Thrifty given (k + 1) log (waiting.erase i) := by
  have hlt : underway log (waiting.erase i) < underway log waiting := by
    obtain ⟨xs, ys, rfl⟩ := List.append_of_mem hi
    have hxs : underway xs (waiting.erase i) ≤ underway xs waiting := underway_erase
    have hys : underway ys (waiting.erase i) ≤ underway ys waiting := underway_erase
    unfold underway at hxs hys ⊢
    simp only [List.countP_append, List.countP_cons, Finset.mem_erase, ne_eq, not_true_eq_false,
      false_and, decide_false, Bool.and_false, Bool.false_eq_true, if_false, Option.isSome_some,
      hw, decide_true, Bool.and_self, if_true] at hxs hys ⊢
    omega
  unfold Thrifty at h ⊢
  omega

lemma Thrifty.length_le (h : Thrifty given k log waiting) :
    log.length ≤ 2 * (pages log).length + given := by
  have hlen := @length_eq _ _ _ log
  unfold Thrifty at h
  omega

end Protonet.PageWalk
