import Protonet.SortedPages
import Protonet.StoreCatalogue

/-!
# The tab of flagged files

The tab counts the store and lists one page of it, under a lock of their own each, whenever
something has marked the page as stale. Other threads write in between. The buttons turn the page,
and each card has one that deletes what the card shows.
-/
namespace Protonet.ManageSignatures
open Record Database RecordIdentity Postcard StrBytes HashText StoreCatalogue Removal Swarm SortedPages
open Mutations (Operation)

def PAGE_SIZE : ℕ := 50

/-- One query's `ORDER BY created_at DESC`; SQLite chooses the order of rows of one time. -/
structure Newest where
  sort : List Row → List Row
  perm : ∀ rows, (sort rows).Perm rows
  newest : ∀ rows, (sort rows).Pairwise fun x y => y.createdAt ≤ x.createdAt

/-- A row that does not decode is left out. -/
def signatureOf (K : Primitives) (D : Display) (row : Row) : Option FileSignature :=
  match FlaggedFileRecord.decode row.encodedRecord with
  | .error _ => none
  | .ok record => some (toFileSignature K D record)

def getAll (K : Primitives) (D : Display) (order : Newest) (db : SignatureDatabase) :
    List FileSignature :=
  (order.sort db.records.rows).filterMap (signatureOf K D)

def getPage (K : Primitives) (D : Display) (order : Newest) (db : SignatureDatabase)
    (offset limit : ℕ) : List FileSignature :=
  (((order.sort db.records.rows).drop offset).take limit).filterMap (signatureOf K D)

def getSignaturesPage (K : Primitives) (D : Display) (order : Newest) (db : SignatureDatabase)
    (offset limit : ℕ) : List FileSignature :=
  getPage K D order db offset (min limit 100)

structure ManageSignaturesState where
  page : ℕ
  total : ℕ
  signatures : List FileSignature
  dirty : Bool

/-- The tab, the store that it shares with the other threads, and the log, in bytes. -/
structure Tab where
  state : ManageSignaturesState
  db : SignatureDatabase
  logs : List Bytes

def Tab.start (inMemory : Bool) : Tab := ⟨⟨0, 0, [], true⟩, .open inMemory, []⟩

/-- What a query of a page meets: how values are shown, and the order of rows of one time. -/
structure Look where
  display : Display
  order : Newest

/-- One drawing of the tab: what other threads write before the store is counted, before the page
is listed and before a card's button is pressed; whether the two queries succeed; and which buttons
are pressed, those of the cards by their place. A deletion that fails does nothing. -/
structure Frame where
  before : List Operation
  counted : Bool
  between : List Operation
  listed : Bool
  look : Look
  previous : Bool
  next : Bool
  refresh : Bool
  meanwhile : List Operation
  remove : ℕ → Bool

/-- A frame in which only buttons of the row over the cards are pressed. -/
def Frame.pressing (look : Look) (previous next refresh : Bool) : Frame :=
  ⟨[], true, [], true, look, previous, next, refresh, [], fun _ => false⟩

def Tab.reread (K : Primitives) (t : Tab) (f : Frame) : Tab :=
  let counted := (performAll t.db f.before).2
  let listed := (performAll counted f.between).2
  if t.state.dirty then
    let total := if f.counted then counted.records.rows.length else 0
    let page := min t.state.page ((total - 1) / PAGE_SIZE)
    let signatures :=
      if f.listed then
        getSignaturesPage K f.look.display f.look.order listed (page * PAGE_SIZE) PAGE_SIZE
      else []
    ⟨⟨page, total, signatures, false⟩, listed, t.logs⟩
  else { t with db := listed }

/-- The row of buttons over the cards, from left to right. -/
def ManageSignaturesState.buttons (s : ManageSignaturesState) (f : Frame) :
    ManageSignaturesState :=
  let s := if f.previous && decide (0 < s.page) then { s with page := s.page - 1, dirty := true }
    else s
  let s := if f.next && decide ((s.page + 1) * PAGE_SIZE < s.total) then
      { s with page := s.page + 1, dirty := true }
    else s
  if f.refresh then { s with dirty := true } else s

def Frame.clicked (f : Frame) (signatures : List FileSignature) : List FileSignature :=
  (signatures.zipIdx.filter fun p => f.remove p.2).map Prod.fst

/-- The line that is logged for a removal. -/
def removalLine (fileName : String) (hash : Bytes) : Bytes :=
  utf8 "db   :: removed signature for file '" ++ utf8 fileName ++ utf8 "' (" ++ hash ++
    utf8 ") from local database"

def Tab.removeCards (t : Tab) : List FileSignature → Except Panic Tab
  | [] => .ok t
  | sig :: rest =>
    match removeAndSave t.db sig.blake3Hash with
    | .error panic => .error panic
    | .ok (false, db) => Tab.removeCards { t with db } rest
    | .ok (true, db) =>
      -- `&hash[..8.min(hash.len())]`
      match slice (utf8 sig.blake3Hash) 0 (min 8 (utf8 sig.blake3Hash).length) with
      | .error panic => .error panic
      | .ok hash => Tab.removeCards
          ⟨{ t.state with dirty := true }, db, t.logs ++ [removalLine sig.fileName hash]⟩ rest

/-- `render_manage_signatures_tab`. -/
def Tab.render (K : Primitives) (t : Tab) (f : Frame) : Except Panic Tab :=
  let t := t.reread K f
  let db := (performAll t.db f.meanwhile).2
  Tab.removeCards ⟨t.state.buttons f, db, t.logs⟩ (f.clicked t.state.signatures)

/-- The pages that are shown in turn, and the tab afterwards. -/
def Tab.browse (K : Primitives) (t : Tab) :
    List Frame → Except Panic (List (List FileSignature) × Tab)
  | [] => .ok ([], t)
  | f :: frames =>
    match t.render K f with
    | .error panic => .error panic
    | .ok next =>
      match next.browse K frames with
      | .error panic => .error panic
      | .ok (pages, last) => .ok ((t.reread K f).state.signatures :: pages, last)

/-- The records that the other threads insert are within the bounds of their fields. -/
def Frame.Bounded (f : Frame) : Prop :=
  ∀ operation ∈ f.before ++ f.between ++ f.meanwhile, StoreCatalogue.Bounded operation

variable {K : Primitives} {order : Newest} {D : Display} {look : Look} {t t' : Tab} {f : Frame}
  {db : SignatureDatabase} {row : Row} {s : FileSignature} {signatures : List FileSignature}

def Hashed (s : FileSignature) : Prop := ∃ hash : Hash32, s.blake3Hash = hex hash.1

lemma hashed_of_signatureOf (h : signatureOf K D row = some s) : Hashed s := by
  unfold signatureOf at h
  split at h
  · cases h
  · exact ⟨_, congrArg FileSignature.blake3Hash (Option.some.inj h).symm⟩

lemma hashed_getSignaturesPage {offset limit : ℕ}
    (hs : s ∈ getSignaturesPage K D order db offset limit) : Hashed s := by
  obtain ⟨row, -, hrow⟩ := List.mem_filterMap.mp hs
  exact hashed_of_signatureOf hrow

def Shows (s : FileSignature) (row : Row) : Prop := s.blake3Hash = hex row.blake3.1

instance (s : FileSignature) (row : Row) : Decidable (Shows s row) :=
  inferInstanceAs (Decidable (_ = _))

lemma removeAndSave_hashed {hash : Hash32} :
    ∃ removed after, removeAndSave db (hex hash.1) = .ok (removed, after) ∧
      perform db (.removeBlake3 (some hash)) = (.removed removed, after) ∧
      after.records.rows = db.records.rows.filter (fun row => !decide (row.blake3 = hash)) ∧
      (removed = true ↔ ∃ row ∈ db.records.rows, row.blake3 = hash) := by
  have hany : 0 < (db.records.rows.filter fun row => decide (row.blake3 = hash)).length ↔
      ∃ row ∈ db.records.rows, row.blake3 = hash := by
    simp [List.length_pos_iff_exists_mem]
  rcases hremove : removeBlake3 db (some hash) with e | ⟨removed, after⟩
  · unfold removeBlake3 at hremove
    dsimp only at hremove
    split_ifs at hremove
  · refine ⟨removed, after, ?_, ?_, ?_, ?_⟩
    · rw [removeAndSave, decodeHash_hex]
      dsimp only
      rw [hremove]
    · rw [perform, hremove]
    · rw [removeBlake3_rows hremove]
      rfl
    · rw [← hany]
      unfold removeBlake3 at hremove
      dsimp only at hremove
      split_ifs at hremove with hsome
      all_goals obtain ⟨rfl, -⟩ := Prod.mk.inj (Except.ok.inj hremove)
      · exact iff_of_true rfl hsome
      · exact iff_of_false Bool.false_ne_true hsome

/-- The log shows a prefix of a hash, which is cut between digits. -/
lemma slice_hashed (h : Hashed s) : ∃ hash,
    slice (utf8 s.blake3Hash) 0 (min 8 (utf8 s.blake3Hash).length) = .ok hash := by
  obtain ⟨hash, hhash⟩ := h
  have hascii : ∀ byte ∈ utf8 s.blake3Hash, byte.toNat < 128 := by
    rw [hhash, utf8_hex]
    exact fun byte hbyte => (digits_hexText hash.1 byte hbyte).ascii
  refine ⟨_, if_pos ⟨Nat.zero_le _, rfl, ?_⟩⟩
  exact boundary_of_ascii hascii (min_le_right _ _)

lemma removeCards_ok {c : Catalogue} (h : Refines t.db c)
    (hcards : ∀ s ∈ signatures, Hashed s) : ∃ t' c', t.removeCards signatures = .ok t' ∧
      Refines t'.db c' ∧
      t'.db.records.rows = t.db.records.rows.filter (fun row => ∀ s ∈ signatures, ¬Shows s row) ∧
      ∃ removed, t'.state = { t.state with dirty := t.state.dirty || removed } ∧
        (removed = true ↔ ∃ s ∈ signatures, ∃ row ∈ t.db.records.rows, Shows s row) := by
  induction signatures generalizing t c with
  | nil => exact ⟨t, c, rfl, h, by simp, false, by simp, by simp⟩
  | cons s rest ih =>
    obtain ⟨hash, hhash⟩ := hcards s List.mem_cons_self
    obtain ⟨removed, after, hsave, hperform, hrows, hremoved⟩ :=
      @removeAndSave_hashed t.db hash
    have hmid := (@refines_perform _ _ h (.removeBlake3 (some hash)) trivial).2
    rw [hperform] at hmid
    have hshows (row : Row) : Shows s row ↔ row.blake3 = hash := by
      unfold Shows
      rw [hhash]
      exact ⟨fun heq => (hex_injective heq).symm, fun heq => by rw [heq]⟩
    obtain ⟨logs, hstep⟩ : ∃ logs, t.removeCards (s :: rest) =
        Tab.removeCards ⟨{ t.state with dirty := t.state.dirty || removed }, after, logs⟩ rest := by
      rw [Tab.removeCards, hhash, hsave]
      cases removed with
      | false => exact ⟨t.logs, by rw [Bool.or_false]⟩
      | true =>
        obtain ⟨short, hshort⟩ := slice_hashed (hcards s List.mem_cons_self)
        rw [hhash] at hshort
        dsimp only
        rw [hshort]
        exact ⟨_, by rw [Bool.or_true]⟩
    obtain ⟨t', c', hrest, hrefines, hfilter, removed', hstate, hremoved'⟩ := ih
      (t := ⟨{ t.state with dirty := t.state.dirty || removed }, after, logs⟩) hmid
      fun s hs => hcards s (List.mem_cons_of_mem _ hs)
    refine ⟨t', c', hstep.trans hrest, hrefines, ?_, removed || removed', ?_, ?_⟩
    · rw [hfilter, hrows, List.filter_filter]
      refine List.filter_congr fun row _ => ?_
      rw [Bool.eq_iff_iff, Bool.and_eq_true, decide_eq_true_eq, decide_eq_true_eq,
        List.forall_mem_cons, hshows, and_comm, Bool.not_eq_true', decide_eq_false_iff_not]
    · rw [hstate, Bool.or_assoc]
    · rw [Bool.or_eq_true, hremoved, hremoved', hrows]
      constructor
      · rintro (⟨row, hrow, hhash⟩ | ⟨s', hs', row, hrow, hshown⟩)
        · exact ⟨s, List.mem_cons_self, row, hrow, (hshows row).mpr hhash⟩
        · exact ⟨s', List.mem_cons_of_mem s hs', row, (List.mem_filter.mp hrow).1, hshown⟩
      · rintro ⟨s', hs', row, hrow, hshown⟩
        by_cases hsame : row.blake3 = hash
        · exact .inl ⟨row, hrow, hsame⟩
        · rcases List.mem_cons.mp hs' with rfl | hs'
          · exact absurd ((hshows row).mp hshown) hsame
          · exact .inr ⟨s', hs', row, List.mem_filter.mpr ⟨hrow, by simpa using hsame⟩, hshown⟩

lemma performAll_append (db : SignatureDatabase) (xs ys : List Operation) :
    (performAll db (xs ++ ys)).2 = (performAll (performAll db xs).2 ys).2 := by
  induction xs generalizing db with
  | nil => rfl
  | cons x xs ih => exact ih (perform db x).2

structure Sound (t : Tab) : Prop where
  refines : ∃ c, Refines t.db c
  page : t.state.page ≤ (t.state.total - 1) / PAGE_SIZE
  few : t.state.signatures.length ≤ PAGE_SIZE
  hashed : ∀ s ∈ t.state.signatures, Hashed s

lemma sound_start (inMemory : Bool) : Sound (.start inMemory) where
  refines := ⟨_, refines_open inMemory⟩
  page := Nat.zero_le _
  few := Nat.zero_le _
  hashed := by simp [Tab.start]

/-- The store when its rows are counted, when the page is listed and when a card is removed. -/
def Frame.atCount (f : Frame) (db : SignatureDatabase) : SignatureDatabase :=
  (performAll db f.before).2

def Frame.atList (f : Frame) (db : SignatureDatabase) : SignatureDatabase :=
  (performAll (f.atCount db) f.between).2

def Frame.atClick (f : Frame) (db : SignatureDatabase) : SignatureDatabase :=
  (performAll (f.atList db) f.meanwhile).2

lemma refines_atClick (h : ∃ c, Refines db c) (hf : f.Bounded) :
    ∃ c, Refines (f.atClick db) c := by
  obtain ⟨c, hc⟩ := h
  have hall := (refines_performAll hc hf).2
  rw [performAll_append, performAll_append] at hall
  exact ⟨_, hall⟩

lemma reread_db : (t.reread K f).db = f.atList t.db := by
  unfold Tab.reread
  dsimp only
  split_ifs <;> rfl

lemma reread_stale (h : t.state.dirty = true) (hcounted : f.counted = true)
    (hlisted : f.listed = true) : (t.reread K f).state =
      ⟨min t.state.page (((f.atCount t.db).records.rows.length - 1) / PAGE_SIZE),
        (f.atCount t.db).records.rows.length,
        getSignaturesPage K f.look.display f.look.order (f.atList t.db) (min t.state.page
          (((f.atCount t.db).records.rows.length - 1) / PAGE_SIZE) * PAGE_SIZE) PAGE_SIZE,
        false⟩ := by
  simp [Tab.reread, h, hcounted, hlisted, Frame.atList, Frame.atCount]

lemma reread_fresh (h : t.state.dirty = false) : (t.reread K f).state = t.state := by
  simp [Tab.reread, h]

lemma reread_page_le : (t.reread K f).state.page ≤ t.state.page := by
  unfold Tab.reread
  dsimp only
  split_ifs
  all_goals first | exact min_le_left _ _ | exact le_rfl

lemma few_getSignaturesPage {offset : ℕ} :
    (getSignaturesPage K D order db offset PAGE_SIZE).length ≤ PAGE_SIZE := by
  refine (List.length_filterMap_le _ _).trans ((List.length_take_le _ _).trans ?_)
  exact min_le_left _ _

lemma sound_reread (h : Sound t) :
    (t.reread K f).state.page ≤ ((t.reread K f).state.total - 1) / PAGE_SIZE ∧
      (t.reread K f).state.signatures.length ≤ PAGE_SIZE ∧
      ∀ s ∈ (t.reread K f).state.signatures, Hashed s := by
  unfold Tab.reread
  dsimp only
  split_ifs
  all_goals dsimp only
  · exact ⟨min_le_right _ _, few_getSignaturesPage, fun s hs => hashed_getSignaturesPage hs⟩
  · exact ⟨min_le_right _ _, Nat.zero_le _, by simp⟩
  · exact ⟨min_le_right _ _, few_getSignaturesPage, fun s hs => hashed_getSignaturesPage hs⟩
  · exact ⟨min_le_right _ _, Nat.zero_le _, by simp⟩
  · exact ⟨h.page, h.few, h.hashed⟩

/-- The buttons keep the page among those that there are, and change nothing else. -/
lemma buttons_state (st : ManageSignaturesState) (f : Frame) :
    (st.buttons f).total = st.total ∧ (st.buttons f).signatures = st.signatures ∧
      (st.page ≤ (st.total - 1) / PAGE_SIZE →
        (st.buttons f).page ≤ (st.total - 1) / PAGE_SIZE) := by
  unfold ManageSignaturesState.buttons PAGE_SIZE
  dsimp only
  split_ifs with hprevious hnext hrefresh hrefresh hnext
  all_goals
    refine ⟨rfl, rfl, fun hpage => ?_⟩
    simp only [Bool.and_eq_true, decide_eq_true_eq] at *
    omega

structure Draws (K : Primitives) (t : Tab) (f : Frame) (t' : Tab) : Prop where
  /-- The number of the page is among those shown beside it. -/
  page : t'.state.page ≤ (t'.state.total - 1) / PAGE_SIZE
  few : t'.state.signatures.length ≤ PAGE_SIZE
  /-- Of what the others have left, the rows of the removed hashes are deleted, and no others. -/
  rows : t'.db.records.rows = (f.atClick t.db).records.rows.filter fun row =>
    ∀ s ∈ f.clicked t'.state.signatures, ¬Shows s row
  /-- After a deletion the page is read anew. -/
  stale : (∃ s ∈ f.clicked t'.state.signatures, ∃ row ∈ (f.atClick t.db).records.rows,
    Shows s row) → t'.state.dirty = true
  /-- A stale page is replaced by the one of its number, or by the last one. -/
  read : t.state.dirty = true → f.counted = true → f.listed = true →
    t'.state.total = (f.atCount t.db).records.rows.length ∧
      t'.state.signatures = getSignaturesPage K f.look.display f.look.order (f.atList t.db)
        (min t.state.page ((t'.state.total - 1) / PAGE_SIZE) * PAGE_SIZE) PAGE_SIZE
  kept : t.state.dirty = false →
    t'.state.total = t.state.total ∧ t'.state.signatures = t.state.signatures

lemma clicked_subset {signatures : List FileSignature} (hs : s ∈ f.clicked signatures) :
    s ∈ signatures := by
  obtain ⟨p, hp, rfl⟩ := List.mem_map.mp hs
  exact List.fst_mem_of_mem_zipIdx (List.mem_filter.mp hp).1

lemma render_ok (h : Sound t) (hf : f.Bounded) :
    ∃ t', t.render K f = .ok t' ∧ Sound t' ∧ Draws K t f t' := by
  obtain ⟨hpage, hfew, hhashed⟩ := @sound_reread K t f h
  obtain ⟨c, hc⟩ := refines_atClick h.refines hf
  obtain ⟨htotal, hsignatures, hturned⟩ := buttons_state (t.reread K f).state f
  have hdb : (performAll (t.reread K f).db f.meanwhile).2 = f.atClick t.db := by
    rw [reread_db]
    rfl
  obtain ⟨t', c', hremove, hrefines, hrows, removed, hstate, hremoved⟩ :=
    @removeCards_ok ⟨(t.reread K f).state.buttons f, f.atClick t.db, (t.reread K f).logs⟩
      (f.clicked (t.reread K f).state.signatures) c hc
      fun s hs => hhashed s (clicked_subset hs)
  have htotal' : t'.state.total = (t.reread K f).state.total := by rw [hstate]; exact htotal
  have hshown : t'.state.signatures = (t.reread K f).state.signatures := by
    rw [hstate]
    exact hsignatures
  have hturned' : t'.state.page ≤ (t'.state.total - 1) / PAGE_SIZE := by
    rw [htotal', hstate]
    exact hturned hpage
  refine ⟨t', ?_, ⟨⟨c', hrefines⟩, hturned', hshown ▸ hfew, hshown ▸ hhashed⟩, hturned',
    hshown ▸ hfew, ?_, ?_, ?_, ?_⟩
  · rw [Tab.render, hdb]
    exact hremove
  · rw [hshown]
    exact hrows
  · rw [hshown]
    intro hany
    rw [hstate, hremoved.mpr hany]
    exact Bool.or_true _
  · intro hdirty hcounted hlisted
    rw [htotal', hshown, reread_stale hdirty hcounted hlisted]
    exact ⟨rfl, rfl⟩
  · intro hdirty
    rw [htotal', hshown, reread_fresh hdirty]
    exact ⟨rfl, rfl⟩

lemma browse_cons {frames : List Frame} {pages : List (List FileSignature)} {next last : Tab}
    (hf : t.render K f = .ok next) (hrest : next.browse K frames = .ok (pages, last)) :
    t.browse K (f :: frames) =
      .ok ((t.reread K f).state.signatures :: pages, last) := by
  rw [Tab.browse, hf]
  dsimp only
  rw [hrest]

lemma browse_append {xs ys : List Frame} {pages pages' : List (List FileSignature)}
    {mid last : Tab} (hx : t.browse K xs = .ok (pages, mid))
    (hy : mid.browse K ys = .ok (pages', last)) :
    t.browse K (xs ++ ys) = .ok (pages ++ pages', last) := by
  induction xs generalizing t pages with
  | nil =>
    obtain ⟨rfl, rfl⟩ := Prod.mk.inj (Except.ok.inj hx)
    exact hy
  | cons x xs ih =>
    rw [Tab.browse] at hx
    rcases hrender : t.render K x with panic | next
    · rw [hrender] at hx
      cases hx
    · rw [hrender] at hx
      dsimp only at hx
      rcases hrest : next.browse K xs with panic | ⟨tail, reached⟩
      · rw [hrest] at hx
        cases hx
      · rw [hrest] at hx
        obtain ⟨rfl, rfl⟩ := Prod.mk.inj (Except.ok.inj hx)
        exact browse_cons hrender (ih hrest)

lemma browse_ok {frames : List Frame} (h : Sound t) (hf : ∀ f ∈ frames, f.Bounded) :
    ∃ pages last, t.browse K frames = .ok (pages, last) ∧ Sound last := by
  induction frames generalizing t with
  | nil => exact ⟨[], t, rfl, h⟩
  | cons f frames ih =>
    obtain ⟨next, hrender, hnext, -⟩ := render_ok (K := K) h (hf f List.mem_cons_self)
    obtain ⟨pages, last, hrest, hlast⟩ := ih hnext fun g hg => hf g (List.mem_cons_of_mem f hg)
    exact ⟨_, last, browse_cons hrender hrest, hlast⟩

/-- Whatever is pressed and whatever other threads write in between: no frame panics, and each does
to the store and to its page what it is drawn for. -/
theorem frames_draw (K : Primitives) (inMemory : Bool) (frames : List Frame) (f : Frame)
    (hf : ∀ g ∈ frames ++ [f], g.Bounded) : ∃ pages t t',
    Tab.browse K (.start inMemory) frames = .ok (pages, t) ∧ t.render K f = .ok t' ∧
      Draws K t f t' := by
  obtain ⟨pages, t, hbrowse, ht⟩ := browse_ok (K := K) (sound_start inMemory)
    fun g hg => hf g (List.mem_append_left _ hg)
  obtain ⟨t', hrender, -, hdraws⟩ := render_ok (K := K) ht (hf f (by simp))
  exact ⟨pages, t, t', hbrowse, hrender, hdraws⟩

/-- Of rows of one time, the one inserted first comes first. -/
def sampleOrder : Newest where
  sort rows := rows.insertionSort fun x y => y.createdAt.toInt ≤ x.createdAt.toInt
  perm rows := List.perm_insertionSort _ rows
  newest rows := by
    have htotal : Std.Total fun x y : Row => y.createdAt.toInt ≤ x.createdAt.toInt :=
      ⟨fun x y => le_total _ _⟩
    have htrans : IsTrans Row fun x y => y.createdAt.toInt ≤ x.createdAt.toInt :=
      ⟨fun x y z hxy hyz => hyz.trans hxy⟩
    exact (List.pairwise_insertionSort _ rows).imp fun h => Int64.le_iff_toInt_le.mpr h

def sampleLook : Look := ⟨⟨fun _ => "peer", fun _ => true, 0⟩, sampleOrder⟩

/-- Two records are stored before the tab is drawn. -/
def sampleStored : Frame :=
  { Frame.pressing sampleLook false false false with
    before := [.insertBatch ⟨0, 0, 0, 0, 0⟩ [sampleRecord 1 1 0 0 10, sampleRecord 2 1 0 5 20]] }

/-- The first card is removed. -/
def sampleRemoval : Frame :=
  { Frame.pressing sampleLook false false false with remove := fun i => i == 0 }

lemma sample_bounded : ∀ f ∈ [sampleStored, sampleRemoval], f.Bounded := by
  simp [sampleStored, sampleRemoval, Frame.pressing, Frame.Bounded, StoreCatalogue.Bounded,
    sampleRecord_bounds]

/-- Both records have the hash that the card shows. -/
theorem frames_draw_sample : ∃ pages t t',
    Tab.browse samplePrimitives (.start true) [sampleStored] = .ok (pages, t) ∧
      t.render samplePrimitives sampleRemoval = .ok t' ∧
      Draws samplePrimitives t sampleRemoval t' :=
  frames_draw samplePrimitives true [sampleStored] sampleRemoval sample_bounded

/-- After the removal nothing is left. -/
example : (Tab.browse samplePrimitives (.start true)
    [sampleStored, sampleRemoval, .pressing sampleLook false false false]).toOption.map
      (fun seen => seen.1.map List.length) = some [2, 2, 0] := by
  decide +kernel

def walk (refreshed : Look) (backs ons : List Look) : List Frame :=
  .pressing refreshed false false true ::
    ((backs.map fun look => .pressing look true false false) ++
      ons.map fun look => .pressing look false true false)

def lastPage (db : SignatureDatabase) : ℕ := (db.records.rows.length - 1) / PAGE_SIZE

/-- The page of the store, as a query has listed it. -/
def readPage (K : Primitives) (look : Look) (db : SignatureDatabase) (j : ℕ) :
    ManageSignaturesState :=
  ⟨j, db.records.rows.length,
    getSignaturesPage K look.display look.order db (j * PAGE_SIZE) PAGE_SIZE, false⟩

structure Shown (K : Primitives) (db : SignatureDatabase) (t : Tab) (j : ℕ) : Prop where
  same : t.db = db
  page : t.state.dirty = true ∧ min t.state.page (lastPage db) = j ∨
    (∃ look, t.state = readPage K look db j) ∧ j ≤ lastPage db

/-- The frame disturbs nothing, and no card is removed. -/
structure Frame.Calm (f : Frame) : Prop where
  alone : f.before = [] ∧ f.between = [] ∧ f.meanwhile = []
  read : f.counted = true ∧ f.listed = true
  remove : f.remove = fun _ => false

lemma calm_pressing {previous next refresh : Bool} :
    (Frame.pressing look previous next refresh).Calm :=
  ⟨⟨rfl, rfl, rfl⟩, ⟨rfl, rfl⟩, rfl⟩

lemma calm_render (h : f.Calm) :
    t.render K f = .ok ⟨(t.reread K f).state.buttons f, t.db, (t.reread K f).logs⟩ := by
  obtain ⟨⟨hbefore, hbetween, hmeanwhile⟩, -, hremove⟩ := h
  have hclicked : f.clicked (t.reread K f).state.signatures = [] := by
    simp [Frame.clicked, hremove]
  have hdb : (performAll (t.reread K f).db f.meanwhile).2 = t.db := by
    rw [reread_db, Frame.atList, Frame.atCount, hbefore, hbetween, hmeanwhile]
    rfl
  rw [Tab.render, hclicked, hdb]
  rfl

lemma shown_reread {j : ℕ} (h : Shown K db t j) (hf : f.Calm) :
    (∃ look, (t.reread K f).state = readPage K look db j) ∧ j ≤ lastPage db := by
  obtain ⟨⟨hbefore, hbetween, -⟩, ⟨hcounted, hlisted⟩, -⟩ := hf
  have hcount : f.atCount t.db = db := by
    rw [Frame.atCount, hbefore, h.same]
    rfl
  have hlist : f.atList t.db = db := by
    rw [Frame.atList, hcount, hbetween]
    rfl
  rcases h.page with ⟨hdirty, rfl⟩ | ⟨⟨look, hstate⟩, hj⟩
  · rw [reread_stale hdirty hcounted hlisted, hcount, hlist]
    exact ⟨⟨f.look, rfl⟩, min_le_right _ _⟩
  · have hclean : t.state.dirty = false := by rw [hstate]; rfl
    rw [reread_fresh hclean]
    exact ⟨⟨look, hstate⟩, hj⟩

lemma shown_of_turned {j : ℕ} {state : ManageSignaturesState} {logs : List Bytes}
    (hdirty : state.dirty = true) (hpage : state.page = j) (hj : j ≤ lastPage db) :
    Shown K db ⟨state, db, logs⟩ j :=
  ⟨rfl, .inl ⟨hdirty, by rw [hpage]; exact min_eq_left hj⟩⟩

lemma walk_back {j : ℕ} (backs : List Look) (h : Shown K db t j) : ∃ pages t',
    t.browse K (backs.map fun look => .pressing look true false false) = .ok (pages, t') ∧
      Shown K db t' (j - backs.length) := by
  induction backs generalizing t j with
  | nil => exact ⟨[], t, rfl, h⟩
  | cons back backs ih =>
    obtain ⟨⟨look, hstate⟩, hj⟩ := shown_reread (f := .pressing back true false false) h
      calm_pressing
    have hrender := @calm_render K t (.pressing back true false false) calm_pressing
    rw [hstate, h.same] at hrender
    have hturned : Shown K db ⟨(readPage K look db j).buttons (.pressing back true false false),
        db, (t.reread K (.pressing back true false false)).logs⟩ (j - 1) := by
      rcases Nat.eq_zero_or_pos j with rfl | hpos
      · exact ⟨rfl, .inr ⟨⟨look, rfl⟩, hj⟩⟩
      · refine shown_of_turned ?_ ?_ ((Nat.sub_le j 1).trans hj)
        all_goals simp [ManageSignaturesState.buttons, readPage, Frame.pressing, hpos]
    obtain ⟨pages, t', hrest, ht'⟩ := ih hturned
    rw [Nat.sub_sub, Nat.add_comm] at ht'
    exact ⟨_, t', browse_cons hrender hrest, ht'⟩

lemma walk_on {j : ℕ} (ons : List Look) (h : Shown K db t j)
    (hn : j + ons.length ≤ lastPage db + 1) : ∃ (looks : ℕ → Look) (t' : Tab),
    t.browse K (ons.map fun look => .pressing look false true false) =
      .ok ((List.range ons.length).map fun i => getSignaturesPage K (looks i).display
        (looks i).order db ((j + i) * PAGE_SIZE) PAGE_SIZE, t') := by
  induction ons generalizing t j with
  | nil => exact ⟨fun _ => ⟨⟨fun _ => "", fun _ => true, 0⟩, sampleOrder⟩, t, rfl⟩
  | cons on ons ih =>
    obtain ⟨⟨look, hstate⟩, -⟩ := shown_reread (f := .pressing on false true false) h
      calm_pressing
    have hrender := @calm_render K t (.pressing on false true false) calm_pressing
    rw [hstate, h.same] at hrender
    rw [List.length_cons] at hn
    obtain ⟨looks, t', hrest⟩ : ∃ (looks : ℕ → Look) (t' : Tab), Tab.browse K
        ⟨(readPage K look db j).buttons (.pressing on false true false), db,
          (t.reread K (.pressing on false true false)).logs⟩
        (ons.map fun look => .pressing look false true false) =
        .ok ((List.range ons.length).map fun i => getSignaturesPage K (looks i).display
          (looks i).order db ((j + 1 + i) * PAGE_SIZE) PAGE_SIZE, t') := by
      by_cases hmore : (j + 1) * PAGE_SIZE < db.records.rows.length
      · refine ih (shown_of_turned ?_ ?_ ?_) (by omega)
        · simp [ManageSignaturesState.buttons, readPage, Frame.pressing, hmore]
        · simp [ManageSignaturesState.buttons, readPage, Frame.pressing, hmore]
        · unfold PAGE_SIZE at hmore
          unfold lastPage PAGE_SIZE
          omega
      · -- the last page is reached
        have hnone : ons = [] := by
          rw [← List.length_eq_zero_iff]
          unfold lastPage PAGE_SIZE at hn
          unfold PAGE_SIZE at hmore
          omega
        rw [hnone]
        exact ⟨fun _ => look, _, rfl⟩
    refine ⟨fun i => if i = 0 then look else looks (i - 1), t', ?_⟩
    have hbrowse := browse_cons hrender hrest
    rw [hstate] at hbrowse
    rw [List.map_cons, hbrowse, List.length_cons, List.range_succ_eq_map, List.map_cons,
      List.map_map]
    have htail : (List.range ons.length).map (fun i => getSignaturesPage K (looks i).display
        (looks i).order db ((j + 1 + i) * PAGE_SIZE) PAGE_SIZE) =
        (List.range ons.length).map ((fun i => getSignaturesPage K
          (if i = 0 then look else looks (i - 1)).display
          (if i = 0 then look else looks (i - 1)).order db ((j + i) * PAGE_SIZE) PAGE_SIZE) ∘
          Nat.succ) := by
      refine List.map_congr_left fun i _ => ?_
      have hpage : j + 1 + i = j + Nat.succ i := by omega
      rw [hpage]
      rfl
    rw [htail]
    rfl

def recordOf (row : Row) : Option FlaggedFileRecord :=
  (FlaggedFileRecord.decode row.encodedRecord).toOption

def timeOf (row : Row) : ℤ := row.createdAt.toInt

lemma filterMap_signatureOf (rows : List Row) : rows.filterMap (signatureOf K D) =
    (rows.filterMap recordOf).map (toFileSignature K D) := by
  rw [List.map_filterMap]
  refine List.filterMap_congr fun row _ => ?_
  unfold signatureOf recordOf
  rcases FlaggedFileRecord.decode row.encodedRecord with e | record <;> rfl

lemma recordOf_iff {c : Catalogue} (h : Refines db c) (hrow : row ∈ db.records.rows)
    (r : FlaggedFileRecord) : recordOf row = some r ↔ toRow r = .ok row := by
  obtain ⟨r', hr', himage⟩ := h.holds.stands.entered row hrow
  have hrecord : recordOf row = some r' := by
    rw [recordOf, h.decodes hr' himage]
    rfl
  rw [hrecord, Option.some.injEq, ← rowOf_eq_some]
  exact ⟨fun heq => heq ▸ himage, fun himage' => rowOf_injective himage himage'⟩

/-- A field of the records is the column of their rows. -/
lemma map_filterMap_recordOf {c : Catalogue} {α : Type*} (h : Refines db c)
    {rows : List Row} (hrows : ∀ row ∈ rows, row ∈ db.records.rows) (column : Row → α)
    (field : FlaggedFileRecord → α)
    (hfield : ∀ r row, toRow r = .ok row → field r = column row) :
    (rows.filterMap recordOf).map field = rows.map column := by
  induction rows with
  | nil => rfl
  | cons row rows ih =>
    have hrow := hrows row List.mem_cons_self
    obtain ⟨r, -, himage⟩ := h.holds.stands.entered row hrow
    have hto := rowOf_eq_some.mp himage
    rw [List.filterMap_cons_some ((recordOf_iff h hrow r).mpr hto), List.map_cons, List.map_cons,
      hfield r row hto, ih fun row' hrow' => hrows row' (List.mem_cons_of_mem row hrow')]

/-- A record is listed as often as its row. -/
lemma count_filterMap_recordOf {c : Catalogue} (h : Refines db c) {rows : List Row}
    (hrows : ∀ row ∈ rows, row ∈ db.records.rows) {r : FlaggedFileRecord}
    (hto : toRow r = .ok row) : (rows.filterMap recordOf).count r = rows.count row := by
  rw [List.count_filterMap, List.count_eq_countP]
  refine List.countP_congr fun row' hrow' => ?_
  rw [beq_iff_eq, beq_iff_eq, recordOf_iff h (hrows row' hrow'), hto, Except.ok.injEq]
  exact eq_comm

lemma lists_sort (order : Newest) (rows : List Row) :
    SortedPages.Lists timeOf rows (order.sort rows) :=
  ⟨order.perm rows, (order.newest rows).imp fun h => Int64.le_iff_toInt_le.mp h⟩

structure Covers (K : Primitives) (db : SignatureDatabase) (records : List FlaggedFileRecord) :
    Prop where
  stored : ∀ r ∈ records, ∃ row ∈ db.records.rows, toRow r = .ok row
  length : records.length = db.records.rows.length
  newest : records.Pairwise fun r r' => r'.createdAtUnixMs ≤ r.createdAtUnixMs
  /-- A record is shown once if the records of its time lie within one page. -/
  once : ∀ row ∈ db.records.rows, Whole timeOf PAGE_SIZE db.records.rows (timeOf row) →
    ∀ r, toRow r = .ok row → records.count r = 1
  /-- Without two records of one time the complete listing is shown. -/
  complete : (db.records.rows.map timeOf).Nodup →
    ∀ D order, getAll K D order db = records.map (toFileSignature K D)

lemma last_page (n : ℕ) : n ≤ ((n - 1) / PAGE_SIZE + 1) * PAGE_SIZE := by
  unfold PAGE_SIZE
  omega

lemma covers_pages {c : Catalogue} (h : Refines db c) (order : ℕ → Newest) :
    Covers K db (((List.range (lastPage db + 1)).map fun j =>
      page PAGE_SIZE j ((order j).sort db.records.rows)).flatten.filterMap recordOf) := by
  have hlists (j : ℕ) := lists_sort (order j) db.records.rows
  have hall : db.records.rows.length ≤ (lastPage db + 1) * PAGE_SIZE := last_page _
  have hkeys := keys_pages hlists hall (hlists 0)
  have hcount (row : Row) := @count_pages _ _ _ _ db.records.rows _ _ _ row _ hlists
    (by decide : 0 < PAGE_SIZE) hall
  have hexact (order' : Newest) :=
    flatten_unique hlists hall (lists_sort order' db.records.rows)
  generalize hshown : ((List.range (lastPage db + 1)).map fun j =>
    page PAGE_SIZE j ((order j).sort db.records.rows)).flatten = shown at hkeys hcount hexact ⊢
  have hrows : ∀ row ∈ shown, row ∈ db.records.rows := by
    intro row hrow
    rw [← hshown, List.mem_flatten] at hrow
    obtain ⟨rows, hpage, hrow⟩ := hrow
    obtain ⟨j, -, rfl⟩ := List.mem_map.mp hpage
    exact ((order j).perm _).mem_iff.mp (List.mem_of_mem_drop (List.mem_of_mem_take hrow))
  have htimes := map_filterMap_recordOf h hrows timeOf (fun r => r.createdAtUnixMs.toInt)
    fun r row hto => congrArg Int64.toInt (StoreRows.matches_of_toRow hto).createdAt.symm
  rw [hkeys] at htimes
  refine ⟨fun r hr => ?_, ?_, ?_, fun row hrow hwhole r hto => ?_, fun hnodup D order' => ?_⟩
  · obtain ⟨row, hrow, hrecord⟩ := List.mem_filterMap.mp hr
    exact ⟨row, hrows row hrow, (recordOf_iff h (hrows row hrow) r).mp hrecord⟩
  · have hlength := congrArg List.length htimes
    rwa [List.length_map, List.length_map, (hlists 0).perm.length_eq] at hlength
  · have hsorted : (((order 0).sort db.records.rows).map timeOf).Pairwise fun x y => y ≤ x :=
      List.pairwise_map.mpr (hlists 0).descending
    rw [← htimes, List.pairwise_map] at hsorted
    exact hsorted.imp fun hle => Int64.le_iff_toInt_le.mpr hle
  · rw [count_filterMap_recordOf h hrows hto, hcount row hrow hwhole]
    exact List.count_eq_one_of_mem (List.Nodup.of_map _ db.records.recordId_nodup) hrow
  · rw [getAll, ← hexact order' hnodup, filterMap_signatureOf]

/-- After any frames, with any writes of other threads, the store is left alone: whoever refreshes,
turns back to the first page and then on to the last is shown as many records as there are, the
newest first, and once each that no boundary of pages parts from others of its time; every query
may order the records of one time anew. -/
theorem walk_shows_all (K : Primitives) (inMemory : Bool) (frames : List Frame)
    (hf : ∀ g ∈ frames, g.Bounded) : ∃ pages t,
    Tab.browse K (.start inMemory) frames = .ok (pages, t) ∧
      ∀ (refreshed : Look) (backs ons : List Look), backs.length = t.state.page →
        ons.length = lastPage t.db + 1 → ∃ earlier shown last,
        t.browse K (walk refreshed backs ons) = .ok (earlier ++ shown, last) ∧
          ∃ records, List.Forall₂ (fun cards records => ∃ D, cards =
            List.map (toFileSignature K D) records) shown records ∧
            records.length = lastPage t.db + 1 ∧ Covers K t.db records.flatten := by
  obtain ⟨pages, t, hbrowse, ht⟩ := browse_ok (K := K) (sound_start inMemory) hf
  obtain ⟨c, hc⟩ := ht.refines
  refine ⟨pages, t, hbrowse, fun refreshed backs ons hbacks hons => ?_⟩
  have hrender := @calm_render K t (.pressing refreshed false false true) calm_pressing
  have hshown : Shown K t.db ⟨(t.reread K (.pressing refreshed false false true)).state.buttons
      (.pressing refreshed false false true), t.db,
        (t.reread K (.pressing refreshed false false true)).logs⟩
      (min (t.reread K (.pressing refreshed false false true)).state.page (lastPage t.db)) :=
    ⟨rfl, .inl ⟨rfl, rfl⟩⟩
  obtain ⟨earlier, mid, hback, hmid⟩ := walk_back backs hshown
  have hfirst : min (t.reread K (.pressing refreshed false false true)).state.page
      (lastPage t.db) - backs.length = 0 := by
    rw [hbacks]
    exact Nat.sub_eq_zero_of_le ((min_le_left _ _).trans reread_page_le)
  rw [hfirst] at hmid
  obtain ⟨looks, last, hon⟩ := walk_on ons hmid (by omega)
  refine ⟨_ :: earlier, _, last, browse_cons hrender (browse_append hback hon),
    (List.range (lastPage t.db + 1)).map fun j =>
      (page PAGE_SIZE j ((looks j).order.sort t.db.records.rows)).filterMap recordOf, ?_, by simp,
    ?_⟩
  · rw [hons, List.forall₂_map_left_iff, List.forall₂_map_right_iff, List.forall₂_same]
    intro j _
    refine ⟨(looks j).display, ?_⟩
    rw [← filterMap_signatureOf, Nat.zero_add]
    rfl
  · have hcovers := covers_pages (K := K) hc fun j => (looks j).order
    rw [List.filterMap_flatten, List.map_map] at hcovers
    exact hcovers

/-- Two records make one page. -/
theorem walk_shows_all_sample : ∃ pages t earlier shown last,
    Tab.browse samplePrimitives (.start true) [sampleStored] = .ok (pages, t) ∧
      t.browse samplePrimitives (walk sampleLook [] [sampleLook]) = .ok (earlier ++ shown, last) ∧
        ∃ records, List.Forall₂ (fun cards records => ∃ D, cards =
          List.map (toFileSignature samplePrimitives D) records) shown records ∧
          records.length = lastPage t.db + 1 ∧
          Covers samplePrimitives t.db records.flatten := by
  obtain ⟨pages, t, hbrowse, hwalk⟩ := walk_shows_all samplePrimitives true [sampleStored]
    fun g hg => sample_bounded g (List.mem_cons.mpr (.inl (List.mem_singleton.mp hg)))
  have hone : (Tab.browse samplePrimitives (.start true) [sampleStored]).toOption.map
      (fun seen => (seen.2.state.page, lastPage seen.2.db)) = some (0, 0) := by decide +kernel
  rw [hbrowse] at hone
  obtain ⟨hpage, hlast⟩ := Prod.mk.inj (Option.some.inj hone)
  obtain ⟨earlier, shown, last, hshown⟩ :=
    hwalk sampleLook [] [sampleLook] hpage.symm (congrArg (· + 1) hlast).symm
  exact ⟨pages, t, earlier, shown, last, hbrowse, hshown⟩

end Protonet.ManageSignatures
