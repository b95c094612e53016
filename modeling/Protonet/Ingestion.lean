import Protonet.DatabaseBatch
import Protonet.Replay

namespace Protonet.Ingestion
open Lru MachineInt Postcard Record RecordIdentity Database Replay

/-- The readings at which one record is handled. -/
structure Moment where
  now : ℕ
  storage : StorageReadings

structure Node where
  replay : ReplayState
  db : SignatureDatabase

def Node.fresh (inMemory : Bool) : Node := ⟨.default, .open inMemory⟩

def Node.ingest (K : Primitives) (node : Node) (m : Moment) (r : FlaggedFileRecord) : Node :=
  match r.origin K with
  | .error _ => node
  | .ok origin =>
    match node.replay.check r.recordId origin r.sequence m.now with
    | (.new, replay) =>
      let replay := replay.markPending r.recordId m.now
      match node.db.insertRecord m.storage r with
      | .ok (_, db) => ⟨replay.accept r.recordId origin r.sequence m.now, db⟩
      | .error _ => ⟨replay.forget r.recordId, node.db⟩
    | (_, replay) => { node with replay }

def deliver (K : Primitives) (schedule : ℕ → Moment) (node : Node) :
    List FlaggedFileRecord → Node
  | [] => node
  | r :: rs => deliver K (fun i => schedule (i + 1)) (node.ingest K (schedule 0) r) rs

/-- The capacity gate lets every record in at the state it meets. -/
def GateOpen (K : Primitives) (schedule : ℕ → Moment) (node : Node) :
    List FlaggedFileRecord → Prop
  | [] => True
  | r :: rs => node.db.ensureCapacity (schedule 0).storage [r] = .ok () ∧
      GateOpen K (fun i => schedule (i + 1)) (node.ingest K (schedule 0) r) rs

/-- The store holds the records of the list and nothing else. -/
def Holds (db : SignatureDatabase) (S : List FlaggedFileRecord) : Prop :=
  (∀ r ∈ S, ∃ row ∈ db.records.rows, toRow r = .ok row) ∧
    ∀ row ∈ db.records.rows, ∃ r ∈ S, toRow r = .ok row

def filterIndices (id : RecordId) : List ℕ := (ActiveRecordFilter.new (16 * 1024 * 1024)).indices id

/-- Nothing in the set makes the replay check refuse something else in it, and all of it fits the
columns. -/
structure Compatible (S : List FlaggedFileRecord) : Prop where
  near : ∀ r ∈ S, ∀ s ∈ S, r.originPeerId = s.originPeerId →
    r.sequence.toNat < s.sequence.toNat + SEQUENCE_WINDOW.toNat
  uncovered : ∀ r ∈ S, ∃ index ∈ filterIndices r.recordId,
    ∀ s ∈ S, s.recordId ≠ r.recordId → index ∉ filterIndices s.recordId
  storable : ∀ r ∈ S, Storable r

variable {K : Primitives} {node : Node} {m : Moment} {r : FlaggedFileRecord}

/-- The caches after a new record went through. -/
def accepted (replay : ReplayState) (r : FlaggedFileRecord) (now : ℕ) : ReplayState :=
  ((replay.check r.recordId ⟨r.originPeerId.1⟩ r.sequence now).2.markPending r.recordId now).accept
    r.recordId ⟨r.originPeerId.1⟩ r.sequence now

lemma ingest_new (horigin : r.origin K = .ok ⟨r.originPeerId.1⟩) {inserted : Bool}
    {db : SignatureDatabase}
    (hnew : (node.replay.check r.recordId ⟨r.originPeerId.1⟩ r.sequence m.now).1 = .new)
    (hins : node.db.insertRecord m.storage r = .ok (inserted, db)) :
    node.ingest K m r = ⟨accepted node.replay r m.now, db⟩ := by
  unfold Node.ingest accepted
  simp only [horigin]
  rcases hc : node.replay.check r.recordId ⟨r.originPeerId.1⟩ r.sequence m.now with ⟨d, replay⟩
  rw [hc] at hnew
  cases hnew
  simp [hins]

/-- A delivery either only touches the caches or stores and accepts a new record. -/
lemma ingest_cases (horigin : r.origin K = .ok ⟨r.originPeerId.1⟩) :
    ((node.ingest K m r).db = node.db ∧
      (node.ingest K m r).replay.activeRecords = node.replay.activeRecords ∧
      (node.ingest K m r).replay.sequenceWindow = node.replay.sequenceWindow) ∨
    (node.replay.check r.recordId ⟨r.originPeerId.1⟩ r.sequence m.now).1 = .new ∧
      ∃ inserted db, node.db.insertRecord m.storage r = .ok (inserted, db) ∧
      node.ingest K m r = ⟨accepted node.replay r m.now, db⟩ := by
  have hframe := check_frame node.replay r.recordId ⟨r.originPeerId.1⟩ r.sequence m.now
  unfold Node.ingest accepted
  simp only [horigin]
  rcases hc : node.replay.check r.recordId ⟨r.originPeerId.1⟩ r.sequence m.now with ⟨d, replay⟩
  rw [hc] at hframe
  cases d with
  | new =>
    rcases hi : node.db.insertRecord m.storage r with e | ⟨inserted, db⟩
    · exact .inl ⟨rfl, hframe.2.1, hframe.2.2.1⟩
    · exact .inr ⟨rfl, inserted, db, rfl, rfl⟩
  | duplicate => exact .inl ⟨rfl, hframe.2.1, hframe.2.2.1⟩
  | tooOld => exact .inl ⟨rfl, hframe.2.1, hframe.2.2.1⟩

/-- Whatever the caches and the store know comes from the records delivered so far. -/
structure Tracks (node : Node) (D : List FlaggedFileRecord) : Prop where
  words : ∀ id, node.replay.activeRecords.indices id = filterIndices id
  window : node.replay.sequenceWindow = SEQUENCE_WINDOW
  seen : ∀ id, node.replay.recentlySeen.peek id ≠ none → ∃ r ∈ D, r.recordId = id
  ones : ∀ i ∈ node.replay.activeRecords.ones, ∃ r ∈ D, i ∈ filterIndices r.recordId
  highest : ∀ o, ∀ h ∈ node.replay.persistentHighest.lookup o,
    ∃ r ∈ D, r.originPeerId.1 = o.toBytes ∧ r.sequence = h
  origins : ∀ o w, node.replay.origins.peek o = some w →
    (∃ r ∈ D, r.originPeerId.1 = o.toBytes ∧ r.sequence = w.highest) ∧
      ∀ q ∈ w.accepted, ∃ r ∈ D, r.originPeerId.1 = o.toBytes ∧ r.sequence = q
  holds : Holds node.db D

lemma tracks_fresh (inMemory : Bool) : Tracks (.fresh inMemory) [] where
  words _ := rfl
  window := rfl
  seen id h := by
    simp [Node.fresh, ReplayState.default, ReplayState.withLimits] at h
  ones i h := by
    simp [Node.fresh, ReplayState.default, ReplayState.withLimits, ActiveRecordFilter.new] at h
  highest o h hh := by
    simp [Node.fresh, ReplayState.default, ReplayState.withLimits] at hh
  origins o w hw := by
    simp [Node.fresh, ReplayState.default, ReplayState.withLimits] at hw
  holds := ⟨by simp, by simp [Node.fresh, SignatureDatabase.open, RecordsTable.empty]⟩

/-- What a record needs of those delivered before it. -/
structure Fits (D : List FlaggedFileRecord) (r : FlaggedFileRecord) : Prop where
  id_ne : ∀ s ∈ D, s.recordId ≠ r.recordId
  sequence_ne : ∀ s ∈ D, s.originPeerId = r.originPeerId → s.sequence ≠ r.sequence
  near : ∀ s ∈ D, s.originPeerId = r.originPeerId →
    s.sequence.toNat < r.sequence.toNat + SEQUENCE_WINDOW.toNat
  uncovered : ∃ index ∈ filterIndices r.recordId, ∀ s ∈ D, index ∉ filterIndices s.recordId
  storable : Storable r

lemma check_new_of_fits {D : List FlaggedFileRecord} (h : Tracks node D) (hf : Fits D r)
    (now : ℕ) :
    (node.replay.check r.recordId ⟨r.originPeerId.1⟩ r.sequence now).1 = .new := by
  have hbound : ∀ s ∈ D, s.originPeerId.1 = r.originPeerId.1 →
      s.sequence < saturatingAdd r.sequence SEQUENCE_WINDOW := by
    intro s hs ho
    have hn := hf.near s hs (Subtype.ext ho)
    have hW : SEQUENCE_WINDOW.toNat = 1024 := rfl
    have hr := hf.storable.1
    rw [UInt64.lt_iff_toNat_lt, saturatingAdd_toNat]
    omega
  refine check_new_iff.mpr ⟨?_, ?_, ?_⟩
  · intro seenAt hs
    obtain ⟨s, hsD, hid⟩ := h.seen r.recordId (by simp [Option.mem_def.mp hs])
    exact absurd hid (hf.id_ne s hsD)
  · rw [Bool.eq_false_iff]
    intro hc
    obtain ⟨index, hi, hnot⟩ := hf.uncovered
    have hone := ActiveRecordFilter.contains_iff.mp hc index (by rwa [h.words])
    obtain ⟨s, hsD, hs⟩ := h.ones index hone
    exact hnot s hsD hs
  · unfold ReplayState.OriginAdmits
    rw [h.window]
    rcases hp : node.replay.origins.peek ⟨r.originPeerId.1⟩ with _ | w
    · intro highest hh
      obtain ⟨s, hsD, ho, rfl⟩ := h.highest _ highest hh
      exact hbound s hsD ho
    · obtain ⟨⟨s, hsD, ho, hs⟩, hacc⟩ := h.origins _ w hp
      refine ⟨?_, hs ▸ hbound s hsD ho⟩
      intro hq
      obtain ⟨t, htD, hto, ht⟩ := hacc _ hq
      exact hf.sequence_ne t htD (Subtype.ext hto) ht

lemma insertOrIgnore_of_fits {D : List FlaggedFileRecord} {db : SignatureDatabase}
    (h : Holds db D) (hf : Fits D r) {row : Row} (hrow : toRow r = .ok row) :
    (db.records.insertOrIgnore row).1 = true := by
  obtain ⟨hid, ho, hs, -⟩ := toRow_fields hrow
  rw [insertOrIgnore_fst]
  constructor
  · intro hm
    obtain ⟨row', hmem, heq⟩ := List.mem_map.mp hm
    obtain ⟨s, hsD, hs'⟩ := h.2 row' hmem
    exact hf.id_ne s hsD ((toRow_fields hs').1.symm.trans (heq.trans hid))
  · intro hm
    obtain ⟨row', hmem, heq⟩ := List.mem_map.mp hm
    obtain ⟨s, hsD, hs'⟩ := h.2 row' hmem
    obtain ⟨-, ho', hseq', -⟩ := toRow_fields hs'
    simp only [Row.originSequence, Prod.mk.injEq] at heq
    refine hf.sequence_ne s hsD (Subtype.ext (by rw [← ho', heq.1, ho])) ?_
    apply UInt64.toNat_inj.mp
    rw [heq.2, hs] at hseq'
    omega

lemma holds_insert {D : List FlaggedFileRecord} {db db' : SignatureDatabase} {row : Row}
    (h : Holds db D) (hrow : toRow r = .ok row)
    (hrows : db'.records.rows = db.records.rows ++ [row]) : Holds db' (r :: D) := by
  constructor
  · intro s hs
    rw [hrows]
    rcases List.mem_cons.mp hs with rfl | hs
    · exact ⟨row, by simp, hrow⟩
    · obtain ⟨row', hmem, hs'⟩ := h.1 s hs
      exact ⟨row', by simp [hmem], hs'⟩
  · intro row' hmem
    rw [hrows] at hmem
    rcases List.mem_append.mp hmem with hmem | hmem
    · obtain ⟨s, hs, hs'⟩ := h.2 row' hmem
      exact ⟨s, List.mem_cons_of_mem _ hs, hs'⟩
    · rw [List.mem_singleton.mp hmem]
      exact ⟨r, List.mem_cons_self, hrow⟩

lemma tracks_accept {D : List FlaggedFileRecord} {db : SignatureDatabase} {now : ℕ}
    (h : Tracks node D) (hdb : Holds db (r :: D)) :
    Tracks ⟨accepted node.replay r now, db⟩ (r :: D) := by
  obtain ⟨hp, ha, hW, -, hor, hseen⟩ := check_frame node.replay r.recordId ⟨r.originPeerId.1⟩
    r.sequence now
  have hself : r ∈ r :: D := List.mem_cons_self
  unfold accepted
  refine ⟨?_, ?_, ?_, ?_, ?_, ?_, hdb⟩
  · intro id
    simpa [ReplayState.accept, ReplayState.markPending, ha] using h.words id
  · simpa [ReplayState.accept, ReplayState.markPending, hW] using h.window
  · intro id hid
    by_cases heq : id = r.recordId
    · exact ⟨r, hself, heq.symm⟩
    · obtain ⟨t, ht⟩ := Option.ne_none_iff_exists'.mp hid
      have hold := LruCache.peek_of_peek_put heq (LruCache.peek_of_peek_put heq ht)
      rw [hseen id heq] at hold
      obtain ⟨s, hs, hsid⟩ := h.seen id (by simp [hold])
      exact ⟨s, List.mem_cons_of_mem _ hs, hsid⟩
  · intro i hi
    rcases ActiveRecordFilter.mem_insert.mp hi with hi | hi
    · simp only [ReplayState.markPending, ha] at hi
      obtain ⟨s, hs, hsi⟩ := h.ones i hi
      exact ⟨s, List.mem_cons_of_mem _ hs, hsi⟩
    · simp only [ReplayState.markPending, ha, h.words] at hi
      exact ⟨r, hself, hi⟩
  · intro o q hq
    by_cases ho : o = ⟨r.originPeerId.1⟩
    · subst ho
      simp only [ReplayState.accept, ReplayState.markPending, hp, AList.lookup_insert,
        Option.mem_some_iff] at hq
      rcases hl : node.replay.persistentHighest.lookup ⟨r.originPeerId.1⟩ with _ | old
      · exact ⟨r, hself, rfl, by simpa [hl] using hq⟩
      · obtain ⟨s, hs, hso, hsq⟩ := h.highest _ old hl
        rw [hl] at hq
        dsimp only at hq
        subst hq
        rcases max_eq_or old r.sequence with hm | hm
        · exact ⟨s, List.mem_cons_of_mem _ hs, hso, hsq.trans hm.symm⟩
        · exact ⟨r, hself, rfl, hm.symm⟩
    · simp only [ReplayState.accept, ReplayState.markPending, hp, AList.lookup_insert_ne ho] at hq
      obtain ⟨s, hs, hso⟩ := h.highest o q hq
      exact ⟨s, List.mem_cons_of_mem _ hs, hso⟩
  · intro o w hw
    by_cases ho : o = ⟨r.originPeerId.1⟩
    · subst ho
      simp only [ReplayState.accept, ReplayState.markPending, hor, LruCache.peek_put_self,
        Option.some.injEq] at hw
      subst hw
      rcases hl : node.replay.origins.peek ⟨r.originPeerId.1⟩ with _ | old
      · refine ⟨⟨r, hself, rfl, (ite_self _).symm⟩, fun q hq => ⟨r, hself, rfl, ?_⟩⟩
        simp only [Option.getD_none, OriginWindow.accept, insert_empty_eq, Finset.mem_filter,
          Finset.mem_singleton] at hq
        exact hq.1.symm
      · obtain ⟨⟨s, hs, hso, hsq⟩, hacc⟩ := h.origins _ old hl
        refine ⟨?_, fun q hq => ?_⟩
        · rcases max_eq_or old.highest r.sequence with hm | hm
          · exact ⟨s, List.mem_cons_of_mem _ hs, hso, hsq.trans hm.symm⟩
          · exact ⟨r, hself, rfl, hm.symm⟩
        · simp only [Option.getD_some, OriginWindow.accept, Finset.mem_filter,
            Finset.mem_insert] at hq
          rcases hq.1 with rfl | hq
          · exact ⟨r, hself, rfl, rfl⟩
          · obtain ⟨t, ht, hto, htq⟩ := hacc q hq
            exact ⟨t, List.mem_cons_of_mem _ ht, hto, htq⟩
    · have hold := LruCache.peek_of_peek_put ho hw
      simp only [ReplayState.markPending, hor] at hold
      obtain ⟨⟨s, hs, hs'⟩, hacc⟩ := h.origins o w hold
      refine ⟨⟨s, List.mem_cons_of_mem _ hs, hs'⟩, fun q hq => ?_⟩
      obtain ⟨t, ht, ht'⟩ := hacc q hq
      exact ⟨t, List.mem_cons_of_mem _ ht, ht'⟩

lemma tracks_ingest {D : List FlaggedFileRecord} (h : Tracks node D) (hf : Fits D r)
    (horigin : r.origin K = .ok ⟨r.originPeerId.1⟩)
    (hgate : node.db.ensureCapacity m.storage [r] = .ok ()) :
    Tracks (node.ingest K m r) (r :: D) := by
  obtain ⟨row, db, hrow, hins, hrec⟩ := insertRecord_eq hgate hf.storable
  have hnew := check_new_of_fits h hf m.now
  have htrue := insertOrIgnore_of_fits h.holds hf hrow
  have hrows : db.records.rows = node.db.records.rows ++ [row] := by
    rw [hrec, insertOrIgnore_rows, htrue, if_pos rfl]
  rw [ingest_new horigin hnew hins]
  exact tracks_accept h (holds_insert h.holds hrow hrows)

lemma fits_of_compatible {S D : List FlaggedFileRecord} (h : Compatible S)
    (hids : (S.map FlaggedFileRecord.recordId).Nodup)
    (hseqs : (S.map fun r => (r.originPeerId, r.sequence)).Nodup) (hr : r ∈ S) (hD : ∀ s ∈ D, s ∈ S)
    (hfresh : r ∉ D) : Fits D r where
  id_ne s hs heq := by
    rw [List.inj_on_of_nodup_map hids (hD s hs) hr heq] at hs
    exact hfresh hs
  sequence_ne s hs ho heq := by
    rw [List.inj_on_of_nodup_map hseqs (hD s hs) hr (Prod.ext ho heq)] at hs
    exact hfresh hs
  near s hs ho := h.near s (hD s hs) r hr ho
  uncovered := by
    obtain ⟨index, hi, hnot⟩ := h.uncovered r hr
    refine ⟨index, hi, fun s hs => hnot s (hD s hs) fun heq => ?_⟩
    rw [List.inj_on_of_nodup_map hids (hD s hs) hr heq] at hs
    exact hfresh hs
  storable := h.storable r hr

lemma tracks_deliver {S D order : List FlaggedFileRecord} {schedule : ℕ → Moment}
    (hS : Compatible S) (hids : (S.map FlaggedFileRecord.recordId).Nodup)
    (hseqs : (S.map fun r => (r.originPeerId, r.sequence)).Nodup)
    (horigin : ∀ r ∈ S, r.origin K = .ok ⟨r.originPeerId.1⟩)
    (hnodup : (D ++ order).Nodup) (hsub : ∀ r ∈ D ++ order, r ∈ S)
    (hopen : GateOpen K schedule node order) (h : Tracks node D) :
    Holds (deliver K schedule node order).db (D ++ order) := by
  induction order generalizing node D schedule with
  | nil => simpa [deliver] using h.holds
  | cons r rs ih =>
    have hrS : r ∈ S := hsub r (by simp)
    have hmid : (r :: D ++ rs).Perm (D ++ r :: rs) := List.perm_middle.symm
    have hfresh : r ∉ D := fun hm =>
      (List.nodup_append.mp hnodup).2.2 r hm r List.mem_cons_self rfl
    have hfits := fits_of_compatible hS hids hseqs hrS (fun s hs => hsub s (by simp [hs])) hfresh
    have hnext := tracks_ingest (m := schedule 0) h hfits (horigin r hrS) hopen.1
    have hrest := ih (hmid.nodup_iff.mpr hnodup) (fun s hs => hsub s (hmid.mem_iff.mp hs))
      hopen.2 hnext
    constructor
    · exact fun s hs => hrest.1 s (hmid.mem_iff.mpr hs)
    · intro row hrow
      obtain ⟨s, hs, hs'⟩ := hrest.2 row hrow
      exact ⟨s, hmid.mem_iff.mp hs, hs'⟩

lemma insertRecord_rows {db db' : SignatureDatabase} {readings : StorageReadings}
    {inserted : Bool} (h : db.insertRecord readings r = .ok (inserted, db')) :
    ∃ row, toRow r = .ok row ∧
      (db'.records.rows = db.records.rows ∨ db'.records.rows = db.records.rows ++ [row]) := by
  have hb : ∃ out, db.insertBatch readings [r] = .ok out := by
    unfold SignatureDatabase.insertRecord at h
    rcases hi : db.insertBatch readings [r] with e | out
    · simp [hi] at h
    · exact ⟨out, rfl⟩
  obtain ⟨hgate, hfit⟩ := insertBatch_ok_iff.mp hb
  obtain ⟨row, db₂, hrow, hins, hrec⟩ := insertRecord_eq hgate (hfit r (by simp))
  rw [h] at hins
  obtain ⟨-, rfl⟩ := Prod.mk.inj (Except.ok.inj hins)
  refine ⟨row, hrow, ?_⟩
  rw [hrec, insertOrIgnore_rows]
  split_ifs
  · exact .inr rfl
  · exact .inl rfl

/-- A delivery adds at most the row of its record, and only after a new decision. -/
lemma ingest_rows (horigin : r.origin K = .ok ⟨r.originPeerId.1⟩) {row : Row}
    (hrow : row ∈ (node.ingest K m r).db.records.rows) (hnot : row ∉ node.db.records.rows) :
    toRow r = .ok row ∧
      (node.replay.check r.recordId ⟨r.originPeerId.1⟩ r.sequence m.now).1 = .new ∧
      (node.ingest K m r).replay = accepted node.replay r m.now := by
  rcases ingest_cases (K := K) horigin with ⟨hdb, -⟩ | ⟨hnew, b, db, hins, heq⟩
  · rw [hdb] at hrow
    exact absurd hrow hnot
  · rw [heq] at hrow
    obtain ⟨row', hrow', hrows⟩ := insertRecord_rows hins
    rcases hrows with hrows | hrows
    · rw [hrows] at hrow
      exact absurd hrow hnot
    · rw [hrows] at hrow
      rcases List.mem_append.mp hrow with hm | hm
      · exact absurd hm hnot
      · rw [List.mem_singleton.mp hm]
        exact ⟨hrow', hnew, by rw [heq]⟩

lemma deliver_append (schedule : ℕ → Moment) (xs ys : List FlaggedFileRecord) :
    deliver K schedule node (xs ++ ys) =
      deliver K (fun i => schedule (i + xs.length)) (deliver K schedule node xs) ys := by
  induction xs generalizing node schedule with
  | nil => rfl
  | cons x xs ih =>
    simp only [List.cons_append, deliver, ih, List.length_cons]
    rfl

lemma deliver_rows {order : List FlaggedFileRecord} {schedule : ℕ → Moment}
    (horigin : ∀ r ∈ order, r.origin K = .ok ⟨r.originPeerId.1⟩) {row : Row}
    (hrow : row ∈ (deliver K schedule node order).db.records.rows) :
    row ∈ node.db.records.rows ∨ ∃ r ∈ order, toRow r = .ok row := by
  induction order generalizing node schedule with
  | nil => exact .inl hrow
  | cons r rs ih =>
    rcases ih (fun s hs => horigin s (List.mem_cons_of_mem _ hs)) hrow with hm | ⟨s, hs, hs'⟩
    · by_cases hold : row ∈ node.db.records.rows
      · exact .inl hold
      · exact .inr ⟨r, List.mem_cons_self,
          (ingest_rows (horigin r List.mem_cons_self) hm hold).1⟩
    · exact .inr ⟨s, List.mem_cons_of_mem _ hs, hs'⟩

lemma accepted_ones (replay : ReplayState) (r : FlaggedFileRecord) (now : ℕ) :
    (accepted replay r now).activeRecords = replay.activeRecords.insert r.recordId := by
  have h := (check_frame replay r.recordId ⟨r.originPeerId.1⟩ r.sequence now).2.1
  simp [accepted, ReplayState.accept, ReplayState.markPending, h]

lemma ingest_ones (horigin : r.origin K = .ok ⟨r.originPeerId.1⟩) :
    (∀ id, (node.ingest K m r).replay.activeRecords.indices id =
        node.replay.activeRecords.indices id) ∧
      node.replay.activeRecords.ones ⊆ (node.ingest K m r).replay.activeRecords.ones := by
  rcases ingest_cases (K := K) (m := m) horigin with ⟨-, hact, -⟩ | ⟨-, b, db, -, heq⟩
  · rw [hact]
    exact ⟨fun id => rfl, subset_rfl⟩
  · rw [heq]
    simp only [accepted_ones]
    exact ⟨fun id => rfl, fun i hi => ActiveRecordFilter.mem_insert.mpr (.inl hi)⟩

lemma deliver_ones {order : List FlaggedFileRecord} {schedule : ℕ → Moment}
    (horigin : ∀ r ∈ order, r.origin K = .ok ⟨r.originPeerId.1⟩) :
    (∀ id, (deliver K schedule node order).replay.activeRecords.indices id =
        node.replay.activeRecords.indices id) ∧
      node.replay.activeRecords.ones ⊆
        (deliver K schedule node order).replay.activeRecords.ones := by
  induction order generalizing node schedule with
  | nil => exact ⟨fun id => rfl, subset_rfl⟩
  | cons r rs ih =>
    obtain ⟨hi, hsub⟩ := @ingest_ones K node (schedule 0) r (horigin r List.mem_cons_self)
    obtain ⟨hi', hsub'⟩ := ih (fun s hs => horigin s (List.mem_cons_of_mem _ hs))
    exact ⟨fun id => (hi' id).trans (hi id), hsub.trans hsub'⟩

/-- A record whose row arrived during a delivery left its bits in the filter. -/
lemma stored_ones {order : List FlaggedFileRecord} {schedule : ℕ → Moment}
    (horigin : ∀ r ∈ order, r.origin K = .ok ⟨r.originPeerId.1⟩) {s : FlaggedFileRecord}
    {row : Row} (hs : toRow s = .ok row) (hnot : row ∉ node.db.records.rows)
    (hrow : row ∈ (deliver K schedule node order).db.records.rows) :
    ∀ i ∈ node.replay.activeRecords.indices s.recordId,
      i ∈ (deliver K schedule node order).replay.activeRecords.ones := by
  induction order generalizing node schedule with
  | nil => exact absurd hrow hnot
  | cons r rs ih =>
    have hrs : ∀ s ∈ rs, s.origin K = .ok ⟨s.originPeerId.1⟩ :=
      fun s hs => horigin s (List.mem_cons_of_mem _ hs)
    intro i hi
    by_cases hm : row ∈ (node.ingest K (schedule 0) r).db.records.rows
    · obtain ⟨hr, -, hacc⟩ := ingest_rows (horigin r List.mem_cons_self) hm hnot
      have hid : r.recordId = s.recordId := (toRow_fields hr).1.symm.trans (toRow_fields hs).1
      apply (deliver_ones hrs).2
      rw [hacc, accepted_ones]
      exact ActiveRecordFilter.mem_insert.mpr (.inr (by rwa [hid]))
    · have hi' : i ∈ (node.ingest K (schedule 0) r).replay.activeRecords.indices s.recordId := by
        rwa [(ingest_ones (horigin r List.mem_cons_self)).1]
      exact ih hrs hm hrow i hi'

lemma fresh_rows (inMemory : Bool) (row : Row) : row ∉ (Node.fresh inMemory).db.records.rows := by
  simp [Node.fresh, SignatureDatabase.open, RecordsTable.empty]

lemma last_new {inMemory : Bool} {xs : List FlaggedFileRecord} {schedule : ℕ → Moment}
    (horigin : ∀ s ∈ xs ++ [r], s.origin K = .ok ⟨s.originPeerId.1⟩)
    (hids : ((xs ++ [r]).map FlaggedFileRecord.recordId).Nodup)
    (hholds : Holds (deliver K schedule (.fresh inMemory) (xs ++ [r])).db (xs ++ [r])) :
    ∃ now, ((deliver K schedule (.fresh inMemory) xs).replay.check r.recordId ⟨r.originPeerId.1⟩
      r.sequence now).1 = .new := by
  obtain ⟨row, hrow, hr⟩ := hholds.1 r (by simp)
  rw [deliver_append] at hrow
  have hnot : row ∉ (deliver K schedule (.fresh inMemory) xs).db.records.rows := by
    intro hm
    rcases deliver_rows (fun s hs => horigin s (by simp [hs])) hm with hm | ⟨s, hs, hs'⟩
    · exact fresh_rows inMemory row hm
    · have hid : s.recordId = r.recordId := (toRow_fields hs').1.symm.trans (toRow_fields hr).1
      rw [List.map_append, List.nodup_append] at hids
      exact hids.2.2 _ (List.mem_map_of_mem hs) r.recordId (by simp) hid
  exact ⟨_, (ingest_rows (horigin r (by simp)) hrow hnot).2.1⟩

/-- A record delivered before the last one is stored by then. -/
lemma stored_before_last {inMemory : Bool} {xs : List FlaggedFileRecord}
    {schedule : ℕ → Moment}
    (horigin : ∀ s ∈ xs ++ [r], s.origin K = .ok ⟨s.originPeerId.1⟩)
    (hids : ((xs ++ [r]).map FlaggedFileRecord.recordId).Nodup)
    (hholds : Holds (deliver K schedule (.fresh inMemory) (xs ++ [r])).db (xs ++ [r]))
    {s : FlaggedFileRecord} (hs : s ∈ xs) :
    ∃ row ∈ (deliver K schedule (.fresh inMemory) xs).db.records.rows, toRow s = .ok row := by
  obtain ⟨row, hrow, hs'⟩ := hholds.1 s (by simp [hs])
  refine ⟨row, ?_, hs'⟩
  rw [deliver_append] at hrow
  by_contra hnot
  have hr := (ingest_rows (horigin r (by simp)) hrow hnot).1
  have hid : s.recordId = r.recordId := (toRow_fields hs').1.symm.trans (toRow_fields hr).1
  rw [List.map_append, List.nodup_append] at hids
  exact hids.2.2 _ (List.mem_map_of_mem hs) r.recordId (by simp) hid

/-- Right after its acceptance a record's origin admits nothing a window below it. -/
lemma accepted_refuses {replay : ReplayState} {s : FlaggedFileRecord} {now : ℕ} {q : UInt64}
    (hW : replay.sequenceWindow = SEQUENCE_WINDOW)
    (hlow : q.toNat + SEQUENCE_WINDOW.toNat ≤ s.sequence.toNat) :
    ¬ (accepted replay s now).OriginAdmits ⟨s.originPeerId.1⟩ q := by
  have hframe := (check_frame replay s.recordId ⟨s.originPeerId.1⟩ s.sequence now).2.2.1
  intro hadm
  unfold ReplayState.OriginAdmits at hadm
  simp only [accepted, ReplayState.accept, ReplayState.markPending, LruCache.peek_put_self,
    OriginWindow.accept, hframe, hW] at hadm
  refine absurd (saturatingAdd_le_of_le ?_) (UInt64.not_le.mpr hadm.2)
  refine hlow.trans ?_
  rw [max_toNat]
  exact Nat.le_max_right ..

lemma deliver_window {order : List FlaggedFileRecord} {schedule : ℕ → Moment}
    (horigin : ∀ r ∈ order, r.origin K = .ok ⟨r.originPeerId.1⟩) :
    (deliver K schedule node order).replay.sequenceWindow = node.replay.sequenceWindow := by
  induction order generalizing node schedule with
  | nil => rfl
  | cons r rs ih =>
    refine (ih fun s hs => horigin s (List.mem_cons_of_mem _ hs)).trans ?_
    rcases @ingest_cases K node (schedule 0) r (horigin r List.mem_cons_self) with
      ⟨-, -, hW⟩ | ⟨-, b, db, -, heq⟩
    · exact hW
    · rw [heq]
      exact (check_frame node.replay r.recordId ⟨r.originPeerId.1⟩ r.sequence _).2.2.1

lemma Holds.perm {db : SignatureDatabase} {S T : List FlaggedFileRecord} (h : Holds db S)
    (hperm : S.Perm T) : Holds db T := by
  constructor
  · exact fun r hr => h.1 r (hperm.mem_iff.mpr hr)
  · intro row hrow
    obtain ⟨r, hr, hr'⟩ := h.2 row hrow
    exact ⟨r, hperm.mem_iff.mp hr, hr'⟩

section EveryOrder
variable {inMemory : Bool} {schedule : ℕ → Moment} {S : List FlaggedFileRecord}
  (horigin : ∀ r ∈ S, r.origin K = .ok ⟨r.originPeerId.1⟩)
  (hids : (S.map FlaggedFileRecord.recordId).Nodup)
  (hall : ∀ order, order.Perm S → Holds (deliver K schedule (.fresh inMemory) order).db S)
include horigin hids hall

lemma uncovered_of_every_order (hr : r ∈ S) : ∃ index ∈ filterIndices r.recordId,
    ∀ s ∈ S, s.recordId ≠ r.recordId → index ∉ filterIndices s.recordId := by
  have hperm : (S.erase r ++ [r]).Perm S :=
    (List.perm_append_singleton r _).trans (List.perm_cons_erase hr).symm
  have horg : ∀ s ∈ S.erase r ++ [r], s.origin K = .ok ⟨s.originPeerId.1⟩ :=
    fun s hs => horigin s (hperm.mem_iff.mp hs)
  have hnodup := (hperm.map FlaggedFileRecord.recordId).nodup_iff.mpr hids
  have hholds := (hall _ hperm).perm hperm.symm
  obtain ⟨now, hnew⟩ := last_new horg hnodup hholds
  have hcontains := (check_new_iff.mp hnew).2.1
  rw [Bool.eq_false_iff, ne_eq, ActiveRecordFilter.contains_iff, not_forall] at hcontains
  obtain ⟨index, hindex⟩ := hcontains
  rw [Classical.not_imp] at hindex
  have horg' : ∀ s ∈ S.erase r, s.origin K = .ok ⟨s.originPeerId.1⟩ :=
    fun s hs => horg s (by simp [hs])
  have hown := hindex.1
  rw [(deliver_ones horg').1] at hown
  refine ⟨index, hown, fun s hs hne hi => hindex.2 ?_⟩
  have hsr : s ≠ r := fun h => hne (congrArg FlaggedFileRecord.recordId h)
  have hmem : s ∈ S.erase r := (List.mem_erase_of_ne hsr).mpr hs
  obtain ⟨row, hrow, hs'⟩ := stored_before_last horg hnodup hholds hmem
  exact stored_ones horg' hs' (fresh_rows inMemory row) hrow index hi

lemma near_of_every_order {s : FlaggedFileRecord} (hr : r ∈ S) (hs : s ∈ S)
    (ho : r.originPeerId = s.originPeerId) :
    r.sequence.toNat < s.sequence.toNat + SEQUENCE_WINDOW.toNat := by
  by_contra hfar
  have hlow : s.sequence.toNat + SEQUENCE_WINDOW.toNat ≤ r.sequence.toNat := by omega
  have hne : r ≠ s := by
    rintro rfl
    have hW : SEQUENCE_WINDOW.toNat = 1024 := rfl
    omega
  have hmem : r ∈ S.erase s := (List.mem_erase_of_ne hne).mpr hr
  have hperm : (((S.erase s).erase r ++ [r]) ++ [s]).Perm S := by
    refine (List.perm_append_singleton s _).trans ?_
    refine (List.Perm.cons s ?_).trans (List.perm_cons_erase hs).symm
    exact (List.perm_append_singleton r _).trans (List.perm_cons_erase hmem).symm
  have horg : ∀ t ∈ ((S.erase s).erase r ++ [r]) ++ [s], t.origin K = .ok ⟨t.originPeerId.1⟩ :=
    fun t ht => horigin t (hperm.mem_iff.mp ht)
  have hnodup := (hperm.map FlaggedFileRecord.recordId).nodup_iff.mpr hids
  have hholds := (hall _ hperm).perm hperm.symm
  obtain ⟨now, hnew⟩ := last_new horg hnodup hholds
  obtain ⟨row, hrow, hr'⟩ := stored_before_last (s := r) horg hnodup hholds (by simp)
  have hadm := (check_new_iff.mp hnew).2.2
  rw [deliver_append] at hrow hadm
  have hnot : row ∉
      (deliver K schedule (.fresh inMemory) ((S.erase s).erase r)).db.records.rows := by
    intro hm
    rcases deliver_rows (fun t ht => horg t (by simp [ht])) hm with hm | ⟨t, ht, ht'⟩
    · exact fresh_rows inMemory row hm
    · have hid : t.recordId = r.recordId := (toRow_fields ht').1.symm.trans (toRow_fields hr').1
      rw [List.map_append, List.nodup_append, List.map_append, List.nodup_append] at hnodup
      exact hnodup.1.2.2 _ (List.mem_map_of_mem ht) r.recordId (by simp) hid
  obtain ⟨-, -, hacc⟩ := ingest_rows (horg r (by simp)) hrow hnot
  simp only [deliver] at hadm
  rw [hacc, ← ho] at hadm
  exact accepted_refuses (deliver_window fun t ht => horg t (by simp [ht])) hlow hadm

end EveryOrder

/-- In every order of delivery every record is stored, exactly when no two records of one origin
lie a sequence window apart, no id is covered by the filter bits of the others and every record
fits the columns. -/
theorem every_order_stores_iff {inMemory : Bool} {schedule : ℕ → Moment}
    {S : List FlaggedFileRecord}
    (hvalid : ∀ r ∈ S, ∃ now, RecordValidator.default.validate K r now = .ok ())
    (hids : (S.map FlaggedFileRecord.recordId).Nodup)
    (hseqs : (S.map fun r => (r.originPeerId, r.sequence)).Nodup)
    (hopen : ∀ order, order.Perm S → GateOpen K schedule (.fresh inMemory) order) :
    (∀ order, order.Perm S → Holds (deliver K schedule (.fresh inMemory) order).db S) ↔
      Compatible S := by
  have horigin : ∀ r ∈ S, r.origin K = .ok ⟨r.originPeerId.1⟩ := by
    intro r hr
    obtain ⟨now, h⟩ := hvalid r hr
    exact origin_of_validate h
  constructor
  · intro hall
    refine ⟨fun r hr s hs ho => near_of_every_order horigin hids hall hr hs ho,
      fun r hr => uncovered_of_every_order horigin hids hall hr, fun r hr => ?_⟩
    obtain ⟨row, -, hrow⟩ := (hall S (.refl S)).1 r hr
    exact toRow_ok_iff.mp ⟨row, hrow⟩
  · intro hS order hperm
    have hholds := tracks_deliver (D := []) hS hids hseqs horigin
      ((hperm.map _).nodup_iff.mpr hids |>.of_map _) (fun r hr => hperm.mem_iff.mp hr)
      (hopen order hperm) (tracks_fresh inMemory)
    exact Holds.perm hholds hperm

def quietMoment : Moment := ⟨0, DatabaseBatch.sampleReadings⟩

def early : FlaggedFileRecord := sampleRecord 1 1 1 0 1000

def late (sequence : UInt64) : FlaggedFileRecord := sampleRecord 1 sequence 1 0 1000

lemma sample_validated {r : FlaggedFileRecord} {sequence : UInt64}
    (hr : r ∈ [early, late sequence]) :
    ∃ now, RecordValidator.default.validate samplePrimitives r now = .ok () := by
  simp only [List.mem_cons, List.not_mem_nil, or_false] at hr
  rcases hr with rfl | rfl
  · exact ⟨0, sampleRecord_valid (by decide) (by decide) (by decide) (by decide)⟩
  · exact ⟨0, sampleRecord_valid (by decide) (by decide) (by decide) (by decide)⟩

lemma gateOpen_pair {order : List FlaggedFileRecord} (h : order.Perm [early, late 2]) :
    GateOpen samplePrimitives (fun _ => quietMoment) (.fresh false) order := by
  have hm : order ∈ [early, late 2].permutations' := List.mem_permutations'.mpr h
  have hp : [early, late 2].permutations' = [[early, late 2], [late 2, early]] := rfl
  rw [hp, List.mem_cons, List.mem_singleton] at hm
  rcases hm with rfl | rfl
  · exact ⟨by decide +kernel, by decide +kernel, trivial⟩
  · exact ⟨by decide +kernel, by decide +kernel, trivial⟩

theorem every_order_stores_pair :
    (∀ order, order.Perm [early, late 2] → Holds
      (deliver samplePrimitives (fun _ => quietMoment) (.fresh false) order).db [early, late 2]) ↔
      Compatible [early, late 2] :=
  every_order_stores_iff (fun _ => sample_validated) (by decide +kernel) (by decide +kernel)
    fun _ => gateOpen_pair

/-- Two records of one origin more than a window apart survive in one order only. -/
theorem far_pair_order_observed :
    (∀ r ∈ [early, late 2000],
      RecordValidator.default.validate samplePrimitives r 0 = .ok ()) ∧
    ([early, late 2000].map FlaggedFileRecord.recordId).Nodup ∧
    ([early, late 2000].map fun r => (r.originPeerId, r.sequence)).Nodup ∧
    ((deliver samplePrimitives (fun _ => quietMoment) (.fresh false)
      [early, late 2000]).db.records.rows.map Row.recordId) =
        [early.recordId, (late 2000).recordId] ∧
    ((deliver samplePrimitives (fun _ => quietMoment) (.fresh false)
      [late 2000, early]).db.records.rows.map Row.recordId) = [(late 2000).recordId] := by
  refine ⟨?_, by decide +kernel, by decide +kernel, by decide +kernel, by decide +kernel⟩
  intro r hr
  simp only [List.mem_cons, List.not_mem_nil, or_false] at hr
  rcases hr with rfl | rfl
  · exact sampleRecord_valid (by decide) (by decide) (by decide) (by decide)
  · exact sampleRecord_valid (by decide) (by decide) (by decide) (by decide)

end Protonet.Ingestion
