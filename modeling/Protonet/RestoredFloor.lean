import Protonet.Restart

namespace Protonet.RestoredFloor
open Lru MachineInt StepRun Postcard Record RecordIdentity Replay ReplayFloor Database Worker Swarm
  RecordCreation StoreRows GossipVerdicts StoreIntegrity Provenance Restart
open IdentityReset (nextLocalSequence)

variable {K : Primitives} {S : Signer K} {s : Node K S} {db db' second third : SignatureDatabase}
  {stored stored' rs : List FlaggedFileRecord} {r : FlaggedFileRecord} {g : Reading}

/-- No origin has a highest sequence that none of its stored records had. -/
def Attained (K : Primitives) (db : SignatureDatabase) (stored : List FlaggedFileRecord) : Prop :=
  ∀ origin highest, db.originSequences.lookup origin = some highest →
    ∃ r ∈ stored, Genuine K r ∧ r.originPeerId.1 = origin ∧ highest.toInt = r.sequence.toNat

lemma Attained.mono (h : Attained K db stored) (hsub : stored ⊆ stored')
    (hsame : db'.originSequences = db.originSequences) : Attained K db' stored' := by
  intro origin highest hlookup
  rw [hsame] at hlookup
  obtain ⟨r, hr, hrest⟩ := h origin highest hlookup
  exact ⟨r, hsub hr, hrest⟩

lemma max_cases (x y : Int64) : max x y = x ∨ max x y = y := by
  change (if x ≤ y then y else x) = x ∨ (if x ≤ y then y else x) = y
  split_ifs
  · exact .inr rfl
  · exact .inl rfl

lemma attained_insertOne {inserted : Bool} (h : Attained K db stored) (hr : Genuine K r)
    (hi : db.insertOne r = .ok (inserted, db')) :
    Attained K db' (stored ++ if inserted then [r] else []) := by
  unfold SignatureDatabase.insertOne at hi
  rcases hrow : toRow r with e | row
  · simp [hrow] at hi
  · rw [hrow] at hi
    dsimp only at hi
    obtain ⟨-, horigin, hsequence, -⟩ := toRow_fields hrow
    rcases ht : db.records.insertOrIgnore row with ⟨_ | _, t⟩
    all_goals
      rw [ht] at hi
      obtain ⟨rfl, rfl⟩ := Prod.mk.inj (Except.ok.inj hi)
    · exact h.mono (List.subset_append_left _ _) rfl
    · have hnew : ∃ x ∈ stored ++ [r], Genuine K x ∧ x.originPeerId.1 = row.originPeerId ∧
          row.sequence.toInt = x.sequence.toNat :=
        ⟨r, by simp, hr, horigin.symm, hsequence⟩
      intro other highest hlookup
      rw [lookup_raiseHighest] at hlookup
      split_ifs at hlookup with hother
      · subst hother
        rcases hold : db.originSequences.lookup row.originPeerId with _ | old
        · rw [show ({ db with records := t } : SignatureDatabase).originSequences.lookup
            row.originPeerId = none from hold] at hlookup
          obtain rfl := Option.some.inj hlookup
          exact hnew
        · rw [show ({ db with records := t } : SignatureDatabase).originSequences.lookup
            row.originPeerId = some old from hold] at hlookup
          obtain rfl := Option.some.inj hlookup
          rcases max_cases old row.sequence with hmax | hmax
          · obtain ⟨x, hx, hrest⟩ := h _ _ hold
            exact ⟨x, List.mem_append_left _ hx, by simpa [hmax] using hrest⟩
          · simpa [hmax] using hnew
      · exact h.mono (List.subset_append_left _ _) rfl other highest hlookup

lemma attained_insertRows {results : List Bool} (h : Attained K db stored)
    (hrs : ∀ r ∈ rs, Genuine K r) (hi : db.insertRows rs = .ok (results, db')) :
    Attained K db' (stored ++ accepted rs results) := by
  induction rs generalizing db stored results with
  | nil =>
    obtain ⟨rfl, rfl⟩ := insertRows_nil hi
    exact h.mono (List.subset_append_left _ _) rfl
  | cons r rs ih =>
    obtain ⟨inserted, mid, tail, hone, hrest, rfl⟩ := insertRows_cons hi
    have hmid := attained_insertOne h (hrs r List.mem_cons_self) hone
    have hlast := ih hmid (fun s hs => hrs s (List.mem_cons_of_mem _ hs)) hrest
    rwa [List.append_assoc, ← accepted_cons] at hlast

lemma attained_work {readings : StorageReadings} {batch : List PersistRequest}
    (h : Attained K db stored) (hlen : batch.length ≤ MAX_BATCH)
    (hbatch : ∀ q ∈ batch, Genuine K q.record) :
    Attained K (work K db readings batch).2 (stored ++ storedIn (work K db readings batch).1) := by
  unfold work
  rcases hi : db.insertBatch readings (batch.map PersistRequest.record) with e | ⟨results, db'⟩
  · exact h.mono (List.subset_append_left _ _) rfl
  · obtain ⟨db₁, hrows, -, hhighest, -⟩ := insertBatch_eq hi
    rw [List.take_of_length_le (by simpa [MAX_BATCH] using hlen)] at hrows
    have hgenuine : ∀ r ∈ batch.map PersistRequest.record, Genuine K r := by
      intro r hr
      obtain ⟨q, hq, rfl⟩ := List.mem_map.mp hr
      exact hbatch q hq
    dsimp only
    rw [storedIn_reports]
    exact (attained_insertRows h hgenuine hrows).mono (List.Subset.refl _) hhighest

lemma sequences_nextLocal {peer : PeerId} {n : UInt64}
    (hnext : nextLocalSequence db peer = .ok (n, db')) :
    db'.originSequences = db.originSequences := by
  unfold nextLocalSequence at hnext
  dsimp only at hnext
  split_ifs at hnext
  obtain ⟨-, rfl⟩ := Prod.mk.inj (Except.ok.inj hnext)
  rfl

/-- A turn leaves the highest sequences alone, or a transaction of a writer goes through. -/
lemma step_writes (h : Sound s) (turn : Turn S) :
    ((s.step turn).pipeline.db.originSequences = s.pipeline.db.originSequences ∧
      (s.step turn).stored = s.stored) ∨
    ∃ readings batch, batch.length ≤ MAX_BATCH ∧ (∀ q ∈ batch, Genuine K q.record) ∧
      (s.step turn).pipeline.db = (work K s.pipeline.db readings batch).2 ∧
      (s.step turn).stored = s.stored ++ storedIn (work K s.pipeline.db readings batch).1 := by
  have ht := takes_step s turn
  generalize s.step turn = t at ht ⊢
  cases ht with
  | @insert c readings =>
    exact .inr ⟨readings, s.pipeline.batch, s.pipeline.bounded,
      fun q hq => h.waiting q (List.mem_append_left _ hq), rfl, rfl⟩
  | sign hdb =>
    rcases hdb with rfl | ⟨n, hnext⟩
    · exact .inl ⟨rfl, rfl⟩
    · exact .inl ⟨sequences_nextLocal hnext, rfl⟩
  | signLate hnext => exact .inl ⟨sequences_nextLocal hnext, rfl⟩
  | remove hremove => exact .inl ⟨(Removal.removeBlake3_eq hremove).2.1, rfl⟩
  | expire => exact .inl ⟨Removal.cleanupExpired_eq.2.1, rfl⟩
  | @restart cleared => exact .inl ⟨by cases cleared <;> rfl, rfl⟩
  | @writeLeft i n readings requests hleft =>
    exact .inr ⟨readings, requests.take (min n MAX_BATCH),
      (List.length_take_le _ _).trans (min_le_right _ _),
      fun q hq => h.left requests (List.mem_of_getElem? hleft) q (List.mem_of_mem_take hq),
      rfl, rfl⟩
  | _ => exact .inl ⟨rfl, rfl⟩

lemma attained_step (h : Sound s) (ha : Attained K s.pipeline.db s.stored) (turn : Turn S) :
    Attained K (s.step turn).pipeline.db (s.step turn).stored := by
  rcases step_writes h turn with ⟨hsame, hstored⟩ | ⟨readings, batch, hlen, hbatch, hdb, hstored⟩
  · exact ha.mono (hstored ▸ List.Subset.refl _) hsame
  · rw [hdb, hstored]
    exact attained_work ha hlen hbatch

lemma attained_run (hS : S.Lawful) (h : Sound s) (ha : Attained K s.pipeline.db s.stored)
    (turns : List (Turn S)) :
    Attained K (run Node.step s turns).pipeline.db (run Node.step s turns).stored := by
  induction turns generalizing s with
  | nil => exact ha
  | cons turn turns ih => exact ih (keeps_step hS h turn).sound (attained_step h ha turn)

lemma u64TryFrom_eq_some {x : Int64} {y : UInt64} :
    u64TryFrom x = some y ↔ x.toInt = y.toNat := by
  have hx := x.toInt_lt
  have hy := y.toNat_lt
  unfold u64TryFrom
  rw [Option.ite_none_right_eq_some, Option.some.injEq, ← UInt64.toNat_inj, UInt64.toNat_ofNat']
  omega

lemma peerIdFromBytes_eq_some {b : Bytes} {peer : PeerId} :
    K.peerIdFromBytes b = some peer ↔ K.isPeerId peer.toBytes = true ∧ b = peer.toBytes := by
  unfold Primitives.peerIdFromBytes
  rw [Option.ite_none_right_eq_some, Option.some.injEq]
  constructor
  · rintro ⟨hvalid, rfl⟩
    exact ⟨hvalid, rfl⟩
  · rintro ⟨hvalid, rfl⟩
    exact ⟨hvalid, rfl⟩

lemma originHighestSequence_eq_some {row : Bytes × Int64} {peer : PeerId} {h : UInt64} :
    originHighestSequence K row = some (peer, h) ↔
      (K.isPeerId peer.toBytes = true ∧ row.1 = peer.toBytes) ∧ row.2.toInt = h.toNat := by
  rw [← peerIdFromBytes_eq_some, ← u64TryFrom_eq_some]
  unfold originHighestSequence
  rcases K.peerIdFromBytes row.1 with _ | p
  · simp
  · rcases u64TryFrom row.2 with _ | sequence <;> simp

lemma mem_originHighestSequences {rows : List (Bytes × Int64)} {peer : PeerId} {h : UInt64} :
    (peer, h) ∈ originHighestSequences K rows ↔ K.isPeerId peer.toBytes = true ∧
      ∃ highest, (peer.toBytes, highest) ∈ rows ∧ highest.toInt = h.toNat := by
  unfold originHighestSequences
  rw [List.mem_filterMap]
  constructor
  · rintro ⟨⟨b, highest⟩, hmem, hread⟩
    obtain ⟨⟨hvalid, rfl⟩, hsequence⟩ := originHighestSequence_eq_some.mp hread
    exact ⟨hvalid, highest, hmem, hsequence⟩
  · rintro ⟨hvalid, highest, hmem, hsequence⟩
    exact ⟨_, hmem, originHighestSequence_eq_some.mpr ⟨⟨hvalid, rfl⟩, hsequence⟩⟩

lemma mem_recentReplaySeeds {rows : List Row} {seed : RecordId × PeerId × UInt64}
    (h : seed ∈ recentReplaySeeds K rows) : ∃ row ∈ rows,
      K.isPeerId seed.2.1.toBytes = true ∧ row.originPeerId = seed.2.1.toBytes ∧
        row.sequence.toInt = seed.2.2.toNat := by
  obtain ⟨row, hrow, hread⟩ := List.mem_filterMap.mp h
  split at hread
  next hpeer hsequence =>
    obtain rfl := Option.some.inj hread
    obtain ⟨hvalid, hsame⟩ := peerIdFromBytes_eq_some.mp hpeer
    exact ⟨row, hrow, hvalid, hsame, u64TryFrom_eq_some.mp hsequence⟩
  next => cases hread

lemma recent_subset (h : g.Of db second third) {row : Row} (hrow : row ∈ g.recent.getD []) :
    row ∈ third.records.rows := by
  rcases hrecent : g.recent with _ | rows
  · rw [hrecent] at hrow
    cases hrow
  obtain ⟨order, hperm, -, htake⟩ := h.recent rows hrecent
  rw [hrecent, Option.getD_some, htake] at hrow
  exact (List.mem_filter.mp (hperm.mem_iff.mp (List.mem_of_mem_take hrow))).1

lemma originHighestSequences_nodup {rows : List (Bytes × Int64)} (h : (rows.map Prod.fst).Nodup) :
    ((originHighestSequences K rows).map Prod.fst).Nodup := by
  unfold originHighestSequences
  rw [List.Nodup, List.pairwise_map] at h ⊢
  refine List.Pairwise.filterMap _ ?_ h
  rintro ⟨b, x⟩ ⟨b', x'⟩ hne ⟨peer, y⟩ hread ⟨peer', y'⟩ hread' rfl
  obtain ⟨⟨-, hbytes⟩, -⟩ := originHighestSequence_eq_some.mp hread
  obtain ⟨⟨-, hbytes'⟩, -⟩ := originHighestSequence_eq_some.mp hread'
  exact hne (hbytes.trans hbytes'.symm)

lemma lookup_loaded {rows : List (PeerId × UInt64)} (hrows : (rows.map Prod.fst).Nodup)
    {peer : PeerId} {h : UInt64} (seed : ReplayState) (ids : List RecordId) :
    (seed.loadPersistentState rows ids).persistentHighest.lookup peer = some h ↔
      (peer, h) ∈ rows := by
  have hload : (seed.loadPersistentState rows ids).persistentHighest.lookup peer =
      (rows.filterMap (loadedSequence peer)).head? := by
    refine (lookup_load rows ∅ hrows peer).trans ?_
    rw [AList.lookup_empty, Option.or_none]
  have hmem : ∀ x, x ∈ rows.filterMap (loadedSequence peer) ↔ (peer, x) ∈ rows := by
    intro x
    simp only [List.mem_filterMap, loadedSequence, Option.ite_none_right_eq_some,
      Option.some.injEq, Prod.exists]
    constructor
    · rintro ⟨_, _, hmem, rfl, rfl⟩
      exact hmem
    · intro hmem
      exact ⟨peer, x, hmem, rfl, rfl⟩
  rw [hload, ← hmem]
  constructor
  · exact List.mem_of_head?
  · intro hx
    rcases hl : rows.filterMap (loadedSequence peer) with _ | ⟨y, ys⟩
    · simp [hl] at hx
    · have hy : (peer, y) ∈ rows := (hmem y).mp (hl ▸ List.mem_cons_self)
      have hsame := List.inj_on_of_nodup_map hrows hy ((hmem h).mp hx) rfl
      rw [(Prod.mk.inj hsame).2]
      rfl

/-- Seeds that are not above what is known of their origins raise nothing. -/
lemma highest_seeded {seeds : List (RecordId × PeerId × UInt64)} {r : ReplayState} {now : ℕ}
    (h : ∀ seed ∈ seeds, ∃ H, r.persistentHighest.lookup seed.2.1 = some H ∧ seed.2.2 ≤ H)
    (peer : PeerId) :
    (seeds.foldl (fun s seed => s.accept seed.1 seed.2.1 seed.2.2 now)
      r).persistentHighest.lookup peer = r.persistentHighest.lookup peer := by
  induction seeds generalizing r with
  | nil => rfl
  | cons seed seeds ih =>
    obtain ⟨H, hlookup, hle⟩ := h seed List.mem_cons_self
    have hsame : ∀ other, (r.accept seed.1 seed.2.1 seed.2.2 now).persistentHighest.lookup other =
        r.persistentHighest.lookup other := by
      intro other
      have hmax : max H seed.2.2 = H := by
        rw [← UInt64.toNat_inj, max_toNat]
        exact max_eq_left (UInt64.le_iff_toNat_le.mp hle)
      unfold ReplayState.accept
      dsimp only
      rw [hlookup]
      by_cases hother : other = seed.2.1
      · rw [hother, AList.lookup_insert, hlookup]
        exact congrArg some hmax
      · exact AList.lookup_insert_ne hother
    rw [List.foldl_cons, ih fun other hmem => ?_, hsame]
    rw [hsame]
    exact h other (List.mem_cons_of_mem _ hmem)

/-- Within the limit of an answered query, the map has every origin of the table whose bytes are a
peer id. -/
lemma lookup_replay (hof : g.Of db second third) (hanswered : g.origins.isSome)
    (hsub : third.records.rows ⊆ db.records.rows) (hstore : Integrity K db stored)
    (hfew : db.originSequences.entries.length ≤ MAX_ACTIVE_RECORDS) (now : ℕ) {peer : PeerId}
    {h : UInt64} :
    (g.replay K now).persistentHighest.lookup peer = some h ↔ K.isPeerId peer.toBytes = true ∧
      ∃ highest, db.originSequences.lookup peer.toBytes = some highest ∧
        highest.toInt = h.toNat := by
  obtain ⟨rows, hrows⟩ := Option.isSome_iff_exists.mp hanswered
  obtain ⟨order, hperm, htake⟩ := hof.origins rows hrows
  have hall : g.origins.getD [] = order := by
    rw [hrows, Option.getD_some, htake]
    exact List.take_of_length_le (by rwa [hperm.length_eq, List.length_map])
  have hkeys : (order.map Prod.fst).Nodup := by
    rw [(hperm.map Prod.fst).nodup_iff, List.map_map]
    exact db.originSequences.nodupKeys
  have hrow : ∀ b highest, (b, highest) ∈ order ↔
      db.originSequences.lookup b = some highest := by
    intro b highest
    rw [hperm.mem_iff, List.mem_map]
    constructor
    · rintro ⟨⟨_, _⟩, hmem, hsame⟩
      obtain ⟨rfl, rfl⟩ := Prod.mk.inj hsame
      exact AList.mem_lookup_iff.mpr hmem
    · intro hlookup
      exact ⟨_, AList.mem_lookup_iff.mp hlookup, rfl⟩
  have hloaded : ∀ peer h, (ReplayState.default.loadPersistentState
      (originHighestSequences K (g.origins.getD []))
      (activeRecordIds (g.active.getD []))).persistentHighest.lookup peer = some h ↔ K.isPeerId peer.toBytes = true ∧
      ∃ highest, db.originSequences.lookup peer.toBytes = some highest ∧
        highest.toInt = h.toNat := by
    intro peer h
    rw [hall, lookup_loaded (originHighestSequences_nodup hkeys), mem_originHighestSequences]
    simp only [hrow]
  unfold Reading.replay
  rw [highest_seeded, hloaded]
  rintro ⟨id, origin, sequence⟩ hseed
  obtain ⟨row, hrecent, hvalid, hsame, hsequence⟩ := mem_recentReplaySeeds hseed
  obtain ⟨r, hr, -, hto⟩ := hstore.rows row (hsub (recent_subset hof hrecent))
  obtain ⟨-, horigin, hnumber, -⟩ := toRow_fields hto
  obtain ⟨highest, hlookup, hle⟩ := hstore.highest r hr
  have hfits : highest.toInt = (UInt64.ofNat highest.toInt.toNat).toNat := by
    have hlt := highest.toInt_lt
    rw [UInt64.toNat_ofNat']
    omega
  refine ⟨UInt64.ofNat highest.toInt.toNat, (hloaded _ _).mpr ⟨hvalid, highest, ?_, hfits⟩, ?_⟩
  · rw [← hsame, horigin]
    exact hlookup
  · rw [UInt64.le_iff_toNat_le]
    dsimp only at hsequence ⊢
    omega

/-- A node whose records have been removed. -/
def sampleTurns : List (Turn sampleSigner) := sampleLife ++ [.removeBlake3 (some Queries.zeroId)]

def emptied : Node samplePrimitives sampleSigner :=
  run Node.step (.start false (1 : UInt8) sampleBoot) sampleTurns

lemma emptied_inserted : (emptied.pipeline.db.records.rows.filter (Row.active 0) =
      emptied.pipeline.db.records.rows ∧
    emptied.pipeline.db.records.rows.Pairwise fun r r' => r'.createdAt ≤ r.createdAt) ∧
    emptied.pipeline.db.originSequences.entries.length ≤ MAX_ACTIVE_RECORDS ∧
    emptied.pipeline.db.records.rows.length ≤ RECENT_RECORD_CAPACITY := by
  decide +kernel

end Protonet.RestoredFloor
