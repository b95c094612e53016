import Protonet.Lru
import Protonet.Record

/-!
# Replay protection

The decision on a record looks at recently seen ids, at a bit filter over all accepted ids and at
a window of sequence numbers for each origin. Instants and durations are nanoseconds.
-/
namespace Protonet.Replay
open Lru MachineInt Postcard Record

def RECENT_RECORD_CAPACITY : ℕ := 250000
def RECENT_RECORD_TTL : ℕ := 24 * 60 * 60 * 1000000000
def MAX_TRACKED_ORIGINS : ℕ := 10000
def SEQUENCE_WINDOW : UInt64 := 1024

inductive ReplayDecision
  | new
  | duplicate
  | tooOld
  deriving DecidableEq

structure OriginWindow where
  highest : UInt64
  accepted : Finset UInt64

/-- A vector of words, given by its length and the positions of the bits that are set. -/
structure ActiveRecordFilter where
  words : ℕ
  words_pos : 0 < words
  ones : Finset ℕ

def ActiveRecordFilter.new (bytes : ℕ) : ActiveRecordFilter :=
  ⟨max bytes 8 / 8, by omega, ∅⟩

def leValue (bytes : Bytes) : ℕ := bytes.foldr (fun b value => b.toNat + 256 * value) 0

def ActiveRecordFilter.indices (f : ActiveRecordFilter) (id : RecordId) : List ℕ :=
  [0, 8, 16, 24].map fun offset => leValue ((id.1.drop offset).take 8) % (f.words * 64)

def ActiveRecordFilter.insert (f : ActiveRecordFilter) (id : RecordId) : ActiveRecordFilter :=
  { f with ones := f.ones ∪ (f.indices id).toFinset }

def ActiveRecordFilter.contains (f : ActiveRecordFilter) (id : RecordId) : Bool :=
  (f.indices id).all fun index => index ∈ f.ones

structure ReplayState where
  recentlySeen : LruCache RecordId ℕ
  origins : LruCache PeerId OriginWindow
  persistentHighest : AList (fun _ : PeerId => UInt64)
  activeRecords : ActiveRecordFilter
  ttl : ℕ
  sequenceWindow : UInt64

def ReplayState.withLimits (records ttl origins : ℕ) (sequenceWindow : UInt64) : ReplayState :=
  ⟨.new (max records 1) (by omega), .new (max origins 1) (by omega), ∅,
    .new (16 * 1024 * 1024), ttl, sequenceWindow⟩

def ReplayState.default : ReplayState :=
  .withLimits RECENT_RECORD_CAPACITY RECENT_RECORD_TTL MAX_TRACKED_ORIGINS SEQUENCE_WINDOW

/-- The part of `check` that looks at the origin. -/
def ReplayState.checkOrigin (s : ReplayState) (origin : PeerId) (sequence : UInt64) :
    ReplayDecision × ReplayState :=
  let s' := { s with origins := s.origins.promote origin }
  match s.origins.peek origin with
  | none =>
    match s.persistentHighest.lookup origin with
    | some highest =>
      if saturatingAdd sequence s.sequenceWindow ≤ highest then (.tooOld, s') else (.new, s')
    | none => (.new, s')
  | some window =>
    if sequence ∈ window.accepted then (.duplicate, s')
    else if saturatingAdd sequence s.sequenceWindow ≤ window.highest then (.tooOld, s')
    else (.new, s')

def ReplayState.checkMembership (s : ReplayState) (recordId : RecordId) (origin : PeerId)
    (sequence : UInt64) : ReplayDecision × ReplayState :=
  if s.activeRecords.contains recordId then (.duplicate, s) else s.checkOrigin origin sequence

def ReplayState.check (s : ReplayState) (recordId : RecordId) (origin : PeerId)
    (sequence : UInt64) (now : ℕ) : ReplayDecision × ReplayState :=
  let seen := s.recentlySeen.promote recordId
  match s.recentlySeen.peek recordId with
  | some seenAt =>
    if now - seenAt ≤ s.ttl then (.duplicate, { s with recentlySeen := seen })
    else { s with recentlySeen := seen.pop recordId }.checkMembership recordId origin sequence
  | none => { s with recentlySeen := seen }.checkMembership recordId origin sequence

def OriginWindow.accept (window : OriginWindow) (sequence sequenceWindow : UInt64) :
    OriginWindow :=
  let highest := max window.highest sequence
  let floor := saturatingSub highest sequenceWindow
  ⟨highest, (insert sequence window.accepted).filter fun value => floor ≤ value⟩

def ReplayState.accept (s : ReplayState) (recordId : RecordId) (origin : PeerId)
    (sequence : UInt64) (now : ℕ) : ReplayState :=
  let highest := match s.persistentHighest.lookup origin with
    | some highest => max highest sequence
    | none => sequence
  let window := (s.origins.peek origin).getD ⟨sequence, ∅⟩
  { s with
    recentlySeen := s.recentlySeen.put recordId now
    activeRecords := s.activeRecords.insert recordId
    persistentHighest := s.persistentHighest.insert origin highest
    origins := s.origins.put origin (window.accept sequence s.sequenceWindow) }

def ReplayState.markPending (s : ReplayState) (recordId : RecordId) (now : ℕ) : ReplayState :=
  { s with recentlySeen := s.recentlySeen.put recordId now }

def ReplayState.forget (s : ReplayState) (recordId : RecordId) : ReplayState :=
  { s with recentlySeen := s.recentlySeen.pop recordId }

/-- Collecting into the map keeps the last row of an origin. -/
def ReplayState.loadPersistentState (s : ReplayState) (origins : List (PeerId × UInt64))
    (activeIds : List RecordId) : ReplayState :=
  { s with
    persistentHighest := origins.foldl (fun m row => m.insert row.1 row.2) ∅
    activeRecords := activeIds.foldl ActiveRecordFilter.insert s.activeRecords }

@[simp] lemma ActiveRecordFilter.insert_words (f : ActiveRecordFilter) (id : RecordId) :
    (f.insert id).words = f.words := rfl

@[simp] lemma ActiveRecordFilter.insert_indices (f : ActiveRecordFilter) (id id' : RecordId) :
    (f.insert id).indices id' = f.indices id' := rfl

lemma ActiveRecordFilter.contains_iff {f : ActiveRecordFilter} {id : RecordId} :
    f.contains id = true ↔ ∀ index ∈ f.indices id, index ∈ f.ones := by
  simp [ActiveRecordFilter.contains]

lemma ActiveRecordFilter.mem_insert {f : ActiveRecordFilter} {id : RecordId} {index : ℕ} :
    index ∈ (f.insert id).ones ↔ index ∈ f.ones ∨ index ∈ f.indices id := by
  simp [ActiveRecordFilter.insert]

/-- The filter answers for what was put into it, and forgets nothing. -/
lemma ActiveRecordFilter.contains_insert {f : ActiveRecordFilter} {id id' : RecordId}
    (h : id' = id ∨ f.contains id' = true) : (f.insert id).contains id' = true := by
  refine contains_iff.mpr fun index hindex => mem_insert.mpr ?_
  rcases h with rfl | h
  · exact .inr hindex
  · exact .inl (contains_iff.mp h index hindex)

lemma ActiveRecordFilter.contains_load {f : ActiveRecordFilter} {ids : List RecordId}
    {id : RecordId} (h : id ∈ ids ∨ f.contains id = true) :
    (ids.foldl ActiveRecordFilter.insert f).contains id = true := by
  induction ids generalizing f with
  | nil => exact h.resolve_left List.not_mem_nil
  | cons x ids ih =>
    rw [List.mem_cons, or_assoc, or_left_comm] at h
    exact ih (h.imp_right contains_insert)

/-- `check` reorders the caches and may drop the entry of the id it was asked about. -/
lemma check_frame (s : ReplayState) (id : RecordId) (o : PeerId) (q : UInt64) (now : ℕ) :
    (s.check id o q now).2.persistentHighest = s.persistentHighest ∧
      (s.check id o q now).2.activeRecords = s.activeRecords ∧
      (s.check id o q now).2.sequenceWindow = s.sequenceWindow ∧
      (s.check id o q now).2.ttl = s.ttl ∧
      (∀ o', (s.check id o q now).2.origins.peek o' = s.origins.peek o') ∧
      ∀ id' ≠ id, (s.check id o q now).2.recentlySeen.peek id' = s.recentlySeen.peek id' := by
  have horigin : ∀ s : ReplayState, (s.checkOrigin o q).2 =
      { s with origins := s.origins.promote o } := by
    intro s
    unfold ReplayState.checkOrigin
    rcases s.origins.peek o with _ | w
    · rcases s.persistentHighest.lookup o with _ | h
      · rfl
      · dsimp only
        split <;> rfl
    · dsimp only
      split_ifs <;> rfl
  have hmember : ∀ s : ReplayState, (s.checkMembership id o q).2 = s ∨
      (s.checkMembership id o q).2 = { s with origins := s.origins.promote o } := by
    intro s
    unfold ReplayState.checkMembership
    split
    · exact .inl rfl
    · exact .inr (horigin s)
  unfold ReplayState.check
  rcases s.recentlySeen.peek id with _ | seenAt
  · rcases hmember { s with recentlySeen := s.recentlySeen.promote id } with h | h
    · simp [h]
    · simp [h]
  · dsimp only
    split_ifs
    · simp
    · rcases hmember { s with recentlySeen := (s.recentlySeen.promote id).pop id } with h | h
      · simp +contextual [h, LruCache.peek_pop]
      · simp +contextual [h, LruCache.peek_pop]

lemma check_caps (s : ReplayState) (id : RecordId) (o : PeerId) (q : UInt64) (now : ℕ) :
    (s.check id o q now).2.recentlySeen.cap = s.recentlySeen.cap ∧
      (s.check id o q now).2.origins.cap = s.origins.cap := by
  have hmember : ∀ s : ReplayState,
      (s.checkMembership id o q).2.recentlySeen = s.recentlySeen ∧
        (s.checkMembership id o q).2.origins.cap = s.origins.cap := by
    intro s
    unfold ReplayState.checkMembership ReplayState.checkOrigin
    split_ifs
    · exact ⟨rfl, rfl⟩
    · rcases s.origins.peek o with _ | w
      · rcases s.persistentHighest.lookup o with _ | highest
        · exact ⟨rfl, LruCache.promote_cap ..⟩
        · dsimp only
          split_ifs
          · exact ⟨rfl, LruCache.promote_cap ..⟩
          · exact ⟨rfl, LruCache.promote_cap ..⟩
      · dsimp only
        split_ifs
        · exact ⟨rfl, LruCache.promote_cap ..⟩
        · exact ⟨rfl, LruCache.promote_cap ..⟩
        · exact ⟨rfl, LruCache.promote_cap ..⟩
  unfold ReplayState.check
  rcases s.recentlySeen.peek id with _ | seenAt
  · obtain ⟨hseen, horigins⟩ := hmember { s with recentlySeen := s.recentlySeen.promote id }
    exact ⟨by rw [hseen]; exact LruCache.promote_cap .., horigins⟩
  · dsimp only
    split_ifs
    · exact ⟨LruCache.promote_cap .., rfl⟩
    · obtain ⟨hseen, horigins⟩ :=
        hmember { s with recentlySeen := (s.recentlySeen.promote id).pop id }
      exact ⟨by rw [hseen]; exact LruCache.promote_cap .., horigins⟩

/-- What the origin has to say about a sequence number that counts as new. -/
def ReplayState.OriginAdmits (s : ReplayState) (origin : PeerId) (sequence : UInt64) : Prop :=
  match s.origins.peek origin with
  | none => ∀ highest ∈ s.persistentHighest.lookup origin,
      highest < saturatingAdd sequence s.sequenceWindow
  | some window => sequence ∉ window.accepted ∧
      window.highest < saturatingAdd sequence s.sequenceWindow

/-- A record is new when its id was not seen within the time to live and is not in the filter,
and its origin admits the sequence number. -/
lemma check_new_iff {s : ReplayState} {id : RecordId} {o : PeerId} {q : UInt64} {now : ℕ} :
    (s.check id o q now).1 = .new ↔
      (∀ seenAt ∈ s.recentlySeen.peek id, ¬ now - seenAt ≤ s.ttl) ∧
      s.activeRecords.contains id = false ∧ s.OriginAdmits o q := by
  have horigin : ∀ s : ReplayState, (s.checkOrigin o q).1 = .new ↔ s.OriginAdmits o q := by
    intro s
    unfold ReplayState.checkOrigin ReplayState.OriginAdmits
    rcases s.origins.peek o with _ | w
    · rcases s.persistentHighest.lookup o with _ | h
      · simp
      · by_cases hle : saturatingAdd q s.sequenceWindow ≤ h
        · simp [hle, UInt64.not_lt.mpr hle]
        · simp [hle, UInt64.not_le.mp hle]
    · by_cases hmem : q ∈ w.accepted
      · simp [hmem]
      · by_cases hle : saturatingAdd q s.sequenceWindow ≤ w.highest
        · simp [hmem, hle, UInt64.not_lt.mpr hle]
        · simp [hmem, hle, UInt64.not_le.mp hle]
  have hmember : ∀ s : ReplayState, (s.checkMembership id o q).1 = .new ↔
      s.activeRecords.contains id = false ∧ s.OriginAdmits o q := by
    intro s
    unfold ReplayState.checkMembership
    split_ifs with h
    · simp [h]
    · simp [h, horigin]
  unfold ReplayState.check
  rcases s.recentlySeen.peek id with _ | seenAt
  · refine (hmember _).trans ?_
    simp [ReplayState.OriginAdmits]
  · by_cases h : now - seenAt ≤ s.ttl
    · simp only [h, if_true, reduceCtorEq, false_iff, not_and]
      exact fun hs => absurd h (hs seenAt rfl)
    · simp only [h, if_false]
      refine (hmember _).trans ?_
      have hlt : s.ttl + seenAt < now := by omega
      simp [ReplayState.OriginAdmits, hlt]

lemma peek_of_check {s : ReplayState} {id id' : RecordId} {o : PeerId} {q : UInt64} {now t : ℕ}
    (h : (s.check id o q now).2.recentlySeen.peek id' = some t) :
    s.recentlySeen.peek id' = some t := by
  have hmember : ∀ s : ReplayState,
      (s.checkMembership id o q).2.recentlySeen = s.recentlySeen := by
    intro s
    unfold ReplayState.checkMembership ReplayState.checkOrigin
    split_ifs
    · rfl
    · rcases s.origins.peek o with _ | w
      · rcases s.persistentHighest.lookup o with _ | highest
        · rfl
        · dsimp only
          split_ifs <;> rfl
      · dsimp only
        split_ifs <;> rfl
  revert h
  unfold ReplayState.check
  rcases s.recentlySeen.peek id with _ | seenAt
  · rw [hmember]
    simp
  · dsimp only
    split_ifs
    · simp
    · rw [hmember]
      dsimp only
      rw [LruCache.peek_pop]
      split_ifs
      · simp
      · simp

/-- A record is a duplicate when its id was seen within the time to live, when the filter covers
the id, or when its origin already used the sequence number. -/
lemma duplicate_cases {s : ReplayState} {id : RecordId} {o : PeerId} {q : UInt64} {now : ℕ}
    (h : (s.check id o q now).1 = .duplicate) :
    (∃ seenAt, s.recentlySeen.peek id = some seenAt ∧ now - seenAt ≤ s.ttl) ∨
      s.activeRecords.contains id = true ∨
      ∃ window, s.origins.peek o = some window ∧ q ∈ window.accepted := by
  have horigin : ∀ s : ReplayState, (s.checkOrigin o q).1 = .duplicate →
      ∃ window, s.origins.peek o = some window ∧ q ∈ window.accepted := by
    intro s
    unfold ReplayState.checkOrigin
    rcases s.origins.peek o with _ | w
    · rcases s.persistentHighest.lookup o with _ | highest
      · simp
      · dsimp only
        split_ifs <;> simp
    · dsimp only
      split_ifs with hmem
      · exact fun _ => ⟨w, rfl, hmem⟩
      · simp
      · simp
  have hmember : ∀ s : ReplayState, (s.checkMembership id o q).1 = .duplicate →
      s.activeRecords.contains id = true ∨
        ∃ window, s.origins.peek o = some window ∧ q ∈ window.accepted := by
    intro s
    unfold ReplayState.checkMembership
    split_ifs with hc
    · exact fun _ => .inl hc
    · exact fun hd => .inr (horigin s hd)
  revert h
  unfold ReplayState.check
  rcases s.recentlySeen.peek id with _ | seenAt
  · exact fun hd => .inr (hmember { s with recentlySeen := s.recentlySeen.promote id } hd)
  · dsimp only
    split_ifs with hle
    · exact fun _ => .inl ⟨seenAt, rfl, hle⟩
    · exact fun hd =>
        .inr (hmember { s with recentlySeen := (s.recentlySeen.promote id).pop id } hd)

end Protonet.Replay
