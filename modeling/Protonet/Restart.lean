import Protonet.ReplayCalls

/-!
# What a starting engine knows

An engine fills its replay state from the store: the highest sequence of each origin, the ids of
all active records and the newest ones as if they had just been accepted. SQLite is free in the
order of rows, each query has a limit, and one that fails counts as one without rows. The store may
change from one query to the next.
-/
namespace Protonet.Restart
open Lru MachineInt StepRun Postcard Record RecordIdentity Replay ReplayFloor ReplayGuard Database
  Worker Swarm RecordCreation StoreRows GossipVerdicts StoreIntegrity Provenance ReplayCalls

/-- The rows that the three queries return, if they do not fail. -/
structure Reading where
  origins : Option (List (Bytes × Int64))
  active : Option (List Row)
  recent : Option (List Row)
  /-- The clock is read for each query that asks for active rows. -/
  now : Int64
  recentNow : Int64

/-- The queries that are answered are so from these stores. -/
structure Reading.Of (first second third : SignatureDatabase) (g : Reading) : Prop where
  origins : ∀ rows ∈ g.origins, ∃ order : List (Bytes × Int64),
    order.Perm (first.originSequences.entries.map fun e => (e.1, e.2)) ∧
      rows = order.take MAX_ACTIVE_RECORDS
  active : ∀ rows ∈ g.active, ∃ order : List Row,
    order.Perm (second.records.rows.filter (Row.active g.now)) ∧
      rows = order.take MAX_ACTIVE_RECORDS
  recent : ∀ rows ∈ g.recent, ∃ order : List Row,
    order.Perm (third.records.rows.filter (Row.active g.recentNow)) ∧
      order.Pairwise (fun r r' => r'.createdAt ≤ r.createdAt) ∧
        rows = order.take RECENT_RECORD_CAPACITY

/-- A row that does not read as a peer id and an unsigned number is passed over. -/
def originHighestSequence (K : Primitives) (row : Bytes × Int64) : Option (PeerId × UInt64) :=
  match K.peerIdFromBytes row.1, u64TryFrom row.2 with
  | some peer, some sequence => some (peer, sequence)
  | _, _ => none

def originHighestSequences (K : Primitives) (rows : List (Bytes × Int64)) :
    List (PeerId × UInt64) :=
  rows.filterMap (originHighestSequence K)

def activeRecordIds (rows : List Row) : List RecordId := rows.map Row.recordId

def recentReplaySeeds (K : Primitives) (rows : List Row) : List (RecordId × PeerId × UInt64) :=
  rows.filterMap fun row =>
    match K.peerIdFromBytes row.originPeerId, u64TryFrom row.sequence with
    | some origin, some sequence => some (row.recordId, origin, sequence)
    | _, _ => none

/-- The replay state of a new actor. -/
def Reading.replay (K : Primitives) (g : Reading) (now : ℕ) : ReplayState :=
  (recentReplaySeeds K (g.recent.getD [])).foldl
    (fun s seed => s.accept seed.1 seed.2.1 seed.2.2 now)
    (ReplayState.default.loadPersistentState (originHighestSequences K (g.origins.getD []))
      (activeRecordIds (g.active.getD [])))

variable {K : Primitives} {S : Signer K}

/-- What a turn that starts an engine starts it with. -/
def bootOf : Turn S → Option Boot
  | .resetIdentity _ boot => some boot
  | .restart _ _ _ boot => some boot
  | _ => none

def taken (s : Node K S) : Turn S → List PersistRequest
  | .move c (.swarm e _) _ =>
    (s.pipeline.actor.step K (c, e)).queue.drop s.pipeline.actor.queue.length
  | _ => []

/-- The ids that the actor learns from a report of the writer, of a record stored or held. -/
def told (s : Node K S) : Turn S → List RecordId
  | .move _ (.report _) _ => (s.pipeline.reports.head?.bind (learned K)).toList.map Prod.fst
  | _ => []

variable {s : Node K S} {a : Actor} {c : Clock}
  {db first second third : SignatureDatabase} {g : Reading}
  {id : RecordId} {turn : Turn S}

def Knows (s : Node K S) (id : RecordId) : Prop :=
  s.pipeline.actor.replay.activeRecords.contains id = true

lemma contains_foldl {seeds : List (RecordId × PeerId × UInt64)} {r : ReplayState} {now : ℕ}
    (h : r.activeRecords.contains id = true) :
    (seeds.foldl (fun s seed => s.accept seed.1 seed.2.1 seed.2.2 now) r).activeRecords.contains id =
      true := by
  induction seeds generalizing r with
  | nil => exact h
  | cons seed seeds ih => exact ih (ActiveRecordFilter.contains_insert (.inr h))

/-- Within the limit of active records, no active row is left out of an answer. -/
lemma contains_replay (hof : g.Of first second third) (hanswered : g.active.isSome)
    (hfew : second.activeCount g.now ≤ MAX_ACTIVE_RECORDS) {row : Row}
    (hrow : row ∈ second.records.rows) (hactive : row.active g.now = true) (now : ℕ) :
    (g.replay K now).activeRecords.contains row.recordId = true := by
  obtain ⟨rows, hrows⟩ := Option.isSome_iff_exists.mp hanswered
  obtain ⟨order, hperm, htake⟩ := hof.active rows hrows
  have hall : g.active.getD [] = order := by
    rw [hrows, Option.getD_some, htake]
    exact List.take_of_length_le (hperm.length_eq.trans_le hfew)
  refine contains_foldl (ActiveRecordFilter.contains_load (.inl (List.mem_map.mpr ⟨row, ?_, rfl⟩)))
  rw [hall]
  exact hperm.mem_iff.mpr (List.mem_filter.mpr ⟨hrow, hactive⟩)

lemma contains_apply {r : ReplayState} {ops : List ReplayOp}
    (h : r.activeRecords.contains id = true) :
    (run apply r ops).activeRecords.contains id = true := by
  induction ops generalizing r with
  | nil => exact h
  | cons op ops ih => exact ih (@contains_step _ (.op op) _ (.inl h))

lemma knows_external {e : Event} (hexternal : isExternal e = true)
    (h : a.replay.activeRecords.contains id = true) :
    (a.step K (c, e)).replay.activeRecords.contains id = true := by
  obtain ⟨ops, hreplay, -⟩ := (@follows_step K a c e hexternal).calls
  rw [hreplay]
  exact contains_apply h

lemma knows_step (hsame : bootOf turn = none) (h : Knows s id ∨ id ∈ told s turn) :
    Knows (s.step turn) id := by
  have ht := takes_step s turn
  generalize s.step turn = t at ht ⊢
  unfold Knows at h ⊢
  cases ht with
  | @event c e hexternal => exact knows_external hexternal (h.resolve_right List.not_mem_nil)
  | deliver => exact knows_external rfl (h.resolve_right List.not_mem_nil)
  | @report c publication hdirect report rest hreports =>
    unfold told at h
    dsimp only at h
    rw [hreports] at h
    obtain ⟨⟨ops, hreplay, -⟩, hlearnt⟩ :=
      @replay_handlePersisted K s.pipeline.actor.cleared c report publication
    rcases h with h | h
    · change (Actor.handlePersisted K s.pipeline.actor.cleared report publication
        c).replay.activeRecords.contains id = true
      rw [hreplay]
      exact contains_apply h
    · obtain ⟨learnt, hmem, rfl⟩ := List.mem_map.mp h
      exact hlearnt learnt (Option.mem_toList.mp hmem)
  | noReport hreports =>
    unfold told at h
    dsimp only at h
    rw [hreports] at h
    exact h.resolve_right List.not_mem_nil
  | reset => cases hsame
  | restart => cases hsame
  | _ => exact h.resolve_right List.not_mem_nil

lemma knows_run {turns : List (Turn S)} (hsame : ∀ turn ∈ turns, bootOf turn = none)
    (h : Knows s id ∨ id ∈ collected Node.step told s turns) :
    Knows (run Node.step s turns) id := by
  induction turns generalizing s with
  | nil => exact h.resolve_right List.not_mem_nil
  | cons turn turns ih =>
    refine ih (fun turn hturn => hsame turn (List.mem_cons_of_mem _ hturn)) ?_
    rw [collected, List.mem_append, ← or_assoc] at h
    exact h.imp_left (knows_step (hsame turn List.mem_cons_self))

/-- No request for a record from the network is for one that the actor knows. -/
lemma taken_unknown {q : PersistRequest} (hq : q ∈ taken s turn) (hsource : q.source ≠ none) :
    ¬ Knows s q.record.recordId := by
  cases turn with
  | move c m hdirect =>
    cases m with
    | swarm e hexternal =>
      obtain ⟨new, hqueue, hnew⟩ := (@follows_step K s.pipeline.actor c e hexternal).queue
      unfold taken at hq
      dsimp only at hq
      rw [hqueue, List.drop_left] at hq
      unfold Knows
      rw [hnew q hq hsource]
      exact Bool.false_ne_true
    | _ => cases hq
  | _ => cases hq

lemma actor_boot {b : Turn S} {boot : Boot} (hboot : bootOf b = some boot) :
    (s.step b).pipeline.actor.replay = boot.replay := by
  cases b with
  | resetIdentity keypair boot' =>
    obtain rfl := Option.some.inj hboot
    rfl
  | restart cleared killed keypair boot' =>
    obtain rfl := Option.some.inj hboot
    rfl
  | _ => cases hboot

/-- An engine whose query for active ids is answered, and which then sees any events and any work of
its writer, takes no record from the network whose id an active row had at that query, nor one that
its writer has since reported stored or held. -/
theorem known_never_taken {b : Turn S} {boot : Boot} (hboot : bootOf b = some boot)
    (hreading : g.Of first second third) (hreplay : boot.replay = g.replay K boot.now)
    (hanswered : g.active.isSome) (hfew : second.activeCount g.now ≤ MAX_ACTIVE_RECORDS)
    {turns : List (Turn S)}
    (hsame : ∀ turn ∈ turns, bootOf turn = none) :
    ∀ xs turn ys, turns = xs ++ turn :: ys →
      ∀ q ∈ taken (run Node.step (s.step b) xs) turn, q.source ≠ none →
        (∀ row ∈ second.records.rows, row.active g.now = true →
          row.recordId ≠ q.record.recordId) ∧
        q.record.recordId ∉ collected Node.step told (s.step b) xs := by
  rintro xs turn ys rfl q hq hsource
  have hunknown := taken_unknown hq hsource
  have hxs : ∀ turn ∈ xs, bootOf turn = none := fun turn h => hsame turn (List.mem_append_left _ h)
  refine ⟨fun row hrow hactive hid => hunknown ?_, fun htold => ?_⟩
  · rw [← hid]
    refine knows_run hxs (.inl ?_)
    unfold Knows
    rw [actor_boot hboot, hreplay]
    exact contains_replay hreading hanswered hfew hrow hactive boot.now
  · exact hunknown (knows_run hxs (.inr htold))

/-- SQLite may return all rows as they were inserted. -/
def asInserted (db : SignatureDatabase) (now : Int64) : Reading where
  origins := some (db.originSequences.entries.map fun e => (e.1, e.2))
  active := some db.records.rows
  recent := some db.records.rows
  now := now
  recentNow := now

lemma asInserted_of {now : Int64}
    (hall : db.records.rows.filter (Row.active now) = db.records.rows)
    (hnewest : db.records.rows.Pairwise fun r r' => r'.createdAt ≤ r.createdAt)
    (horigins : (db.originSequences.entries.map fun e => (e.1, e.2)).length ≤ MAX_ACTIVE_RECORDS)
    (hrows : db.records.rows.length ≤ RECENT_RECORD_CAPACITY) :
    (asInserted db now).Of db db db where
  origins rows hmem := by
    obtain rfl := Option.some.inj hmem
    exact ⟨_, .refl _, (List.take_of_length_le horigins).symm⟩
  active rows hmem := by
    obtain rfl := Option.some.inj hmem
    exact ⟨db.records.rows, by rw [asInserted, hall],
      (List.take_of_length_le (hrows.trans (by decide))).symm⟩
  recent rows hmem := by
    obtain rfl := Option.some.inj hmem
    exact ⟨db.records.rows, by rw [asInserted, hall], hnewest,
      (List.take_of_length_le hrows).symm⟩

lemma sample_inserted : (lived.pipeline.db.records.rows.filter (Row.active 0) =
      lived.pipeline.db.records.rows ∧
    lived.pipeline.db.records.rows.Pairwise fun r r' => r'.createdAt ≤ r.createdAt) ∧
    (lived.pipeline.db.originSequences.entries.map fun e => (e.1, e.2)).length ≤
      MAX_ACTIVE_RECORDS ∧ lived.pipeline.db.records.rows.length ≤ RECENT_RECORD_CAPACITY := by
  decide +kernel

def sampleBooted (g : Reading) : Boot where
  replay := g.replay samplePrimitives 0
  storageSafetyMode := false
  storageSafetyReason := none
  now := 0

lemma sampleBooted_replay (g : Reading) :
    (sampleBooted g).replay = g.replay samplePrimitives (sampleBooted g).now := rfl

def sampleRestart (g : Reading) : Turn sampleSigner := .restart false true (2 : UInt8) (sampleBooted g)

/-- A node with two records that has been killed and started again. -/
def restarted : Node samplePrimitives sampleSigner :=
  lived.step (sampleRestart (asInserted lived.pipeline.db 0))

def sampleGossip (sequence : UInt64) : Turn sampleSigner :=
  .move (.still 0 0) (.swarm (.gossip Blocking.samplePeer
    (sampleRecord 7 sequence 1 0 1000).recordId (sampleRecord 7 sequence 1 0 1000).encode) rfl) rfl

/-- A peer connects and gossips a record the store has. -/
def sampleKnown : List (Turn sampleSigner) :=
  [.move (.still 0 0) (.swarm (.connectionEstablished Blocking.samplePeer
      (.listener [.ip4 ⟨1, 2, 3, 4⟩, .tcp 4001]) 3 1) rfl) rfl, sampleGossip 1]

/-- The known record is not taken again; the next one is. -/
theorem known_never_taken_sample : collected Node.step taken restarted sampleKnown = [] ∧
    (taken (run Node.step restarted sampleKnown) (sampleGossip 2)).map PersistRequest.record =
      [sampleRecord 7 2 1 0 1000] ∧
    ∀ row ∈ lived.pipeline.db.records.rows, row.active 0 = true →
      row.recordId ≠ (sampleRecord 7 2 1 0 1000).recordId := by
  have hfew : lived.pipeline.db.activeCount 0 ≤ MAX_ACTIVE_RECORDS := by decide +kernel
  have hsame : ∀ turn ∈ sampleKnown ++ [sampleGossip 2], bootOf turn = none := by decide +kernel
  have hnever := known_never_taken (s := lived) (b := sampleRestart (asInserted lived.pipeline.db 0)) rfl
    (asInserted_of sample_inserted.1.1 sample_inserted.1.2 sample_inserted.2.1 sample_inserted.2.2)
    (sampleBooted_replay _) rfl hfew hsame sampleKnown (sampleGossip 2) [] rfl
  have htaken : (taken (run Node.step restarted sampleKnown) (sampleGossip 2)).map
      (fun q => (q.record, q.source.isSome)) = [(sampleRecord 7 2 1 0 1000, true)] := by
    decide +kernel
  have hmem : (sampleRecord 7 2 1 0 1000, true) ∈ (taken (run Node.step restarted sampleKnown)
      (sampleGossip 2)).map fun q => (q.record, q.source.isSome) := by
    rw [htaken]
    exact List.mem_singleton_self _
  obtain ⟨q, hq, heq⟩ := List.mem_map.mp hmem
  obtain ⟨hrecord, hsource⟩ := Prod.mk.inj heq
  unfold restarted at hq
  refine ⟨by decide +kernel, by decide +kernel, fun row hrow hactive => ?_⟩
  rw [← hrecord]
  exact (hnever q hq (Option.isSome_iff_ne_none.mp hsource)).1 row hrow hactive

end Protonet.Restart
