import Protonet.Blocking
import Protonet.DatabaseBatch

namespace Protonet.Persistence
open MachineInt StepRun Record Database DatabaseBatch Worker Swarm RecordIdentity Blocking

structure Engine where
  actor : Actor
  db : SignatureDatabase
  reports : List PersistEvent

inductive Turn
  | swarm (c : Clock) (e : Event)
  /-- The writer takes up to `n` requests and inserts them as one batch. -/
  | work (n : ℕ) (readings : StorageReadings)
  /-- The actor handles the oldest report. -/
  | report (c : Clock) (publication : Option String)

def Engine.batch (s : Engine) (n : ℕ) : List PersistRequest := s.actor.queue.take n

def Engine.work (K : Primitives) (s : Engine) (n : ℕ) (readings : StorageReadings) : Engine :=
  let (reports, db) := Worker.work K s.db readings (s.batch n)
  { actor := { s.actor with queue := s.actor.queue.drop n }
    db
    reports := s.reports ++ reports }

def Engine.report (K : Primitives) (s : Engine) (c : Clock) (publication : Option String) :
    Engine :=
  match s.reports with
  | [] => s
  | event :: reports =>
    { s with actor := s.actor.step K (c, .persisted event publication), reports }

def Engine.step (K : Primitives) (s : Engine) : Turn → Engine
  | .swarm c e => { s with actor := s.actor.step K (c, e) }
  | .work n readings => s.work K n readings
  | .report c publication => s.report K c publication

/-- The events of the actor's loop that come from outside this engine. -/
def External : Event → Prop
  | .persisted .. => False
  | .workerTook _ => False
  | _ => True

instance : DecidablePred External := fun e => by
  apply Event.casesOn (motive := fun e => Decidable (External e)) e <;>
    intros <;> dsimp only [External] <;> infer_instance

/-- Batches are of the writer's size and within the capacity limits. -/
def WithinLimits (s : Engine) : Turn → Prop
  | .swarm _ e => External e
  | .work n readings => n ≤ MAX_BATCH ∧
      s.db.ensureCapacity readings ((s.batch n).map PersistRequest.record) = .ok ()
  | .report .. => True

instance (s : Engine) (turn : Turn) : Decidable (WithinLimits s turn) := by
  unfold WithinLimits
  split <;> infer_instance

/-- No report of a failure waits for the actor. -/
def Clean (s : Engine) : Prop := ∀ event ∈ s.reports, event.isFailed = false

structure Unharmed (K : Primitives) (s : Engine) (turn : Turn) : Prop where
  clean : Clean (s.step K turn)
  mode : ∀ c publication, turn = .report c publication →
    (s.step K turn).actor.storageSafetyMode = s.actor.storageSafetyMode

/-- The records the writer takes fit the signed columns. -/
def TakesStorable (s : Engine) : Turn → Prop
  | .work n _ => ∀ q ∈ s.batch n, Storable q.record
  | _ => True

variable {K : Primitives} {s : Engine} {turn : Turn}

lemma batch_length (n : ℕ) : (s.batch n).length ≤ n := List.length_take_le _ _

lemma mode_handlePersisted {a : Actor} {event : PersistEvent} (publication : Option String)
    (c : Clock) (h : event.isFailed = false) :
    (a.step K (c, .persisted event publication)).storageSafetyMode = a.storageSafetyMode := by
  obtain ⟨replay, reason, hcore⟩ := @core_handlePersisted K a.cleared c event publication
  have hmode := congrArg Core.storageSafetyMode hcore
  rw [h] at hmode
  exact hmode

lemma unharmed_iff (h : Clean s) (hlim : WithinLimits s turn) :
    Unharmed K s turn ↔ TakesStorable s turn := by
  cases turn with
  | swarm c e => exact iff_of_true ⟨h, nofun⟩ trivial
  | report c publication =>
    refine iff_of_true ?_ trivial
    rcases hr : s.reports with _ | ⟨event, reports⟩
    · have hsame : s.step K (.report c publication) = s := by
        simp [Engine.step, Engine.report, hr]
      exact ⟨by rwa [hsame], fun _ _ _ => by rw [hsame]⟩
    · have hevent : event.isFailed = false := h event (by simp [hr])
      have hstep : s.step K (.report c publication) =
          { s with actor := s.actor.step K (c, .persisted event publication), reports } := by
        simp [Engine.step, Engine.report, hr]
      refine ⟨?_, fun _ _ _ => ?_⟩
      · rw [hstep]
        exact fun e he => h e (by simp [hr, he])
      · rw [hstep]
        exact mode_handlePersisted publication c hevent
  | work n readings =>
    have hlen : (s.batch n).length ≤ MAX_BATCH := (batch_length n).trans hlim.1
    constructor
    · intro hu q hq
      by_contra hbad
      have hfit : ¬ ∀ q ∈ s.batch n, Storable q.record := fun hall => hbad (hall q hq)
      obtain ⟨error, hw⟩ := @work_failed K s.db readings (s.batch n) hlen hfit
      have hmem : .failed q.record.recordId error q.gossipValidation ∈
          (s.step K (.work n readings)).reports := by
        change _ ∈ s.reports ++ (Worker.work K s.db readings (s.batch n)).1
        rw [hw]
        exact List.mem_append_right _ (List.mem_map.mpr ⟨q, hq, rfl⟩)
      have hclean := hu.clean _ hmem
      cases hclean
    · intro hfit
      refine ⟨fun e he => ?_, nofun⟩
      rcases List.mem_append.mp he with he | he
      · exact h e he
      · exact work_not_failed hlim.2 hfit e he

/-- A batch within the capacity limits goes through exactly when its records fit the signed
columns, which the validator does not ask for; and in every run within the limits no failure is
reported, and no report switches the safety mode on, exactly when all records that the writer
takes fit. -/
theorem batches_succeed_iff (K : Primitives) :
    (∀ (db : SignatureDatabase) (readings : StorageReadings) (records : List FlaggedFileRecord),
      db.ensureCapacity readings records = .ok () →
        ((∃ out, db.insertBatch readings records = .ok out) ↔
          ∀ r ∈ records.take 100, Storable r)) ∧
    ∀ (s : Engine) (turns : List Turn), Clean s →
      Along (Engine.step K) WithinLimits s turns →
        (Along (Engine.step K) (Unharmed K) s turns ↔
          Along (Engine.step K) TakesStorable s turns) := by
  constructor
  · intro db readings records hgate
    rw [insertBatch_ok_iff]
    exact and_iff_right hgate
  · intro s turns hclean hlim
    exact along_iff_of_invariant hclean hlim
      (fun s turn hs hl ht => ((unharmed_iff hs hl).mpr ht).clean) fun s turn => unharmed_iff

def sampleEngine : Engine := ⟨sampleNode, .open false, []⟩

/-- The sample peer connects and gossips a record, which is inserted and reported. -/
def gossiped (record : FlaggedFileRecord) : List Turn :=
  [.swarm (.still 0 0)
      (.connectionEstablished samplePeer (.listener [.ip4 ⟨1, 2, 3, 4⟩, .tcp 4001]) 1 1),
    .swarm (.still 0 0) (.gossip samplePeer record.recordId record.encode),
    .work 1 sampleReadings,
    .report (.still 0 0) none]

theorem batches_succeed_small :
    ((∃ out, (SignatureDatabase.open false).insertBatch sampleReadings
        [sampleRecord 1 1 1 0 1000] = .ok out) ↔
      ∀ r ∈ [sampleRecord 1 1 1 0 1000].take 100, Storable r) ∧
    (Along (Engine.step samplePrimitives) (Unharmed samplePrimitives) sampleEngine
        (gossiped (sampleRecord 1 1 1 0 1000)) ↔
      Along (Engine.step samplePrimitives) TakesStorable sampleEngine
        (gossiped (sampleRecord 1 1 1 0 1000))) :=
  ⟨(batches_succeed_iff samplePrimitives).1 _ _ _ (by decide +kernel),
    (batches_succeed_iff samplePrimitives).2 _ _ (by simp [Clean, sampleEngine])
      (by decide +kernel)⟩

/-- A valid record with sequence 2 ^ 63, gossiped by a peer, fails its batch and switches the
safety mode on. -/
theorem wide_sequence_harms :
    RecordValidator.default.validate samplePrimitives (sampleRecord 1 (2 ^ 63) 1 0 1000) 0 =
      .ok () ∧
    (SignatureDatabase.open false).ensureCapacity sampleReadings
      [sampleRecord 1 (2 ^ 63) 1 0 1000] = .ok () ∧
    (¬ ∃ out, (SignatureDatabase.open false).insertBatch sampleReadings
      [sampleRecord 1 (2 ^ 63) 1 0 1000] = .ok out) ∧
    sampleEngine.actor.storageSafetyMode = false ∧
    (run (Engine.step samplePrimitives) sampleEngine
      (gossiped (sampleRecord 1 (2 ^ 63) 1 0 1000))).actor.storageSafetyMode = true := by
  refine ⟨sampleRecord_valid (by decide) (by decide) (by decide) (by decide), by decide +kernel,
    fun h => ?_, rfl, by decide +kernel⟩
  have hfit := (insertBatch_ok_iff.mp h).2 (sampleRecord 1 (2 ^ 63) 1 0 1000) (by simp)
  exact absurd hfit (by decide +kernel)

end Protonet.Persistence
