import Protonet.DatabaseBatch
import Protonet.RecordIdentity
import Protonet.StepRun
import Protonet.Worker

/-!
# The threads around the writer

Any number of threads hand requests to the writer through a bounded channel, and the writer hands
its reports to the engine through another one. The depth of the queue is counted beside it, in
steps of their own, so all of these steps interleave freely.
-/
namespace Protonet.WriterThreads
open StepRun Record RecordIdentity Database Worker

/-- How far a thread is in `try_enqueue`. -/
inductive Caller
  | idle
  /-- `fetch_add` is done. -/
  | counted (request : PersistRequest)
  /-- `try_send` has failed. -/
  | refused
  /-- `fetch_sub` is done. -/
  | uncounted
  deriving DecidableEq

/-- How far the writer is in its loop. -/
inductive Writer
  | waiting
  /-- A request is received and still counted. -/
  | received
  | gathering
  /-- Events that are still to be sent. -/
  | reporting (events : List PersistEvent)
  /-- The thread has returned. -/
  | returned
  deriving DecidableEq

structure Threads (ι : Type) where
  caller : ι → Caller
  queue : List PersistRequest
  depth : ℕ
  saturations : ℕ
  writer : Writer
  batch : List PersistRequest
  db : SignatureDatabase
  /-- The channel of events, and whether the engine still holds its other end. -/
  events : List PersistEvent
  connected : Bool

def Threads.spawn {ι : Type} (db : SignatureDatabase) : Threads ι where
  caller _ := .idle
  queue := []
  depth := 0
  saturations := 0
  writer := .waiting
  batch := []
  db := db
  events := []
  connected := true

inductive Move (ι : Type)
  /-- `depth.fetch_add` of a call. -/
  | count (i : ι) (request : PersistRequest)
  | trySend (i : ι)
  /-- `depth.fetch_sub` of a call that has failed. -/
  | uncount (i : ι)
  | saturate (i : ι)
  /-- `recv` and `recv_timeout`. -/
  | receive
  /-- `worker_depth.fetch_sub`. -/
  | lower
  /-- The batch is full or its time is over. -/
  | insert (readings : StorageReadings)
  /-- The transaction fails for a reason of the database itself. -/
  | broken (error : PersistError)
  /-- `blocking_send` of the next event. -/
  | send
  /-- The engine takes an event. -/
  | handle
  | hangUp
  /-- What others write to the store they share with the writer. -/
  | share (db : SignatureDatabase)

variable {ι : Type} [DecidableEq ι]

def Threads.setCaller (t : Threads ι) (i : ι) (caller : Caller) : Threads ι :=
  { t with caller := Function.update t.caller i caller }

/-- A full channel and one whose receiver is gone both refuse. -/
def Threads.accepts (t : Threads ι) : Bool :=
  decide (t.queue.length < PERSISTENCE_QUEUE_CAPACITY) && decide (t.writer ≠ .returned)

def Threads.receives (t : Threads ι) : Bool :=
  decide (t.writer = .waiting) ||
    decide (t.writer = .gathering) && decide (t.batch.length < MAX_BATCH)

/-- A thread that cannot make the step stays where it is. -/
def Threads.step (K : Primitives) (t : Threads ι) : Move ι → Threads ι
  | .count i request =>
    if t.caller i = .idle then { t with depth := t.depth + 1 }.setCaller i (.counted request) else t
  | .trySend i =>
    match t.caller i with
    | .counted request =>
      if t.accepts then { t with queue := t.queue ++ [request] }.setCaller i .idle
      else t.setCaller i .refused
    | _ => t
  | .uncount i =>
    if t.caller i = .refused then { t with depth := t.depth - 1 }.setCaller i .uncounted else t
  | .saturate i =>
    if t.caller i = .uncounted then
      { t with saturations := t.saturations + 1 }.setCaller i .idle
    else t
  | .receive =>
    match t.queue with
    | [] => t
    | request :: rest =>
      if t.receives then
        { t with queue := rest, batch := t.batch ++ [request], writer := .received }
      else t
  | .lower =>
    if t.writer = .received then { t with depth := t.depth - 1, writer := .gathering } else t
  | .insert readings =>
    if t.writer = .gathering then
      let (events, db) := work K t.db readings t.batch
      { t with db, batch := [], writer := .reporting events }
    else t
  | .broken error =>
    if t.writer = .gathering then
      { t with
        batch := []
        writer := .reporting (t.batch.map fun request =>
          .failed request.record.recordId error request.gossipValidation) }
    else t
  | .send =>
    match t.writer with
    | .reporting [] => { t with writer := .waiting }
    | .reporting (event :: rest) =>
      if t.connected then
        if t.events.length < PERSISTENCE_QUEUE_CAPACITY then
          { t with events := t.events ++ [event], writer := .reporting rest }
        else t
      else { t with writer := .returned, queue := [] }
    | _ => t
  | .handle => if t.connected then { t with events := t.events.drop 1 } else t
  | .hangUp => { t with connected := false }
  | .share db => { t with db }

def begun (t : Threads ι) : Move ι → List PersistRequest
  | .count i request => if t.caller i = .idle then [request] else []
  | _ => []

def admitted (t : Threads ι) : Move ι → List PersistRequest
  | .trySend i =>
    match t.caller i with
    | .counted request => if t.accepts then [request] else []
    | _ => []
  | _ => []

omit [DecidableEq ι] in
lemma admitted_of {t : Threads ι} {i : ι} {request : PersistRequest}
    (h : t.caller i = .counted request) (hroom : t.accepts = true) :
    admitted t (.trySend i) = [request] := by
  rw [admitted, h]
  exact if_pos hroom

omit [DecidableEq ι] in
lemma admitted_none {t : Threads ι} {i : ι} {request : PersistRequest}
    (h : t.caller i = .counted request) (hfull : t.accepts = false) :
    admitted t (.trySend i) = [] := by
  rw [admitted, h]
  exact if_neg (Bool.eq_false_iff.mp hfull)

def handled (t : Threads ι) : Move ι → List PersistEvent
  | .handle => if t.connected then t.events.take 1 else []
  | _ => []

/-- What a step of a thread can be. -/
inductive Makes (K : Primitives) (t : Threads ι) : Move ι → Threads ι → Prop
  | stays {m} (hb : begun t m = []) (ha : admitted t m = []) (hh : handled t m = []) : Makes K t m t
  | counts {i request} (h : t.caller i = .idle) :
      Makes K t (.count i request) ({ t with depth := t.depth + 1 }.setCaller i (.counted request))
  | admits {i request} (h : t.caller i = .counted request) (hroom : t.accepts = true) :
      Makes K t (.trySend i) ({ t with queue := t.queue ++ [request] }.setCaller i .idle)
  | refuses {i request} (h : t.caller i = .counted request) (hfull : t.accepts = false) :
      Makes K t (.trySend i) (t.setCaller i .refused)
  | uncounts {i} (h : t.caller i = .refused) :
      Makes K t (.uncount i) ({ t with depth := t.depth - 1 }.setCaller i .uncounted)
  | saturates {i} (h : t.caller i = .uncounted) :
      Makes K t (.saturate i) ({ t with saturations := t.saturations + 1 }.setCaller i .idle)
  | receives {request rest} (hqueue : t.queue = request :: rest) (h : t.receives = true) :
      Makes K t .receive
        { t with queue := rest, batch := t.batch ++ [request], writer := .received }
  | lowers (h : t.writer = .received) :
      Makes K t .lower { t with depth := t.depth - 1, writer := .gathering }
  | inserts {readings} (h : t.writer = .gathering) :
      Makes K t (.insert readings) { t with
        db := (work K t.db readings t.batch).2
        batch := []
        writer := .reporting (work K t.db readings t.batch).1 }
  | fails {error} (h : t.writer = .gathering) :
      Makes K t (.broken error) { t with
        batch := []
        writer := .reporting (t.batch.map fun request =>
          .failed request.record.recordId error request.gossipValidation) }
  | finishes (h : t.writer = .reporting []) : Makes K t .send { t with writer := .waiting }
  | sends {event rest} (h : t.writer = .reporting (event :: rest)) :
      Makes K t .send { t with events := t.events ++ [event], writer := .reporting rest }
  | returns {event rest} (h : t.writer = .reporting (event :: rest))
      (hgone : t.connected = false) :
      Makes K t .send { t with writer := .returned, queue := [] }
  | handles (h : t.connected = true) : Makes K t .handle { t with events := t.events.drop 1 }
  | hangsUp : Makes K t .hangUp { t with connected := false }
  | shares {db} : Makes K t (.share db) { t with db }

variable {K : Primitives} {t t' : Threads ι} {m : Move ι} {i : ι}

lemma step_makes (K : Primitives) (t : Threads ι) (m : Move ι) : Makes K t m (t.step K m) := by
  cases m with
  | count i request =>
    by_cases h : t.caller i = .idle
    · rw [Threads.step, if_pos h]
      exact .counts h
    · rw [Threads.step, if_neg h]
      exact .stays (if_neg h) rfl rfl
  | trySend i =>
    rcases h : t.caller i with _ | request | _ | _
    case counted =>
      rcases hroom : t.accepts with _ | _
      · rw [Threads.step, h]
        dsimp only
        rw [hroom]
        exact .refuses h hroom
      · rw [Threads.step, h]
        dsimp only
        rw [hroom]
        exact .admits h hroom
    all_goals
      rw [Threads.step, h]
      exact .stays rfl (by rw [admitted, h]) rfl
  | uncount i =>
    unfold Threads.step
    dsimp only
    split_ifs with h
    · exact .uncounts h
    · exact .stays rfl rfl rfl
  | saturate i =>
    unfold Threads.step
    dsimp only
    split_ifs with h
    · exact .saturates h
    · exact .stays rfl rfl rfl
  | receive =>
    rcases hqueue : t.queue with _ | ⟨request, rest⟩
    · rw [Threads.step, hqueue]
      exact .stays rfl rfl rfl
    · rw [Threads.step, hqueue]
      dsimp only
      split_ifs with h
      · exact .receives hqueue h
      · exact .stays rfl rfl rfl
  | lower =>
    unfold Threads.step
    dsimp only
    split_ifs with h
    · exact .lowers h
    · exact .stays rfl rfl rfl
  | insert readings =>
    unfold Threads.step
    dsimp only
    split_ifs with h
    · exact .inserts h
    · exact .stays rfl rfl rfl
  | broken error =>
    unfold Threads.step
    dsimp only
    split_ifs with h
    · exact .fails h
    · exact .stays rfl rfl rfl
  | send =>
    rcases h : t.writer with _ | _ | _ | ⟨_ | ⟨event, rest⟩⟩ | _
    case reporting.nil =>
      rw [Threads.step, h]
      exact .finishes h
    case reporting.cons =>
      rw [Threads.step, h]
      dsimp only
      split_ifs with hconnected
      · exact .sends h
      · exact .stays rfl rfl rfl
      · exact .returns h (Bool.eq_false_iff.mpr hconnected)
    all_goals
      rw [Threads.step, h]
      exact .stays rfl rfl rfl
  | handle =>
    by_cases h : t.connected = true
    · rw [Threads.step, if_pos h]
      exact .handles h
    · rw [Threads.step, if_neg h]
      exact .stays rfl rfl (if_neg h)
  | hangUp => exact .hangsUp
  | share db => exact .shares

/-- Whether the thread's request is counted without being in the queue. -/
def Caller.counts : Caller → ℕ
  | .counted _ => 1
  | .refused => 1
  | _ => 0

def Writer.counts : Writer → ℕ
  | .received => 1
  | _ => 0

variable [Fintype ι]

def Threads.counts (t : Threads ι) : ℕ := (∑ i, (t.caller i).counts) + t.writer.counts

lemma sum_update {f : Caller → ℕ} (callers : ι → Caller) (i : ι) (caller : Caller) :
    (∑ j, f (Function.update callers i caller j)) + f (callers i) =
      (∑ j, f (callers j)) + f caller := by
  have hold := Finset.add_sum_erase Finset.univ (fun j => f (callers j)) (Finset.mem_univ i)
  have hnew := Finset.add_sum_erase Finset.univ
    (fun j => f (Function.update callers i caller j)) (Finset.mem_univ i)
  have hrest : ∑ j ∈ Finset.univ.erase i, f (Function.update callers i caller j) =
      ∑ j ∈ Finset.univ.erase i, f (callers j) := by
    refine Finset.sum_congr rfl fun j hj => ?_
    rw [Function.update_of_ne (Finset.ne_of_mem_erase hj)]
  rw [hrest, Function.update_self] at hnew
  omega

lemma counts_setCaller (i : ι) (caller : Caller) :
    (t.setCaller i caller).counts + (t.caller i).counts = t.counts + caller.counts := by
  have hsum := @sum_update ι _ _ Caller.counts t.caller i caller
  unfold Threads.counts Threads.setCaller
  dsimp only
  omega

omit [DecidableEq ι] in
lemma counts_writer (h : t'.caller = t.caller) :
    t'.counts + t.writer.counts = t.counts + t'.writer.counts := by
  unfold Threads.counts
  rw [h]
  omega

/-- While the writer runs, the depth is the length of the queue and the threads in between. -/
structure Gauged (t : Threads ι) : Prop where
  bounded : t.queue.length ≤ PERSISTENCE_QUEUE_CAPACITY
  exact : t.writer ≠ .returned → t.depth = t.queue.length + t.counts
  covers : t.queue.length + t.counts ≤ t.depth

/-- The steps that lower the depth. -/
def Lowers (t : Threads ι) : Move ι → Prop
  | .uncount i => t.caller i = .refused
  | .lower => t.writer = .received
  | _ => False

omit [DecidableEq ι] in
lemma Gauged.positive (h : Gauged t) (hm : Lowers t m) : 0 < t.depth := by
  have hcovers := h.covers
  cases m with
  | uncount i =>
    have hone : (t.caller i).counts ≤ ∑ j, (t.caller j).counts :=
      Finset.single_le_sum (f := fun j => (t.caller j).counts) (fun _ _ => Nat.zero_le _)
        (Finset.mem_univ i)
    have hcaller : (t.caller i).counts = 1 := congrArg Caller.counts hm
    unfold Threads.counts at hcovers
    omega
  | lower =>
    have hwriter : t.writer.counts = 1 := congrArg Writer.counts hm
    unfold Threads.counts at hcovers
    omega
  | _ => cases hm

omit [DecidableEq ι] in
/-- The depth moves with the queue and with the threads in between. -/
lemma Gauged.balanced (h : Gauged t) (hbounded : t'.queue.length ≤ PERSISTENCE_QUEUE_CAPACITY)
    (hruns : t'.writer ≠ .returned → t.writer ≠ .returned)
    (hbalance : t'.depth + (t.queue.length + t.counts) = t.depth + (t'.queue.length + t'.counts)) :
    Gauged t' where
  bounded := hbounded
  exact hrunning := by
    have hexact := h.exact (hruns hrunning)
    omega
  covers := by
    have hcovers := h.covers
    omega

omit [DecidableEq ι] in
/-- The writer goes on without receiving anything. -/
lemma Gauged.goesOn (h : Gauged t) (hqueue : t'.queue = t.queue) (hdepth : t'.depth = t.depth)
    (hcaller : t'.caller = t.caller) (hruns : t.writer ≠ .returned)
    (hcounts : t'.writer.counts = t.writer.counts) : Gauged t' := by
  have hmoved := counts_writer hcaller
  refine h.balanced (hqueue ▸ h.bounded) (fun _ => hruns) ?_
  rw [hqueue, hdepth]
  omega

lemma gauged_makes (h : Gauged t) (hm : Makes K t m t') : Gauged t' := by
  have hbounded := h.bounded
  have hset (i : ι) (caller : Caller) := @counts_setCaller ι _ t _ i caller
  cases hm with
  | stays => exact h
  | @counts i request hidle =>
    have hmoved := hset i (.counted request)
    have hcaller : (t.caller i).counts = 0 := congrArg Caller.counts hidle
    have hnew : (Caller.counted request).counts = 1 := rfl
    refine h.balanced hbounded id ?_
    change t.depth + 1 + _ = t.depth + (t.queue.length + (t.setCaller i (.counted request)).counts)
    omega
  | @admits i request hcounted hroom =>
    have hmoved := hset i .idle
    have hcaller : (t.caller i).counts = 1 := congrArg Caller.counts hcounted
    have hnew : Caller.idle.counts = 0 := rfl
    have hlength : (t.queue ++ [request]).length = t.queue.length + 1 := by simp
    refine h.balanced ?_ id ?_
    · have hlt := of_decide_eq_true (Bool.and_eq_true_iff.mp hroom).1
      exact hlength.trans_le hlt
    · change t.depth + _ = t.depth + ((t.queue ++ [request]).length + (t.setCaller i .idle).counts)
      omega
  | @refuses i request hcounted hfull =>
    have hmoved := hset i .refused
    have hcaller : (t.caller i).counts = 1 := congrArg Caller.counts hcounted
    have hnew : Caller.refused.counts = 1 := rfl
    refine h.balanced hbounded id ?_
    change t.depth + _ = t.depth + (t.queue.length + (t.setCaller i .refused).counts)
    omega
  | @uncounts i hrefused =>
    have hpositive := h.positive (m := .uncount i) hrefused
    have hmoved := hset i .uncounted
    have hcaller : (t.caller i).counts = 1 := congrArg Caller.counts hrefused
    have hnew : Caller.uncounted.counts = 0 := rfl
    refine h.balanced hbounded id ?_
    change t.depth - 1 + _ = t.depth + (t.queue.length + (t.setCaller i .uncounted).counts)
    omega
  | @saturates i huncounted =>
    have hmoved := hset i .idle
    have hcaller : (t.caller i).counts = 0 := congrArg Caller.counts huncounted
    have hnew : Caller.idle.counts = 0 := rfl
    refine h.balanced hbounded id ?_
    change t.depth + _ = t.depth + (t.queue.length + (t.setCaller i .idle).counts)
    omega
  | @receives request rest hqueue hready =>
    have hidle : t.writer.counts = 0 ∧ t.writer ≠ .returned := by
      unfold Threads.receives at hready
      rcases hw : t.writer with _ | _ | _ | _ | _ <;> simp [hw, Writer.counts] at hready ⊢
    have hlength : t.queue.length = rest.length + 1 := by rw [hqueue, List.length_cons]
    have hmoved := @counts_writer ι t { t with
      queue := rest, batch := t.batch ++ [request], writer := .received } _ rfl
    have hnew : Writer.received.counts = 1 := rfl
    refine h.balanced (by dsimp only; omega) (fun _ => hidle.2) ?_
    dsimp only at hmoved ⊢
    omega
  | lowers hreceived =>
    have hpositive := h.positive (m := .lower) hreceived
    have hwriter : t.writer.counts = 1 := congrArg Writer.counts hreceived
    have hruns : t.writer ≠ .returned := by simp [hreceived]
    have hmoved := @counts_writer ι t { t with depth := t.depth - 1, writer := .gathering } _ rfl
    have hnew : Writer.gathering.counts = 0 := rfl
    refine h.balanced hbounded (fun _ => hruns) ?_
    dsimp only at hmoved ⊢
    omega
  | inserts hgathering =>
    exact h.goesOn rfl rfl rfl (by simp [hgathering]) (congrArg Writer.counts hgathering).symm
  | fails hgathering =>
    exact h.goesOn rfl rfl rfl (by simp [hgathering]) (congrArg Writer.counts hgathering).symm
  | finishes hreporting =>
    exact h.goesOn rfl rfl rfl (by simp [hreporting]) (congrArg Writer.counts hreporting).symm
  | sends hreporting =>
    exact h.goesOn rfl rfl rfl (by simp [hreporting]) (congrArg Writer.counts hreporting).symm
  | @returns event rest hreporting hgone =>
    -- the requests left in the queue stay counted
    have hmoved := @counts_writer ι t { t with writer := .returned, queue := [] } _ rfl
    have hwriter : t.writer.counts = 0 := congrArg Writer.counts hreporting
    have hnew : Writer.returned.counts = 0 := rfl
    have hcovers := h.covers
    refine ⟨Nat.zero_le _, fun hrunning => absurd rfl hrunning, ?_⟩
    dsimp only [List.length_nil] at hmoved ⊢
    omega
  | handles => exact h.balanced hbounded id rfl
  | hangsUp => exact h.balanced hbounded id rfl
  | shares => exact h.balanced hbounded id rfl

omit [DecidableEq ι] in
lemma gauged_spawn (db : SignatureDatabase) : Gauged (.spawn db : Threads ι) := by
  have hzero : (Threads.spawn db : Threads ι).counts = 0 := by
    simp [Threads.counts, Threads.spawn, Caller.counts, Writer.counts]
  have hall : (Threads.spawn db : Threads ι).queue.length + (Threads.spawn db : Threads ι).counts =
      (Threads.spawn db : Threads ι).depth := (Nat.zero_add _).trans hzero
  exact ⟨Nat.zero_le _, fun _ => hall.symm, hall.le⟩

lemma gauged_run (h : Gauged t) (moves : List (Move ι)) :
    Gauged (run (Threads.step K) t moves) := by
  induction moves generalizing t with
  | nil => exact h
  | cons m moves ih => exact ih (gauged_makes h (step_makes K t m))

/-- In every interleaving of any number of threads with the writer: the queue keeps its bound, the
depth is lowered only when it is positive, and while the writer runs it is the length of the queue
and the threads between counting a request and sending or receiving it. -/
theorem depth_gauged (K : Primitives) (db : SignatureDatabase) (moves : List (Move ι)) :
    let t := run (Threads.step K) (.spawn db) moves
    t.queue.length ≤ PERSISTENCE_QUEUE_CAPACITY ∧
      (t.writer ≠ .returned → t.depth = t.queue.length + t.counts) ∧
      ∀ m, Lowers t m → 0 < t.depth := by
  intro t
  have hgauged : Gauged t := gauged_run (gauged_spawn db) moves
  exact ⟨hgauged.bounded, hgauged.exact, fun m => hgauged.positive⟩

/-- One thread has sent its request and another one has only counted its own. -/
def sampleMoves : List (Move Bool) :=
  let request : PersistRequest := ⟨sampleRecord 1 1 0 0 0, none, 0, none⟩
  [.count true request, .count false request, .trySend true, .receive]

theorem depth_gauged_sample :
    let t := run (Threads.step samplePrimitives) (.spawn (.open false)) sampleMoves
    t.queue = [] ∧ t.depth = 2 ∧ t.depth = t.queue.length + t.counts ∧ 0 < t.depth :=
  have hgauged := depth_gauged samplePrimitives (.open false) sampleMoves
  ⟨by decide +kernel, by decide +kernel, hgauged.2.1 (by decide +kernel),
    hgauged.2.2 .lower (by decide +kernel : (run (Threads.step samplePrimitives)
      (.spawn (.open false)) sampleMoves).writer = .received)⟩

/-- A report that answers the request. -/
def Answers (K : Primitives) (request : PersistRequest) (event : PersistEvent) : Prop :=
  (∃ inserted, event = reportOf K request inserted) ∨
    ∃ error, event = .failed request.record.recordId error request.gossipValidation

def Writer.unsent : Writer → List PersistEvent
  | .reporting events => events
  | _ => []

/-- What is admitted is answered in order, is with the writer or waits in the queue. -/
structure Served (K : Primitives) (t : Threads ι) (requests : List PersistRequest)
    (events : List PersistEvent) : Prop where
  bounded : t.batch.length ≤ MAX_BATCH
  drained : t.writer ≠ .received → t.writer ≠ .gathering → t.batch = []
  answered : ∃ done rest, requests = done ++ rest ∧
    List.Forall₂ (Answers K) done (events ++ t.events ++ t.writer.unsent) ∧
    (t.writer ≠ .returned → rest = t.batch ++ t.queue)

lemma zip_answers {batch : List PersistRequest} {results : List Bool}
    (h : batch.length = results.length) :
    List.Forall₂ (Answers K) batch ((batch.zip results).map fun p => reportOf K p.1 p.2) := by
  induction batch generalizing results with
  | nil => exact .nil
  | cons request batch ih =>
    cases results with
    | nil => cases h
    | cons inserted results => exact .cons (.inl ⟨inserted, rfl⟩) (ih (Nat.succ.inj h))

lemma failed_answers (error : PersistError) (batch : List PersistRequest) :
    List.Forall₂ (Answers K) batch (batch.map fun request =>
      .failed request.record.recordId error request.gossipValidation) := by
  induction batch with
  | nil => exact .nil
  | cons request batch ih => exact .cons (.inr ⟨error, rfl⟩) ih

lemma work_answers {db : SignatureDatabase} {readings : StorageReadings}
    {batch : List PersistRequest} (h : batch.length ≤ MAX_BATCH) :
    List.Forall₂ (Answers K) batch (work K db readings batch).1 := by
  unfold work
  rcases hi : db.insertBatch readings (batch.map PersistRequest.record) with e | ⟨results, db'⟩
  · exact failed_answers _ batch
  · obtain ⟨db₁, hrows, -⟩ := insertBatch_eq hi
    rw [List.take_of_length_le (by simpa [MAX_BATCH] using h)] at hrows
    have hlength := insertRows_length hrows
    rw [List.length_map] at hlength
    exact zip_answers hlength.symm

variable {requests : List PersistRequest} {events : List PersistEvent}

omit [DecidableEq ι] [Fintype ι] in
lemma Served.reports (h : Served K t requests events) (hgathering : t.writer = .gathering)
    {reports : List PersistEvent} (hreports : List.Forall₂ (Answers K) t.batch reports)
    {db : SignatureDatabase} :
    Served K { t with db, batch := [], writer := .reporting reports } requests events := by
  obtain ⟨hbounded, hdrained, done, rest, hrequests, hanswers, hrest⟩ := h
  have hrunning := hrest (by simp [hgathering])
  refine ⟨Nat.zero_le _, fun _ _ => rfl, done ++ t.batch, t.queue, ?_, ?_, fun _ => rfl⟩
  · rw [hrequests, hrunning, List.append_assoc]
  · have hnone : t.writer.unsent = [] := congrArg Writer.unsent hgathering
    rw [hnone, List.append_nil] at hanswers
    exact List.rel_append hanswers hreports

omit [Fintype ι] in
lemma served_makes (h : Served K t requests events) (hm : Makes K t m t') :
    Served K t' (requests ++ admitted t m) (events ++ handled t m) := by
  obtain ⟨hbounded, hdrained, done, rest, hrequests, hanswers, hrest⟩ := h
  have hquiet : Served K t (requests ++ []) (events ++ []) := by
    rw [List.append_nil, List.append_nil]
    exact ⟨hbounded, hdrained, done, rest, hrequests, hanswers, hrest⟩
  cases hm with
  | stays hb ha hh =>
    rw [ha, hh]
    exact hquiet
  | counts hidle => exact ⟨hquiet.bounded, hquiet.drained, hquiet.answered⟩
  | @admits i request hcounted hroom =>
    have hadmitted := admitted_of hcounted hroom
    have hruns : t.writer ≠ .returned := of_decide_eq_true (Bool.and_eq_true_iff.mp hroom).2
    rw [hadmitted]
    refine ⟨hbounded, hdrained, done, rest ++ [request], ?_, ?_, fun _ => ?_⟩
    · rw [hrequests, List.append_assoc]
    · exact (List.append_nil events).symm ▸ hanswers
    · rw [hrest hruns, List.append_assoc]
      rfl
  | @refuses i request hcounted hfull =>
    have hnone := admitted_none hcounted hfull
    rw [hnone]
    exact ⟨hquiet.bounded, hquiet.drained, hquiet.answered⟩
  | uncounts hrefused => exact ⟨hquiet.bounded, hquiet.drained, hquiet.answered⟩
  | saturates huncounted => exact ⟨hquiet.bounded, hquiet.drained, hquiet.answered⟩
  | @receives request queue hqueue hready =>
    have hready' : (t.writer = .waiting ∨ t.writer = .gathering ∧ t.batch.length < MAX_BATCH) := by
      simpa [Threads.receives] using hready
    have hroom : t.batch.length < MAX_BATCH := by
      rcases hready' with hw | hw
      · rw [hdrained (by simp [hw]) (by simp [hw])]
        decide
      · exact hw.2
    have hnone : t.writer ≠ .returned ∧ t.writer.unsent = [] := by
      rcases hready' with hw | hw <;> simp [hw, Writer.unsent]
    refine ⟨by simpa using hroom, fun hw => absurd rfl hw, done, rest, ?_, ?_, fun _ => ?_⟩
    · exact (List.append_nil requests).trans hrequests
    · rw [hnone.2] at hanswers
      exact (List.append_nil events).symm ▸ hanswers
    · rw [hrest hnone.1, hqueue, List.append_cons]
  | lowers hreceived =>
    refine ⟨hbounded, fun _ hw => absurd rfl hw, done, rest, ?_, ?_, fun _ => ?_⟩
    · exact (List.append_nil requests).trans hrequests
    · rw [hreceived] at hanswers
      exact (List.append_nil events).symm ▸ hanswers
    · exact hrest (by simp [hreceived])
  | inserts hgathering =>
    exact hquiet.reports hgathering (work_answers hbounded)
  | fails hgathering =>
    exact hquiet.reports hgathering (failed_answers _ t.batch)
  | finishes hreporting =>
    have hempty := hdrained (by simp [hreporting]) (by simp [hreporting])
    refine ⟨hbounded, fun _ _ => hempty, done, rest, ?_, ?_, fun _ => ?_⟩
    · exact (List.append_nil requests).trans hrequests
    · rw [hreporting] at hanswers
      exact (List.append_nil events).symm ▸ hanswers
    · exact hrest (by simp [hreporting])
  | @sends event left hreporting =>
    have hempty := hdrained (by simp [hreporting]) (by simp [hreporting])
    refine ⟨hbounded, fun _ _ => hempty, done, rest, ?_, ?_, fun _ => ?_⟩
    · exact (List.append_nil requests).trans hrequests
    · rw [hreporting, Writer.unsent, List.append_cons, List.append_assoc events] at hanswers
      exact (List.append_nil events).symm ▸ hanswers
    · exact hrest (by simp [hreporting])
  | @returns event left hreporting hgone =>
    -- what is not sent by now is never sent
    have hempty := hdrained (by simp [hreporting]) (by simp [hreporting])
    have hsplit := List.forall₂_take_append _ _ _ hanswers
    refine ⟨hbounded, fun _ _ => hempty, done.take (events ++ t.events).length,
      done.drop (events ++ t.events).length ++ rest, ?_, ?_, fun hw => absurd rfl hw⟩
    · rw [← List.append_assoc, List.take_append_drop, ← hrequests]
      exact List.append_nil requests
    · simpa [handled, Writer.unsent] using hsplit
  | handles hconnected =>
    have htaken : handled t .handle = t.events.take 1 := if_pos hconnected
    rw [htaken]
    refine ⟨hbounded, hdrained, done, rest, ?_, ?_, hrest⟩
    · exact (List.append_nil requests).trans hrequests
    · rw [List.append_assoc events, List.take_append_drop]
      exact hanswers
  | hangsUp => exact ⟨hquiet.bounded, hquiet.drained, hquiet.answered⟩
  | shares => exact ⟨hquiet.bounded, hquiet.drained, hquiet.answered⟩

omit [Fintype ι] in
lemma served_run (h : Served K t requests events) (moves : List (Move ι)) :
    Served K (run (Threads.step K) t moves)
      (requests ++ collected (Threads.step K) admitted t moves)
      (events ++ collected (Threads.step K) handled t moves) := by
  induction moves generalizing t requests events with
  | nil => simpa [collected] using h
  | cons m moves ih =>
    have hstep := ih (served_makes h (step_makes K t m))
    rw [List.append_assoc, List.append_assoc] at hstep
    exact hstep

def Caller.busy : Caller → ℕ
  | .idle => 0
  | _ => 1

def Threads.busy (t : Threads ι) : ℕ := ∑ i, (t.caller i).busy

lemma busy_setCaller (i : ι) (caller : Caller) :
    (t.setCaller i caller).busy + (t.caller i).busy = t.busy + caller.busy :=
  sum_update t.caller i caller

/-- A call is admitted, is counted as a saturation or is under way. -/
lemma busy_makes (hm : Makes K t m t') :
    t.busy + t.saturations + (begun t m).length =
      t'.busy + t'.saturations + (admitted t m).length := by
  have hset (i : ι) (caller : Caller) := @busy_setCaller ι _ t _ i caller
  cases hm with
  | stays hb ha hh => rw [hb, ha]
  | @counts i request hidle =>
    have hmoved := hset i (.counted request)
    have hcaller : (t.caller i).busy = 0 := congrArg Caller.busy hidle
    have hnew : (Caller.counted request).busy = 1 := rfl
    have hbegun : begun t (.count i request) = [request] := if_pos hidle
    rw [hbegun]
    change t.busy + t.saturations + 1 = (t.setCaller i (.counted request)).busy + t.saturations + 0
    omega
  | @admits i request hcounted hroom =>
    have hmoved := hset i .idle
    have hcaller : (t.caller i).busy = 1 := congrArg Caller.busy hcounted
    have hnew : Caller.idle.busy = 0 := rfl
    have hadmitted := admitted_of hcounted hroom
    rw [hadmitted]
    change t.busy + t.saturations + 0 = (t.setCaller i .idle).busy + t.saturations + 1
    omega
  | @refuses i request hcounted hfull =>
    have hmoved := hset i .refused
    have hcaller : (t.caller i).busy = 1 := congrArg Caller.busy hcounted
    have hnew : Caller.refused.busy = 1 := rfl
    have hnone := admitted_none hcounted hfull
    rw [hnone]
    change t.busy + t.saturations + 0 = (t.setCaller i .refused).busy + t.saturations + 0
    omega
  | @uncounts i hrefused =>
    have hmoved := hset i .uncounted
    have hcaller : (t.caller i).busy = 1 := congrArg Caller.busy hrefused
    have hnew : Caller.uncounted.busy = 1 := rfl
    change t.busy + t.saturations + 0 = (t.setCaller i .uncounted).busy + t.saturations + 0
    omega
  | @saturates i huncounted =>
    have hmoved := hset i .idle
    have hcaller : (t.caller i).busy = 1 := congrArg Caller.busy huncounted
    have hnew : Caller.idle.busy = 0 := rfl
    change t.busy + t.saturations + 0 = (t.setCaller i .idle).busy + (t.saturations + 1) + 0
    omega
  | _ => rfl

lemma busy_run (t : Threads ι) (moves : List (Move ι)) :
    t.busy + t.saturations + (collected (Threads.step K) begun t moves).length =
      (run (Threads.step K) t moves).busy + (run (Threads.step K) t moves).saturations +
        (collected (Threads.step K) admitted t moves).length := by
  induction moves generalizing t with
  | nil => rfl
  | cons m moves ih =>
    have hone := busy_makes (step_makes K t m)
    have hrest := ih (t.step K m)
    rw [collected, collected, List.length_append, List.length_append, run_cons]
    omega

omit [DecidableEq ι] [Fintype ι] in
lemma served_spawn (db : SignatureDatabase) : Served K (.spawn db : Threads ι) [] [] :=
  ⟨Nat.zero_le _, fun _ _ => rfl, [], [], rfl, .nil, fun _ => rfl⟩

/-- In every interleaving: the engine receives an answer of each request in the order in which the
channel took them, none twice and none left out. While the writer runs, what is not answered yet
is on its way, and a call is admitted, counted as a saturation or still under way. -/
theorem answered_in_order (K : Primitives) (db : SignatureDatabase) (moves : List (Move ι)) :
    let start : Threads ι := .spawn db
    let t := run (Threads.step K) start moves
    let requests := collected (Threads.step K) admitted start moves
    let events := collected (Threads.step K) handled start moves
    List.Forall₂ (Answers K) (requests.take events.length) events ∧
      (t.writer ≠ .returned → requests.length =
        events.length + t.events.length + t.writer.unsent.length + t.batch.length +
          t.queue.length) ∧
      (collected (Threads.step K) begun start moves).length =
        requests.length + t.saturations + t.busy := by
  intro start t requests events
  have hserved : Served K t ([] ++ requests) ([] ++ events) := served_run (served_spawn db) moves
  rw [List.nil_append, List.nil_append] at hserved
  obtain ⟨done, rest, hrequests, hanswers, hrest⟩ := hserved.answered
  have hlength := hanswers.length_eq
  rw [List.append_assoc] at hanswers hlength
  refine ⟨?_, fun hruns => ?_, ?_⟩
  · have htaken := List.forall₂_take_append _ _ _ hanswers
    have hle : events.length ≤ done.length := by
      rw [hlength, List.length_append]
      exact Nat.le_add_right _ _
    rw [hrequests, List.take_append_of_le_length hle]
    exact htaken
  · rw [hrequests, hrest hruns]
    simp only [List.length_append] at hlength ⊢
    omega
  · have hbusy : start.busy + start.saturations + _ = t.busy + t.saturations + requests.length :=
      busy_run start moves
    have hstart : start.busy = 0 ∧ start.saturations = 0 := by
      simp [start, Threads.busy, Threads.spawn, Caller.busy]
    omega

theorem answered_in_order_sample :
    let moves := sampleMoves ++ [.lower, .insert DatabaseBatch.sampleReadings, .send, .handle]
    let events := collected (Threads.step samplePrimitives) handled (.spawn (.open false)) moves
    events.length = 1 ∧ List.Forall₂ (Answers samplePrimitives)
      ((collected (Threads.step samplePrimitives) admitted (.spawn (.open false)) moves).take
        events.length) events :=
  ⟨by decide +kernel, (answered_in_order samplePrimitives (.open false) _).1⟩

/-- The steps that bring calls and requests further: those of calls under way, of the writer and
of the engine that takes its reports. -/
def Move.advances : Move ι → Bool
  | .count .. => false
  | .hangUp => false
  | .share _ => false
  | _ => true

/-- The steps that a call still takes, with those of its request. -/
def Caller.weight : Caller → ℕ
  | .idle => 0
  | .counted _ => 8
  | .refused => 2
  | .uncounted => 1

def Writer.weight : Writer → ℕ
  | .waiting => 0
  | .received => 3
  | .gathering => 2
  | .reporting events => 1 + 2 * events.length
  | .returned => 0

/-- A bound on the steps until all is answered. -/
def Threads.load (t : Threads ι) : ℕ :=
  (∑ i, (t.caller i).weight) + 7 * t.queue.length + 3 * t.batch.length + t.writer.weight +
    t.events.length

structure Settled (t : Threads ι) : Prop where
  caller : ∀ i, t.caller i = .idle
  queue : t.queue = []
  writer : t.writer = .waiting
  events : t.events = []

lemma load_setCaller (i : ι) (caller : Caller) :
    (t.setCaller i caller).load + (t.caller i).weight = t.load + caller.weight := by
  have hsum := @sum_update ι _ _ Caller.weight t.caller i caller
  unfold Threads.load Threads.setCaller
  dsimp only
  omega

omit [DecidableEq ι] in
/-- A report is nearer to the engine than its request. -/
lemma load_reports (hgathering : t.writer = .gathering) {reports : List PersistEvent}
    (hlength : reports.length = t.batch.length) {db : SignatureDatabase} :
    Threads.load { t with db, batch := [], writer := .reporting reports } < t.load := by
  have hold : t.writer.weight = 2 := congrArg Writer.weight hgathering
  have hnew : (Writer.reporting reports).weight = 1 + 2 * reports.length := rfl
  have hempty : ([] : List PersistRequest).length = 0 := rfl
  unfold Threads.load
  dsimp only
  omega

/-- As long as the engine takes reports, a step that advances something makes the load smaller. -/
lemma load_makes (hconnected : t.connected = true) (hbounded : t.batch.length ≤ MAX_BATCH)
    (hadvances : m.advances = true) (hm : Makes K t m t') : t' = t ∨ t'.load < t.load := by
  have hset (i : ι) (caller : Caller) := @load_setCaller ι _ t _ i caller
  cases hm with
  | stays => exact .inl rfl
  | counts | hangsUp | shares => cases hadvances
  | @admits i request hcounted hroom =>
    have hmoved := @load_setCaller ι _ { t with queue := t.queue ++ [request] } _ i .idle
    have hcaller : (t.caller i).weight = 8 := congrArg Caller.weight hcounted
    have hnew : Caller.idle.weight = 0 := rfl
    have hqueued : Threads.load { t with queue := t.queue ++ [request] } = t.load + 7 := by
      unfold Threads.load
      dsimp only
      rw [List.length_append, List.length_singleton]
      omega
    dsimp only at hmoved
    exact .inr (by omega)
  | @refuses i request hcounted hfull =>
    have hmoved := hset i .refused
    have hcaller : (t.caller i).weight = 8 := congrArg Caller.weight hcounted
    have hnew : Caller.refused.weight = 2 := rfl
    exact .inr (by omega)
  | @uncounts i hrefused =>
    have hmoved := @load_setCaller ι _ { t with depth := t.depth - 1 } _ i .uncounted
    have hcaller : (t.caller i).weight = 2 := congrArg Caller.weight hrefused
    have hnew : Caller.uncounted.weight = 1 := rfl
    change _ + (t.caller i).weight = t.load + _ at hmoved
    exact .inr (by omega)
  | @saturates i huncounted =>
    have hmoved := @load_setCaller ι _ { t with saturations := t.saturations + 1 } _ i .idle
    have hcaller : (t.caller i).weight = 1 := congrArg Caller.weight huncounted
    have hnew : Caller.idle.weight = 0 := rfl
    change _ + (t.caller i).weight = t.load + _ at hmoved
    exact .inr (by omega)
  | @receives request rest hqueue hready =>
    have hlength : t.queue.length = rest.length + 1 := by rw [hqueue, List.length_cons]
    have hbatch : (t.batch ++ [request]).length = t.batch.length + 1 := by simp
    have hnew : Writer.received.weight = 3 := rfl
    right
    unfold Threads.load
    dsimp only
    omega
  | lowers hreceived =>
    have hold : t.writer.weight = 3 := congrArg Writer.weight hreceived
    have hnew : Writer.gathering.weight = 2 := rfl
    right
    unfold Threads.load
    dsimp only
    omega
  | @inserts readings hgathering =>
    have hlength := (@work_answers K t.db readings t.batch hbounded).length_eq
    exact .inr (load_reports hgathering hlength.symm)
  | @fails error hgathering =>
    exact .inr (@load_reports ι t _ hgathering _ (List.length_map _) t.db)
  | finishes hreporting =>
    have hold : t.writer.weight = 1 := congrArg Writer.weight hreporting
    have hnew : Writer.waiting.weight = 0 := rfl
    right
    unfold Threads.load
    dsimp only
    omega
  | @sends event rest hreporting =>
    have hold : t.writer.weight = 1 + 2 * (rest.length + 1) := congrArg Writer.weight hreporting
    have hnew : (Writer.reporting rest).weight = 1 + 2 * rest.length := rfl
    have hlength : (t.events ++ [event]).length = t.events.length + 1 := by simp
    right
    unfold Threads.load
    dsimp only
    omega
  | returns hreporting hgone =>
    rw [hconnected] at hgone
    cases hgone
  | handles =>
    rcases hevents : t.events with _ | ⟨event, rest⟩
    · left
      rw [List.drop_nil, ← hevents]
    · right
      have hlength : t.events.length = rest.length + 1 := by rw [hevents, List.length_cons]
      have hnew : ((event :: rest).drop 1).length = rest.length := rfl
      unfold Threads.load
      dsimp only
      omega

/-- The engine takes reports, and the writer does not return. -/
structure Open (t : Threads ι) : Prop where
  connected : t.connected = true
  runs : t.writer ≠ .returned

omit [Fintype ι] in
lemma open_makes (h : Open t) (hm : Makes K t m t') (hstays : m ≠ .hangUp) : Open t' := by
  obtain ⟨hconnected, hruns⟩ := h
  cases hm with
  | hangsUp => exact absurd rfl hstays
  | returns hreporting hgone =>
    rw [hconnected] at hgone
    cases hgone
  | receives | lowers | inserts | fails | finishes | sends => exact ⟨hconnected, by simp⟩
  | _ => exact ⟨hconnected, hruns⟩

omit [Fintype ι] in
lemma caller_setCaller {caller : Caller} : (t.setCaller i caller).caller i = caller :=
  Function.update_self ..

omit [Fintype ι] in
lemma idle_of_still (hstill : ∀ m : Move ι, m.advances = true → t.step K m = t) (i : ι) :
    t.caller i = .idle := by
  have hsame (m : Move ι) (hm : m.advances = true) : (t.step K m).caller i = t.caller i :=
    congrFun (congrArg Threads.caller (hstill m hm)) i
  rcases hcaller : t.caller i with _ | request | _ | _
  case idle => rfl
  case counted =>
    have hmoved := hsame (.trySend i) rfl
    rw [Threads.step, hcaller] at hmoved
    dsimp only at hmoved
    split_ifs at hmoved
    all_goals
      rw [caller_setCaller] at hmoved
      cases hmoved
  case refused =>
    have hmoved := hsame (.uncount i) rfl
    rw [Threads.step, if_pos hcaller, caller_setCaller, hcaller] at hmoved
    cases hmoved
  case uncounted =>
    have hmoved := hsame (.saturate i) rfl
    rw [Threads.step, if_pos hcaller, caller_setCaller, hcaller] at hmoved
    cases hmoved

omit [Fintype ι] in
/-- Threads that cannot advance have nothing left to do: there is no deadlock. -/
lemma settled_of_still (h : Open t)
    (hstill : ∀ m : Move ι, m.advances = true → t.step K m = t) : Settled t := by
  have hevents : t.events = [] := by
    have hmoved := congrArg Threads.events (hstill .handle rfl)
    rw [Threads.step, if_pos h.connected] at hmoved
    rcases hl : t.events with _ | ⟨event, rest⟩
    · rfl
    · rw [hl] at hmoved
      exact absurd hmoved.symm (List.cons_ne_self event rest)
  have hsame (m : Move ι) (hm : m.advances = true) : (t.step K m).writer = t.writer :=
    congrArg Threads.writer (hstill m hm)
  have hwriter : t.writer = .waiting := by
    rcases hw : t.writer with _ | _ | _ | ⟨_ | ⟨event, rest⟩⟩ | _
    case waiting => rfl
    case received =>
      have hmoved := hsame .lower rfl
      rw [Threads.step, if_pos hw, hw] at hmoved
      cases hmoved
    case gathering =>
      have hmoved := hsame (.broken (.database "")) rfl
      rw [Threads.step, if_pos hw, hw] at hmoved
      cases hmoved
    case reporting.nil =>
      have hmoved := hsame .send rfl
      rw [Threads.step, hw] at hmoved
      cases hmoved
    case reporting.cons =>
      have hroom : t.events.length < PERSISTENCE_QUEUE_CAPACITY := by
        rw [hevents]
        decide
      have hmoved := hsame .send rfl
      rw [Threads.step, hw] at hmoved
      dsimp only at hmoved
      rw [if_pos h.connected, if_pos hroom] at hmoved
      exact absurd (Writer.reporting.inj hmoved).symm (List.cons_ne_self event rest)
    case returned => exact absurd hw h.runs
  refine ⟨idle_of_still hstill, ?_, hwriter, hevents⟩
  have hmoved := congrArg Threads.queue (hstill .receive rfl)
  rcases hqueue : t.queue with _ | ⟨request, rest⟩
  · rfl
  · have hready : t.receives = true := by simp [Threads.receives, hwriter]
    rw [Threads.step, hqueue] at hmoved
    dsimp only at hmoved
    rw [if_pos hready] at hmoved
    exact absurd hmoved.symm (List.cons_ne_self request rest)

omit [Fintype ι] in
lemma still_of_settled (h : Settled t) (hadvances : m.advances = true) : t.step K m = t := by
  obtain ⟨hcaller, hqueue, hwriter, hevents⟩ := h
  cases m with
  | trySend i => rw [Threads.step, hcaller i]
  | uncount i => rw [Threads.step, if_neg (by simp [hcaller i])]
  | saturate i => rw [Threads.step, if_neg (by simp [hcaller i])]
  | receive => rw [Threads.step, hqueue]
  | lower => rw [Threads.step, if_neg (by simp [hwriter])]
  | insert readings => rw [Threads.step, if_neg (by simp [hwriter])]
  | broken error => rw [Threads.step, if_neg (by simp [hwriter])]
  | send => rw [Threads.step, hwriter]
  | handle =>
    have hnone : t.events.drop 1 = t.events := by
      rw [hevents]
      rfl
    rw [Threads.step, hnone]
    split_ifs <;> rfl
  | _ => cases hadvances

/-- A step without a new call, which changes something unless it is another writer of the store. -/
def Pushes (K : Primitives) (t : Threads ι) (m : Move ι) : Prop :=
  (m ≠ .hangUp ∧ ∀ i request, m ≠ .count i request) ∧ (m.advances = true → t.step K m ≠ t)

/-- An engine that stays hears of everything. -/
def Serving (K : Primitives) (t : Threads ι) : Prop :=
  Open t ∧ ∃ requests events, Served K t requests events

omit [Fintype ι] in
lemma serving_step (h : Serving K t) (hstays : m ≠ .hangUp) : Serving K (t.step K m) := by
  obtain ⟨hopen, requests, events, hserved⟩ := h
  have hm := step_makes K t m
  exact ⟨open_makes hopen hm hstays, _, _, served_makes hserved hm⟩

lemma load_pushes (h : Serving K t) (hm : Pushes K t m) :
    (t.step K m).load ≤ t.load ∧ (m.advances = true → (t.step K m).load < t.load) := by
  obtain ⟨hopen, requests, events, hserved⟩ := h
  obtain ⟨⟨hstays, hcalls⟩, hchanges⟩ := hm
  have hlower (hadvances : m.advances = true) : (t.step K m).load < t.load :=
    (load_makes hopen.connected hserved.bounded hadvances (step_makes K t m)).resolve_left
      (hchanges hadvances)
  refine ⟨?_, hlower⟩
  cases m with
  | count i request => exact absurd rfl (hcalls i request)
  | hangUp => exact absurd rfl hstays
  | share db => exact le_rfl
  | _ => exact (hlower rfl).le

omit [DecidableEq ι] in
lemma depth_of_settled (hgauged : Gauged t) (h : Settled t) : t.depth = 0 ∧ t.busy = 0 := by
  obtain ⟨hcaller, hqueue, hwriter, -⟩ := h
  have hdepth := hgauged.exact (by simp [hwriter])
  have hcounts : t.counts = 0 := by
    simp [Threads.counts, hcaller, hwriter, Caller.counts, Writer.counts]
  have hbusy : t.busy = 0 := by simp [Threads.busy, hcaller, Caller.busy]
  refine ⟨?_, hbusy⟩
  rw [hdepth, hcounts, hqueue]
  rfl

/-- After any interleaving with an engine that stays: without new calls the threads make only as
many steps as their load, whoever is slow and whatever others write to the store, and when none of
them can go on, every request that was taken is answered, every call is over and the depth is
zero. -/
theorem all_answered (K : Primitives) (db : SignatureDatabase) {moves rest : List (Move ι)}
    (hstays : .hangUp ∉ moves)
    (hpushes : Along (Threads.step K) (Pushes K) (run (Threads.step K) (.spawn db) moves) rest) :
    let start : Threads ι := .spawn db
    let t := run (Threads.step K) start moves
    let u := run (Threads.step K) t rest
    let all := moves ++ rest
    rest.countP Move.advances ≤ t.load ∧
      ((∀ m : Move ι, m.advances = true → u.step K m = u) →
        List.Forall₂ (Answers K) (collected (Threads.step K) admitted start all)
            (collected (Threads.step K) handled start all) ∧
          (collected (Threads.step K) begun start all).length =
            (collected (Threads.step K) admitted start all).length + u.saturations ∧
          u.depth = 0) := by
  intro start t u all
  have hserving : Serving K t := by
    refine run_invariant (C := fun _ m => m ≠ .hangUp)
      ⟨⟨rfl, by simp [start, Threads.spawn]⟩, [], [], served_spawn db⟩ ?_ fun _ _ h hm => serving_step h hm
    exact along_forall.mpr fun m hm heq => hstays (heq ▸ hm)
  have hload : Along (Threads.step K) (fun t m => (t.step K m).load ≤ t.load ∧
      (m.advances = true → (t.step K m).load < t.load)) t rest :=
    along_of_invariant hserving hpushes (fun _ _ h hm => serving_step h hm.1.1)
      fun _ _ h hm => load_pushes h hm
  have hbound := countP_add_le (hload.mono fun _ _ h => h.1) (hload.mono fun _ _ h => h.2)
  refine ⟨(Nat.le_add_right _ _).trans hbound, fun hstill => ?_⟩
  have hu : u = run (Threads.step K) start all := (run_append start moves rest).symm
  have hopen : Open u :=
    (run_invariant hserving hpushes fun _ _ h hm => serving_step h hm.1.1).1
  have hsettled := settled_of_still hopen hstill
  have hserved : Served K (run (Threads.step K) start all) _ _ :=
    served_run (served_spawn db) all
  obtain ⟨hdepth, hidle⟩ := depth_of_settled (hu ▸ gauged_run (gauged_spawn db) all) hsettled
  rw [← hu, List.nil_append, List.nil_append] at hserved
  obtain ⟨-, hdrained, done, left, hrequests, hanswers, hrest⟩ := hserved
  have hbatch : u.batch = [] :=
    hdrained (by simp [hsettled.writer]) (by simp [hsettled.writer])
  have hnone : left = [] := by rw [hrest hopen.runs, hbatch, hsettled.queue, List.nil_append]
  refine ⟨?_, ?_, hdepth⟩
  · rw [hnone, List.append_nil] at hrequests
    rw [hsettled.events, hsettled.writer, List.append_nil] at hanswers
    rw [hrequests]
    exact (List.append_nil (collected (Threads.step K) handled start all)) ▸ hanswers
  · have hbusy := @busy_run ι _ K _ start all
    have hstart : start.busy = 0 ∧ start.saturations = 0 := by
      simp [start, Threads.busy, Threads.spawn, Caller.busy]
    rw [← hu] at hbusy
    omega

/-- The writer serves the first request, and then the second one. -/
def sampleRest : List (Move Bool) :=
  let round : List (Move Bool) :=
    [.lower, .insert DatabaseBatch.sampleReadings, .send, .send, .handle]
  round ++ [.trySend false, .receive] ++ round

theorem all_answered_sample :
    let start : Threads Bool := .spawn (.open false)
    let all := sampleMoves ++ sampleRest
    sampleRest.countP Move.advances = 12 ∧
      (collected (Threads.step samplePrimitives) handled start all).length = 2 ∧
      List.Forall₂ (Answers samplePrimitives)
        (collected (Threads.step samplePrimitives) admitted start all)
        (collected (Threads.step samplePrimitives) handled start all) := by
  intro start all
  have hlower : Along (Threads.step samplePrimitives)
      (fun t m => (t.step samplePrimitives m).load < t.load)
      (run (Threads.step samplePrimitives) start sampleMoves) sampleRest := by decide +kernel
  have hquiet : ∀ m ∈ sampleRest, m ≠ .hangUp ∧ ∀ i request, m ≠ .count i request := by
    simp [sampleRest]
  have hpushes : Along (Threads.step samplePrimitives) (Pushes samplePrimitives)
      (run (Threads.step samplePrimitives) start sampleMoves) sampleRest :=
    ((along_forall.mpr hquiet).and hlower).mono fun t m h =>
      ⟨h.1, fun _ hsame => h.2.ne (congrArg Threads.load hsame)⟩
  have hsettled : Settled (run (Threads.step samplePrimitives)
      (run (Threads.step samplePrimitives) start sampleMoves) sampleRest) :=
    ⟨by decide +kernel, by decide +kernel, by decide +kernel, by decide +kernel⟩
  refine ⟨by decide +kernel, by decide +kernel, ?_⟩
  exact ((all_answered samplePrimitives (.open false) (by simp [sampleMoves]) hpushes).2
    fun m hm => still_of_settled hsettled hm).1

end Protonet.WriterThreads
