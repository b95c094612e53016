import Protonet.SwarmVerdicts

/-!
# One verdict for each gossip message

The actor, the writer thread and the channels between them. The writer takes requests one by one,
inserts what it has taken at any moment and sends its reports back in order, while the actor goes
on with other events.
-/
namespace Protonet.GossipVerdicts
open StepRun Postcard Record Database Replay Worker Swarm

/-- The writer's two own events aside. -/
def isExternal : Event → Bool
  | .persisted .. | .workerTook _ => false
  | _ => true

structure Pipeline where
  actor : Actor
  /-- Taken off the queue and not yet inserted. -/
  batch : List PersistRequest
  bounded : batch.length ≤ MAX_BATCH
  db : SignatureDatabase
  /-- Sent by the writer and not yet handled. -/
  reports : List PersistEvent

inductive Move
  | swarm (e : Event) (h : isExternal e = true)
  | take
  | insert (readings : StorageReadings)
  /-- The transaction fails for a reason of the database itself. -/
  | broken (error : PersistError)
  | report (publication : Option String)
  /-- Another transaction on the store commits. -/
  | maintain (db : SignatureDatabase)

def Pipeline.start (a : Actor) (db : SignatureDatabase) : Pipeline :=
  ⟨a, [], Nat.zero_le _, db, []⟩

/-- The outbox is delivered and nothing else happens to the actor. -/
def Pipeline.quiet (p : Pipeline) : Pipeline := { p with actor := p.actor.cleared }

def failedReport (error : PersistError) (request : PersistRequest) : PersistEvent :=
  .failed request.record.recordId error request.gossipValidation

def Pipeline.step (K : Primitives) (p : Pipeline) (m : Clock × Move) : Pipeline :=
  match m.2 with
  | .swarm e _ => { p with actor := p.actor.step K (m.1, e) }
  | .take =>
    match p.actor.queue with
    | [] => p.quiet
    | q :: _ =>
      if h : p.batch.length < MAX_BATCH then
        { p with
          actor := p.actor.step K (m.1, .workerTook 1)
          batch := p.batch ++ [q]
          bounded := by simpa using h }
      else p.quiet
  | .insert readings =>
    { p.quiet with
      batch := []
      bounded := Nat.zero_le _
      db := (work K p.db readings p.batch).2
      reports := p.reports ++ (work K p.db readings p.batch).1 }
  | .broken error =>
    { p.quiet with
      batch := []
      bounded := Nat.zero_le _
      reports := p.reports ++ p.batch.map (failedReport error) }
  | .report publication =>
    match p.reports with
    | [] => p.quiet
    | event :: rest =>
      { p with actor := p.actor.step K (m.1, .persisted event publication), reports := rest }
  | .maintain db => { p.quiet with db }

def reportKey : PersistEvent → Option MessageKey
  | .stored request => request.gossipValidation
  | .duplicate _ _ _ gossipValidation => gossipValidation
  | .failed _ _ gossipValidation => gossipValidation

def reportAcceptance : PersistEvent → MessageAcceptance
  | .stored _ => .accept
  | _ => .ignore

def Pipeline.outstanding (p : Pipeline) : List MessageKey :=
  p.reports.filterMap reportKey ++ awaited p.batch ++ awaited p.actor.queue

def message : Move → List MessageKey
  | .swarm (.gossip source messageId _) _ => [(messageId, source)]
  | _ => []

def messages (ms : List (Clock × Move)) : List MessageKey := ms.flatMap fun m => message m.2

def history (K : Primitives) : Pipeline → List (Clock × Move) → List (MessageKey × MessageAcceptance)
  | _, [] => []
  | p, m :: ms => (p.step K m).actor.verdicts ++ history K (p.step K m) ms

/-- The run received the message with a payload that the validator accepts as this record. -/
def Validated (K : Primitives) (ms : List (Clock × Move)) (key : MessageKey)
    (record : FlaggedFileRecord) : Prop :=
  ∃ c data h, (c, Move.swarm (.gossip key.2 key.1 data) h) ∈ ms ∧
    RecordValidator.default.validateBytes K data (c.unixMs 0) = .ok record

/-- A record that one store lacks and the other holds. -/
def NewlyStored (before after : SignatureDatabase) (record : FlaggedFileRecord) : Prop :=
  ∃ row, toRow record = .ok row ∧ row.recordId ∉ before.records.rows.map Row.recordId ∧
    row ∈ after.records.rows

/-- In the course of the run the message was validated, and then a batch with its record was
committed and added it to the store. -/
def Durable (K : Primitives) (p : Pipeline) (ms : List (Clock × Move)) (key : MessageKey) : Prop :=
  ∃ xs c readings ys q, ms = xs ++ (c, .insert readings) :: ys ∧
    q ∈ (run (Pipeline.step K) p xs).batch ∧ q.gossipValidation = some key ∧
    Validated K xs key q.record ∧
    (∃ out, (run (Pipeline.step K) p xs).db.insertBatch readings
      ((run (Pipeline.step K) p xs).batch.map PersistRequest.record) = .ok out) ∧
    NewlyStored (run (Pipeline.step K) p xs).db
      (run (Pipeline.step K) p (xs ++ [(c, .insert readings)])).db q.record

variable {K : Primitives} {a : Actor} {c : Clock} {p : Pipeline}

lemma insertRows_grow {db db' : SignatureDatabase} {rs : List FlaggedFileRecord}
    {results : List Bool} (h : db.insertRows rs = .ok (results, db')) :
    db.records.rows ⊆ db'.records.rows := by
  induction rs generalizing db results with
  | nil =>
    rw [(insertRows_nil h).2]
    exact List.Subset.refl _
  | cons r rs ih =>
    obtain ⟨inserted, mid, tail, hone, hrest, -⟩ := insertRows_cons h
    obtain ⟨row, -, -, hrec, -⟩ := insertOne_eq hone
    have hgrow := insertOrIgnore_rows db.records row
    rw [← hrec] at hgrow
    intro x hx
    refine ih hrest ?_
    rw [hgrow]
    split_ifs
    · exact List.mem_append_left _ hx
    · exact hx

lemma insertRows_new {db db' : SignatureDatabase} {rs : List FlaggedFileRecord}
    {results : List Bool} (h : db.insertRows rs = .ok (results, db')) {r : FlaggedFileRecord}
    (hr : (r, true) ∈ rs.zip results) : NewlyStored db db' r := by
  induction rs generalizing db results with
  | nil => simp at hr
  | cons s rs ih =>
    obtain ⟨inserted, mid, tail, hone, hrest, rfl⟩ := insertRows_cons h
    obtain ⟨row, hrow, hins, hrec, -⟩ := insertOne_eq hone
    have hgrow := insertOrIgnore_rows db.records row
    rw [← hrec, ← hins] at hgrow
    rcases List.mem_cons.mp hr with heq | htail
    · obtain ⟨rfl, rfl⟩ := Prod.mk.inj heq
      refine ⟨row, hrow, ((insertOrIgnore_fst db.records row).mp hins.symm).1, ?_⟩
      refine insertRows_grow hrest ?_
      rw [hgrow]
      simp
    · obtain ⟨row', hrow', hnew, hin⟩ := ih hrest htail
      refine ⟨row', hrow', fun hold => hnew ?_, hin⟩
      obtain ⟨x, hx, hid⟩ := List.mem_map.mp hold
      refine List.mem_map.mpr ⟨x, ?_, hid⟩
      rw [hgrow]
      split_ifs
      · exact List.mem_append_left _ hx
      · exact hx

/-- The writer answers each request of a batch, in order. -/
lemma work_keys {db : SignatureDatabase} {readings : StorageReadings} {batch : List PersistRequest}
    (hlen : batch.length ≤ MAX_BATCH) :
    (work K db readings batch).1.filterMap reportKey = awaited batch := by
  unfold work
  rcases hi : db.insertBatch readings (batch.map PersistRequest.record) with e | ⟨results, db'⟩
  · dsimp only
    rw [List.filterMap_map]
    rfl
  · obtain ⟨db₁, hrows, -⟩ := insertBatch_eq hi
    have hlen' : results.length = batch.length := by
      rw [insertRows_length hrows, List.take_of_length_le (by simpa [MAX_BATCH] using hlen),
        List.length_map]
    have hkey : (reportKey ∘ fun x : PersistRequest × Bool => reportOf K x.1 x.2) =
        PersistRequest.gossipValidation ∘ Prod.fst := by
      funext x
      rcases x with ⟨q, _ | _⟩ <;> rfl
    have hfst : (batch.zip results).map Prod.fst = batch :=
      List.map_fst_zip (le_of_eq hlen'.symm)
    calc ((batch.zip results).map fun x => reportOf K x.1 x.2).filterMap reportKey
        = (batch.zip results).filterMap (PersistRequest.gossipValidation ∘ Prod.fst) := by
          rw [List.filterMap_map, hkey]
      _ = awaited ((batch.zip results).map Prod.fst) := List.filterMap_map.symm
      _ = awaited batch := by rw [hfst]

lemma work_stored {db : SignatureDatabase} {readings : StorageReadings}
    {batch : List PersistRequest} (hlen : batch.length ≤ MAX_BATCH) {q : PersistRequest}
    (h : .stored q ∈ (work K db readings batch).1) :
    q ∈ batch ∧ (∃ out, db.insertBatch readings (batch.map PersistRequest.record) = .ok out) ∧
      NewlyStored db (work K db readings batch).2 q.record := by
  unfold work at h ⊢
  rcases hi : db.insertBatch readings (batch.map PersistRequest.record) with e | ⟨results, db'⟩
  · rw [hi] at h
    simp at h
  · rw [hi] at h
    obtain ⟨⟨q', inserted⟩, hmem, hq⟩ := List.mem_map.mp h
    obtain ⟨db₁, hrows, hrec, -⟩ := insertBatch_eq hi
    rw [List.take_of_length_le (by simpa [MAX_BATCH] using hlen)] at hrows
    cases inserted with
    | false => cases hq
    | true =>
      obtain rfl : q' = q := PersistEvent.stored.inj hq
      refine ⟨(List.of_mem_zip hmem).1, ⟨_, rfl⟩, ?_⟩
      have hzip : (q'.record, true) ∈ (batch.map PersistRequest.record).zip results := by
        rw [List.zip_map_left]
        exact List.mem_map.mpr ⟨(q', true), hmem, rfl⟩
      obtain ⟨row, hrow, hnew, hin⟩ := insertRows_new hrows hzip
      exact ⟨row, hrow, hnew, hrec ▸ hin⟩

/-- A message is decided at once, not favourably, or leaves a request with its valid record. -/
lemma gossip_outcome (source : PeerId) (messageId : RecordId) (data : Bytes) :
    (∃ acceptance, acceptance ≠ .accept ∧
      (a.handle K c (.gossip source messageId data)).verdicts =
        a.verdicts ++ [((messageId, source), acceptance)] ∧
      (a.handle K c (.gossip source messageId data)).queue = a.queue) ∨
    ∃ q, q.gossipValidation = some (messageId, source) ∧
      RecordValidator.default.validateBytes K data (c.unixMs 0) = .ok q.record ∧
      (a.handle K c (.gossip source messageId data)).verdicts = a.verdicts ∧
      (a.handle K c (.gossip source messageId data)).queue = a.queue ++ [q] := by
  obtain ⟨effects, hout, hturn⟩ := @validateGossip_turn K a c source messageId data
  have hverdicts : (a.handle K c (.gossip source messageId data)).verdicts =
      a.verdicts ++ verdictsOf effects :=
    (congrArg verdictsOf hout).trans (verdictsOf_append ..)
  rw [hverdicts]
  have hqueue : (a.handle K c (.gossip source messageId data)).queue =
      (a.validateGossip K source messageId data c).queue := rfl
  rw [hqueue]
  generalize (a.validateGossip K source messageId data c).queue = queue at hturn ⊢
  cases hturn with
  | refused => exact .inl ⟨.reject, by decide, rfl, rfl⟩
  | @invalid error rest h hrest =>
    refine .inl ⟨.reject, by decide, ?_, rfl⟩
    have hnone : verdictsOf rest = [] := by
      refine List.filterMap_eq_nil_iff.mpr fun e he => ?_
      have := hrest e he
      cases e <;> first | rfl | exact this.elim
    rw [show verdictsOf (.reportGossip messageId source .reject :: rest) =
      ((messageId, source), .reject) :: verdictsOf rest from rfl, hnone]
  | ignored => exact .inl ⟨.ignore, by decide, rfl, rfl⟩
  | tooOld => exact .inl ⟨.reject, by decide, rfl, rfl⟩
  | denied => exact .inl ⟨.reject, by decide, rfl, rfl⟩
  | @queued record hopen h =>
    exact .inr ⟨gossipRequest source messageId c record, rfl, h, List.append_nil _, rfl⟩

lemma verdicts_reportValidation (v : Option MessageKey) (acceptance : MessageAcceptance) :
    (a.reportValidation v acceptance).verdicts =
      a.verdicts ++ (v.map fun key => (key, acceptance)).toList := by
  cases v with
  | none => exact (List.append_nil _).symm
  | some v => simp [Actor.reportValidation, Actor.reportGossip, Actor.emit, Actor.verdicts,
      verdictsOf, Effect.verdict?]

lemma verdicts_persisted (event : PersistEvent) (publication : Option String) :
    (a.handle K c (.persisted event publication)).verdicts =
      a.verdicts ++ ((reportKey event).map fun key => (key, reportAcceptance event)).toList ∧
    (a.handle K c (.persisted event publication)).queue = a.queue := by
  refine ⟨?_, ?_⟩
  · cases event with
    | stored request =>
      have haccept : (a.acceptReplay K request.record (c.instant 0)).verdicts = a.verdicts := by
        unfold Actor.acceptReplay
        split <;> rfl
      unfold Actor.handle Actor.handlePersisted
      dsimp only
      split
      · rw [verdicts_noteReceived, verdicts_reportValidation, haccept]
        rfl
      · rw [verdicts_publishOwn, verdicts_reportValidation, haccept]
        rfl
    | duplicate recordId origin sequence v => exact verdicts_reportValidation v .ignore
    | failed recordId error v =>
      unfold Actor.handle Actor.handlePersisted
      dsimp only
      rw [verdicts_reportValidation, verdicts_violation, verdicts_notify]
      rfl
  · obtain ⟨replay, reason, h⟩ := @core_handlePersisted K a c event publication
    exact congrArg Core.queue h

lemma cleared_verdicts : a.cleared.verdicts = [] := rfl

/-- A swarm event reports or leaves outstanding exactly the message it brings. -/
lemma swarm_conserves {e : Event} (h : isExternal e = true) :
    ((a.step K (c, e)).verdicts.map Prod.fst ++ awaited (a.step K (c, e)).queue).Perm
      (message (.swarm e h) ++ awaited a.queue) := by
  by_cases hs : e.isSilent = true
  · have hsame : message (.swarm e h) = [] := by
      cases e <;> first | rfl | exact absurd hs Bool.false_ne_true
    have hverdicts : (a.step K (c, e)).verdicts = [] := verdicts_silent hs
    obtain ⟨requests, hqueue, hnone⟩ := @awaited_silent K a.cleared c e hs
    have hqueue' : (a.step K (c, e)).queue = a.queue ++ requests := hqueue
    rw [hsame, hverdicts, hqueue', awaited_append, awaited_eq_nil hnone, List.append_nil]
    exact .refl _
  · cases e with
    | gossip source messageId data =>
      rcases @gossip_outcome K a.cleared c source messageId data with
        ⟨acceptance, -, hverdicts, hqueue⟩ | ⟨q, hkey, -, hverdicts, hqueue⟩
      all_goals rw [Actor.step, hverdicts, hqueue, cleared_verdicts]
      · exact .refl _
      · have hone : awaited [q] = [(messageId, source)] := by simp [awaited, hkey]
        rw [awaited_append, hone]
        exact @List.perm_append_comm _ (awaited a.queue) [(messageId, source)]
    | persisted event publication => exact absurd h Bool.false_ne_true
    | workerTook n => exact absurd h Bool.false_ne_true
    | _ => exact absurd rfl hs

lemma step_conserves (m : Clock × Move) :
    ((p.step K m).actor.verdicts.map Prod.fst ++ (p.step K m).outstanding).Perm
      (message m.2 ++ p.outstanding) := by
  obtain ⟨c, m⟩ := m
  cases m with
  | swarm e h =>
    have hswarm := @swarm_conserves K p.actor c e h
    refine List.perm_iff_count.mpr fun key => ?_
    have hkey := List.perm_iff_count.mp hswarm key
    have hstep : p.step K (c, .swarm e h) = { p with actor := p.actor.step K (c, e) } := rfl
    rw [hstep]
    simp only [Pipeline.outstanding, List.count_append] at hkey ⊢
    omega
  | take =>
    unfold Pipeline.step
    dsimp only
    rcases hq : p.actor.queue with _ | ⟨q, rest⟩
    · exact .refl _
    · dsimp only
      split_ifs
      · have hqueue : (p.actor.step K (c, .workerTook 1)).queue = rest := by
          change p.actor.queue.drop 1 = rest
          rw [hq]
          rfl
        have hverdicts : (p.actor.step K (c, .workerTook 1)).verdicts = [] := rfl
        rw [hverdicts]
        unfold Pipeline.outstanding
        rw [hqueue, hq, awaited_append, List.append_assoc, List.append_assoc, List.append_assoc,
          ← awaited_append [q] rest]
        exact .refl _
      · exact .refl _
  | insert readings =>
    have hkeys := @work_keys K p.db readings p.batch p.bounded
    have hstep : (p.step K (c, .insert readings)).outstanding =
        (p.reports ++ (work K p.db readings p.batch).1).filterMap reportKey ++ awaited [] ++
          awaited p.actor.queue := rfl
    have hverdicts : (p.step K (c, .insert readings)).actor.verdicts = [] := rfl
    rw [hverdicts, hstep, List.filterMap_append, hkeys]
    unfold Pipeline.outstanding
    simp [awaited, message]
  | broken error =>
    have hkeys : (p.batch.map (failedReport error)).filterMap reportKey = awaited p.batch :=
      List.filterMap_map
    have hstep : (p.step K (c, .broken error)).outstanding =
        (p.reports ++ p.batch.map (failedReport error)).filterMap reportKey ++ awaited [] ++
          awaited p.actor.queue := rfl
    have hverdicts : (p.step K (c, .broken error)).actor.verdicts = [] := rfl
    rw [hverdicts, hstep, List.filterMap_append, hkeys]
    unfold Pipeline.outstanding
    simp [awaited, message]
  | report publication =>
    unfold Pipeline.step
    dsimp only
    rcases hr : p.reports with _ | ⟨event, rest⟩
    · exact .refl _
    · obtain ⟨hverdicts, hqueue⟩ := @verdicts_persisted K p.actor.cleared c event publication
      unfold Pipeline.outstanding
      dsimp only
      rw [Actor.step, hverdicts, hqueue, hr, cleared_verdicts]
      rcases hk : reportKey event with _ | key
      · simp [hk, message, Actor.cleared]
      · simp [hk, message, Actor.cleared]
  | maintain db => exact .refl _

lemma history_append (xs ys : List (Clock × Move)) : history K p (xs ++ ys) =
    history K p xs ++ history K (run (Pipeline.step K) p xs) ys := by
  induction xs generalizing p with
  | nil => rfl
  | cons x xs ih =>
    rw [List.cons_append, history, history, ih, run_cons, List.append_assoc]

/-- In a run every message is reported or outstanding, each as often as it came. -/
lemma run_conserves (ms : List (Clock × Move)) :
    ((history K p ms).map Prod.fst ++ (run (Pipeline.step K) p ms).outstanding).Perm
      (messages ms ++ p.outstanding) := by
  induction ms generalizing p with
  | nil => exact .refl _
  | cons m ms ih =>
    refine List.perm_iff_count.mpr fun key => ?_
    have hrest := List.perm_iff_count.mp (@ih (p.step K m)) key
    have hstep := List.perm_iff_count.mp (@step_conserves K p m) key
    have hmessages : messages (m :: ms) = message m.2 ++ messages ms := List.flatMap_cons
    rw [run_cons, history, hmessages]
    simp only [List.map_append, List.count_append] at hrest hstep ⊢
    omega

lemma Validated.mono {xs ys : List (Clock × Move)} {key : MessageKey} {r : FlaggedFileRecord}
    (h : Validated K xs key r) (hsub : xs ⊆ ys) : Validated K ys key r := by
  obtain ⟨c, data, hext, hmem, hvalid⟩ := h
  exact ⟨c, data, hext, hsub hmem, hvalid⟩

lemma Durable.append {xs ys : List (Clock × Move)} {key : MessageKey} (h : Durable K p xs key) :
    Durable K p (xs ++ ys) key := by
  obtain ⟨before, c, readings, after, q, rfl, h⟩ := h
  exact ⟨before, c, readings, after ++ ys, q, by simp, h⟩

lemma accepted_stored {event : PersistEvent} {v : MessageKey × MessageAcceptance}
    (hv : v ∈ [] ++ ((reportKey event).map fun key => (key, reportAcceptance event)).toList)
    (haccept : v.2 = .accept) : ∃ q, event = .stored q ∧ q.gossipValidation = some v.1 := by
  rw [List.nil_append, Option.mem_toList, Option.map_eq_some_iff] at hv
  obtain ⟨key, hkey, rfl⟩ := hv
  cases event with
  | stored q => exact ⟨q, rfl, hkey⟩
  | duplicate recordId origin sequence w => cases haccept
  | failed recordId error w => cases haccept

/-- What the requests under way and the reports under way stand for. -/
structure Backed (K : Primitives) (p : Pipeline) (ms : List (Clock × Move)) (r : Pipeline) :
    Prop where
  waiting : ∀ q ∈ r.batch ++ r.actor.queue, ∀ key, q.gossipValidation = some key →
    Validated K ms key q.record
  stored : ∀ q, .stored q ∈ r.reports → ∀ key, q.gossipValidation = some key → Durable K p ms key

/-- A swarm event accepts nothing and leaves requests that stand for valid messages. -/
lemma swarm_backed {e : Event} (h : isExternal e = true) :
    (∀ v ∈ (a.step K (c, e)).verdicts, v.2 ≠ .accept) ∧
      ∀ q ∈ (a.step K (c, e)).queue, q ∈ a.queue ∨ ∀ key, q.gossipValidation = some key →
        Validated K [(c, .swarm e h)] key q.record := by
  by_cases hs : e.isSilent = true
  · have hverdicts : (a.step K (c, e)).verdicts = [] := verdicts_silent hs
    obtain ⟨requests, hqueue, hnone⟩ := @awaited_silent K a.cleared c e hs
    have hqueue' : (a.step K (c, e)).queue = a.queue ++ requests := hqueue
    rw [hverdicts, hqueue']
    refine ⟨by simp, fun q hq => ?_⟩
    rcases List.mem_append.mp hq with hold | hnew
    · exact .inl hold
    · refine .inr fun key hkey => ?_
      rw [hnone q hnew] at hkey
      cases hkey
  · cases e with
    | gossip source messageId data =>
      rcases @gossip_outcome K a.cleared c source messageId data with
        ⟨acceptance, hno, hverdicts, hqueue⟩ | ⟨q, hkey, hvalid, hverdicts, hqueue⟩
      all_goals rw [Actor.step, hverdicts, hqueue, cleared_verdicts]
      · refine ⟨fun v hv => ?_, fun q hq => .inl hq⟩
        rw [List.mem_singleton.mp hv]
        exact hno
      · refine ⟨by simp, fun q' hq' => ?_⟩
        rcases List.mem_append.mp hq' with hold | hnew
        · exact .inl hold
        · refine .inr fun key hk => ?_
          rw [List.mem_singleton.mp hnew] at hk ⊢
          rw [hkey] at hk
          obtain rfl := Option.some.inj hk
          exact ⟨c, data, h, List.mem_singleton_self _, hvalid⟩
    | persisted event publication => exact absurd h Bool.false_ne_true
    | workerTook n => exact absurd h Bool.false_ne_true
    | _ => exact absurd rfl hs

lemma step_backed {ms : List (Clock × Move)} (m : Clock × Move)
    (h : Backed K p ms (run (Pipeline.step K) p ms)) :
    Backed K p (ms ++ [m]) (run (Pipeline.step K) p (ms ++ [m])) ∧
      ∀ v ∈ ((run (Pipeline.step K) p ms).step K m).actor.verdicts, v.2 = .accept →
        Durable K p (ms ++ [m]) v.1 := by
  have hwaiting : ∀ q ∈ (run (Pipeline.step K) p ms).batch ++
      (run (Pipeline.step K) p ms).actor.queue, ∀ key, q.gossipValidation = some key →
        Validated K (ms ++ [m]) key q.record :=
    fun q hq key hkey => (h.waiting q hq key hkey).mono (List.subset_append_left ..)
  have hstored : ∀ q, .stored q ∈ (run (Pipeline.step K) p ms).reports →
      ∀ key, q.gossipValidation = some key → Durable K p (ms ++ [m]) key :=
    fun q hq key hkey => (h.stored q hq key hkey).append
  have hrun : run (Pipeline.step K) p (ms ++ [m]) =
      (run (Pipeline.step K) p ms).step K m := by
    rw [run_append, run_cons, run_nil]
  rw [hrun]
  generalize hr : run (Pipeline.step K) p ms = r at h hwaiting hstored hrun ⊢
  obtain ⟨c, m⟩ := m
  cases m with
  | swarm e hext =>
    obtain ⟨hno, hqueue⟩ := @swarm_backed K r.actor c e hext
    refine ⟨⟨fun q hq key hkey => ?_, hstored⟩, fun v hv hv' => absurd hv' (hno v hv)⟩
    rcases List.mem_append.mp hq with hbatch | hmem
    · exact hwaiting q (List.mem_append_left _ hbatch) key hkey
    · rcases hqueue q hmem with hold | hnew
      · exact hwaiting q (List.mem_append_right _ hold) key hkey
      · exact (hnew key hkey).mono (List.subset_append_right ..)
  | take =>
    unfold Pipeline.step
    dsimp only
    rcases hq : r.actor.queue with _ | ⟨q, rest⟩
    · exact ⟨⟨hwaiting, hstored⟩, by simp [Pipeline.quiet, cleared_verdicts]⟩
    · dsimp only
      split_ifs
      · have hverdicts : (r.actor.step K (c, .workerTook 1)).verdicts = [] := rfl
        refine ⟨⟨fun q' hq' => ?_, hstored⟩, by simp [hverdicts]⟩
        have hqueue : (r.actor.step K (c, .workerTook 1)).queue = rest := by
          change r.actor.queue.drop 1 = rest
          rw [hq]
          rfl
        rw [hqueue, List.append_assoc] at hq'
        exact hwaiting q' (by rwa [hq])
      · exact ⟨⟨hwaiting, hstored⟩, by simp [Pipeline.quiet, cleared_verdicts]⟩
  | insert readings =>
    refine ⟨⟨fun q hq => hwaiting q (List.mem_append_right _ hq), fun q hq key hkey => ?_⟩,
      by simp [Pipeline.step, Pipeline.quiet, cleared_verdicts]⟩
    rcases List.mem_append.mp hq with hold | hnew
    · exact hstored q hold key hkey
    · obtain ⟨hmem, hok, hstore⟩ := work_stored r.bounded hnew
      refine ⟨ms, c, readings, [], q, by simp, ?_, hkey, h.waiting q
        (List.mem_append_left _ hmem) key hkey, ?_, ?_⟩
      · rw [hr]
        exact hmem
      · rw [hr]
        exact hok
      · rw [hrun, hr]
        exact hstore
  | broken error =>
    refine ⟨⟨fun q hq => hwaiting q (List.mem_append_right _ hq), fun q hq key hkey => ?_⟩,
      by simp [Pipeline.step, Pipeline.quiet, cleared_verdicts]⟩
    rcases List.mem_append.mp hq with hold | hnew
    · exact hstored q hold key hkey
    · obtain ⟨q', -, hfailed⟩ := List.mem_map.mp hnew
      cases hfailed
  | report publication =>
    unfold Pipeline.step
    dsimp only
    rcases hreports : r.reports with _ | ⟨event, rest⟩
    · exact ⟨⟨hwaiting, by simp [Pipeline.quiet, hreports]⟩, by simp [Pipeline.quiet, cleared_verdicts]⟩
    · obtain ⟨hverdicts, hqueue⟩ := @verdicts_persisted K r.actor.cleared c event publication
      rw [hreports] at hstored
      refine ⟨⟨fun q hq => hwaiting q ?_, fun q hq => hstored q (List.mem_cons_of_mem _ hq)⟩, ?_⟩
      · dsimp only at hq
        rwa [Actor.step, hqueue] at hq
      · intro v hv haccept
        dsimp only at hv
        rw [Actor.step, hverdicts, cleared_verdicts] at hv
        obtain ⟨q, rfl, hkey⟩ := accepted_stored hv haccept
        exact hstored q List.mem_cons_self v.1 hkey
  | maintain db =>
    exact ⟨⟨hwaiting, hstored⟩, by simp [Pipeline.step, Pipeline.quiet, cleared_verdicts]⟩

lemma run_backed (h₀ : Backed K p [] p) (ms : List (Clock × Move)) :
    Backed K p ms (run (Pipeline.step K) p ms) ∧
      ∀ v ∈ history K p ms, v.2 = .accept → Durable K p ms v.1 := by
  induction ms using List.reverseRecOn with
  | nil => exact ⟨h₀, by simp [history]⟩
  | append_singleton ms m ih =>
    obtain ⟨hback, hverdicts⟩ := step_backed m ih.1
    refine ⟨hback, fun v hv haccept => ?_⟩
    rw [history_append] at hv
    rcases List.mem_append.mp hv with hold | hnew
    · exact (ih.2 v hold haccept).append
    · rw [history, history, List.append_nil] at hnew
      exact hverdicts v hnew haccept

/-- In every run from the start of a node, the verdicts on a message and the requests and reports
still under way for it are together as many as the times it was handed to the actor. Acceptance is
reported only of a message that was validated and whose record a committed batch then added to the
store. -/
theorem verdicts_exactly_once (K : Primitives) (identity : PeerId) (replay : ReplayState)
    (safetyMode : Bool) (reason : Option String) (now : ℕ) (db : SignatureDatabase)
    (ms : List (Clock × Move)) :
    let p := Pipeline.start (.start identity replay safetyMode reason now) db
    (∀ key, ((history K p ms).map Prod.fst).count key +
        (run (Pipeline.step K) p ms).outstanding.count key = (messages ms).count key) ∧
      ∀ v ∈ history K p ms, v.2 = .accept → Durable K p ms v.1 := by
  intro p
  have hnone : p.outstanding = [] := rfl
  have h₀ : Backed K p [] p :=
    ⟨by simp [p, Pipeline.start, Actor.start], by simp [p, Pipeline.start]⟩
  refine ⟨fun key => ?_, (run_backed h₀ ms).2⟩
  have h := List.perm_iff_count.mp (@run_conserves K p ms) key
  rwa [hnone, List.append_nil, List.count_append] at h

end Protonet.GossipVerdicts
