import Protonet.Provenance
import Protonet.SwarmEffects

namespace Protonet.Publication
open StepRun Postcard Record RecordIdentity Database Worker Swarm RecordCreation StoreRows
  GossipVerdicts StoreIntegrity Provenance

def published (outbox : List Effect) : List Bytes :=
  outbox.filterMap fun
    | .publish data => some data
    | _ => none

variable {K : Primitives} {S : Signer K}

def announced (s : Node K S) : Turn S → List Bytes
  | .move c m _ => published (s.pipeline.step K (c, m)).actor.outbox
  | .deliver c =>
    match s.signed with
    | [] => []
    | result :: _ => published (s.pipeline.actor.step K (c, .signedRecord result)).outbox
  | _ => []

def own (requests : List PersistRequest) : List FlaggedFileRecord :=
  requests.filterMap fun q => if q.source = none then some q.record else none

/-- The requests that reports call stored. -/
def storedRequests (reports : List PersistEvent) : List PersistRequest :=
  reports.filterMap fun
    | .stored request => some request
    | _ => none

/-- The records of the node itself that may still be published, from the oldest. -/
def trail (s : Node K S) : List FlaggedFileRecord :=
  own (storedRequests s.pipeline.reports ++ s.pipeline.batch ++ s.pipeline.actor.queue) ++
    s.signed.filterMap Except.toOption

/-- What the writer reports as stored is, and the actor goes by the node's identity. -/
structure Steady (s : Node K S) : Prop where
  identity : s.pipeline.actor.identity = peerId s.keypair
  reported : ∀ r ∈ storedIn s.pipeline.reports, r ∈ s.stored

variable {s : Node K S} {a : Actor} {c : Clock} {r : FlaggedFileRecord}

@[simp] lemma own_append (xs ys : List PersistRequest) : own (xs ++ ys) = own xs ++ own ys :=
  List.filterMap_append

@[simp] lemma storedRequests_append (xs ys : List PersistEvent) :
    storedRequests (xs ++ ys) = storedRequests xs ++ storedRequests ys := List.filterMap_append

lemma own_sublist {xs ys : List PersistRequest} (h : xs.Sublist ys) : (own xs).Sublist (own ys) :=
  h.filterMap _

lemma own_eq_nil {requests : List PersistRequest} (h : ∀ q ∈ requests, q.source ≠ none) :
    own requests = [] :=
  List.filterMap_eq_nil_iff.mpr fun q hq => if_neg (h q hq)

lemma identity_handle (e : Event) : (a.handle K c e).identity = a.identity := by
  suffices h : (a.handle K c e).core.identity = a.core.identity from h
  cases e with
  | command command signerFull => rw [Actor.handle, core_handleCommand]
  | signedRecord result =>
    obtain ⟨queue, h, -⟩ := @core_handleSignedRecord a c result
    rw [Actor.handle, h]
  | persisted event publication =>
    obtain ⟨replay, reason, h⟩ := @core_handlePersisted K a c event publication
    rw [Actor.handle, h]
  | connectionEstablished peer endpoint connection n =>
    obtain ⟨ops, -, h⟩ := @core_connectionEstablished a c peer endpoint connection n
    rw [Actor.handle, h]
    rfl
  | connectionClosed peer connection => rw [Actor.handle, core_connectionClosed]
  | incomingConnectionError connection error =>
    rw [Actor.handle, core_incomingConnectionError]
  | incomingConnection connection sendBackAddr =>
    obtain ⟨attempts, denied, h⟩ := @core_incomingConnection a c connection sendBackAddr
    rw [Actor.handle, h]
  | identified peer protocolVersion =>
    rw [Actor.handle, core_identified]
    split_ifs <;> rfl
  | gossip source messageId data =>
    obtain ⟨asked, ops, replay, rateLimiter, queue, globalRecords, h, -⟩ :=
      @core_validateGossip K a c source messageId data
    rw [Actor.handle, h]
    rfl
  | syncRequest peer request channel =>
    obtain ⟨rateLimiter, h⟩ := @core_prepareSyncResponse a c peer request channel
    rw [Actor.handle, h]
  | syncResponse peer id response =>
    obtain ⟨replay, rateLimiter, h⟩ := @core_handleSyncResponse K a c peer id response
    rw [Actor.handle, h]
    rfl
  | outboundFailure peer id => rw [Actor.handle, core_outboundFailure]
  | inboundFailure peer => rw [Actor.handle, core_violation]
  | dbAction action =>
    obtain ⟨rateLimiter, mode, reason, h⟩ := @core_handleDbAction a c action
    rw [Actor.handle, h]
  | snapshotTick => rw [Actor.handle, core_snapshotTick]
  | syncTick pick => rw [Actor.handle, core_startBestSyncPeer]
  | pinged | cleanupTick | workerTook | other => rfl

/-- Only a report of the writer has something published. -/
lemma published_external {e : Event} (h : isExternal e = true) :
    published (a.step K (c, e)).outbox = [] := by
  refine List.filterMap_eq_nil_iff.mpr fun x hx => ?_
  have hcaused := outbox_caused hx
  cases x with
  | publish data =>
    obtain ⟨request, publication, rfl, -⟩ := hcaused
    cases h
  | _ => rfl

lemma published_publishOwn (r : FlaggedFileRecord) (publication : Option String) :
    published (a.publishOwn K r publication).outbox =
      published a.outbox ++ if r.origin K = .ok a.identity then [r.encode] else [] := by
  unfold Actor.publishOwn
  split_ifs
  · cases publication <;>
      simp [published, Actor.emit, Actor.notify, Actor.violation]
  · exact (List.append_nil _).symm

lemma published_accept (r : FlaggedFileRecord) (now : ℕ) (v : Option MessageKey) :
    published ((a.acceptReplay K r now).reportValidation v .accept).outbox = published a.outbox ∧
      ((a.acceptReplay K r now).reportValidation v .accept).identity = a.identity := by
  have hreplay : (a.acceptReplay K r now).outbox = a.outbox ∧
      (a.acceptReplay K r now).identity = a.identity := by
    unfold Actor.acceptReplay
    split <;> exact ⟨rfl, rfl⟩
  cases v with
  | none => exact ⟨congrArg published hreplay.1, hreplay.2⟩
  | some v =>
    refine ⟨?_, hreplay.2⟩
    simp [Actor.reportValidation, Actor.reportGossip, Actor.emit, published, hreplay.1]

/-- A report has the record of its request published or nothing at all. -/
lemma published_persisted (event : PersistEvent) (publication : Option String) :
    ∃ ms : List FlaggedFileRecord,
      published (a.step K (c, .persisted event publication)).outbox =
        ms.map FlaggedFileRecord.encode ∧
      ms.Sublist (own (storedRequests [event])) ∧ ∀ r ∈ ms, r.origin K = .ok a.identity := by
  have hquiet (h : ∀ request, event = .stored request → request.source ≠ none) :
      published (a.step K (c, .persisted event publication)).outbox = [] := by
    refine List.filterMap_eq_nil_iff.mpr fun x hx => ?_
    have hcaused := outbox_caused hx
    cases x with
    | publish data =>
      obtain ⟨request, publication', heq, hsource, -⟩ := hcaused
      exact absurd hsource (h request (Event.persisted.inj heq).1)
    | _ => rfl
  by_cases hown : ∃ request, event = .stored request ∧ request.source = none
  · obtain ⟨request, rfl, hsource⟩ := hown
    obtain ⟨hempty, hidentity⟩ := @published_accept K a.cleared request.record (c.instant 0)
      request.gossipValidation
    have hpublished : published (a.step K (c, .persisted (.stored request) publication)).outbox =
        if request.record.origin K = .ok a.identity then [request.record.encode] else [] := by
      unfold Actor.step Actor.handle Actor.handlePersisted
      dsimp only
      rw [hsource]
      dsimp only
      rw [published_publishOwn, hempty, hidentity]
      rfl
    have hone : own (storedRequests [.stored request]) = [request.record] := by
      simp [own, storedRequests, hsource]
    rw [hpublished, hone]
    split_ifs with horigin
    · refine ⟨[request.record], rfl, List.Sublist.refl _, fun r hr => ?_⟩
      rw [List.mem_singleton.mp hr, horigin]
    · exact ⟨[], rfl, List.nil_sublist _, nofun⟩
  · exact ⟨[], hquiet fun request heq hsource => hown ⟨request, heq, hsource⟩,
      List.nil_sublist _, nofun⟩

lemma storedRequests_work {db : SignatureDatabase} {readings : Database.StorageReadings}
    {batch : List PersistRequest} :
    (storedRequests (work K db readings batch).1).Sublist batch := by
  unfold work
  rcases hi : db.insertBatch readings (batch.map PersistRequest.record) with e | ⟨results, db'⟩
  · have hnone : storedRequests (batch.map fun request : PersistRequest =>
        .failed request.record.recordId (persistError e) request.gossipValidation) = [] := by
      simp [storedRequests, List.filterMap_map]
    dsimp only
    rw [hnone]
    exact List.nil_sublist _
  · dsimp only
    clear hi
    induction batch generalizing results with
    | nil => exact List.nil_sublist _
    | cons q batch ih =>
      cases results with
      | nil => exact List.nil_sublist _
      | cons inserted results =>
        cases inserted with
        | true => exact (ih results).cons_cons q
        | false => exact (ih results).cons q

lemma storedIn_eq (reports : List PersistEvent) :
    storedIn reports = (storedRequests reports).map PersistRequest.record := by
  unfold storedIn storedRequests
  rw [List.map_filterMap]
  congr 1
  funext event
  cases event <;> rfl

lemma own_subset (requests : List PersistRequest) :
    own requests ⊆ requests.map PersistRequest.record := by
  intro r hr
  obtain ⟨q, hq, hsome⟩ := List.mem_filterMap.mp hr
  split_ifs at hsome
  exact List.mem_map.mpr ⟨q, hq, Option.some.inj hsome⟩

/-- What a turn publishes and what it leaves on the way was on the way before or has just been
made, in this order. -/
structure Passes (s : Node K S) (turn : Turn S) : Prop where
  order : ∃ ms : List FlaggedFileRecord,
    announced s turn = ms.map FlaggedFileRecord.encode ∧
      (ms ++ trail (s.step turn)).Sublist (trail s ++ (made s turn).toList) ∧
      ∀ r ∈ ms, r ∈ s.stored ∧ r.origin K = .ok (peerId s.keypair)
  steady : Steady (s.step turn)

section Step
variable {t : Node K S} {turn : Turn S}

lemma passes_quiet (hstep : s.step turn = t) (hnone : announced s turn = []) (hsteady : Steady t)
    (h : (trail t).Sublist (trail s ++ (made s turn).toList)) : Passes s turn := by
  subst hstep
  exact ⟨⟨[], hnone, h, nofun⟩, hsteady⟩

lemma passes_same (hstep : s.step turn = t) (hnone : announced s turn = []) (hsteady : Steady t)
    (h : (trail t).Sublist (trail s)) : Passes s turn :=
  passes_quiet hstep hnone hsteady (h.trans (List.sublist_append_left _ _))

lemma passes_still (hstep : s.step turn = t) (hnone : announced s turn = []) (hsteady : Steady t)
    (h : trail t = trail s) : Passes s turn :=
  passes_same hstep hnone hsteady (by rw [h])

lemma announced_move {m : GossipVerdicts.Move} {hdirect : isDirect m = true} :
    announced s (.move c m hdirect) =
      published (s.step (.move c m hdirect)).pipeline.actor.outbox := rfl

/-- An event of the loop brings requests of other nodes only. -/
lemma passes_event (h : Steady s) {e : Event} {hexternal : isExternal e = true}
    (hdirect : isDirect (.swarm e hexternal) = true) :
    Passes s (.move c (.swarm e hexternal) hdirect) := by
  obtain ⟨new, hnew, hwanted⟩ := @queue_grows K s.pipeline.actor c e hexternal
  have hforeign : own new = [] := by
    refine own_eq_nil fun q hq => ?_
    obtain ⟨-, ⟨-, hsource⟩ | ⟨rfl, -⟩⟩ := hwanted q hq
    · exact hsource
    · cases hdirect
  refine passes_still rfl (published_external hexternal)
    ⟨(identity_handle e).trans h.identity,
      fun r hr => List.mem_append_left _ (h.reported r hr)⟩ ?_
  change own (storedRequests s.pipeline.reports ++ s.pipeline.batch ++
    (s.pipeline.actor.step K (c, e)).queue) ++ s.signed.filterMap Except.toOption = trail s
  rw [hnew, ← List.append_assoc, own_append _ new, hforeign, List.append_nil]
  rfl

lemma passes_insert (h : Steady s) (readings : Database.StorageReadings)
    (hdirect : isDirect (.insert readings) = true) :
    Passes s (.move c (.insert readings) hdirect) := by
  refine passes_same rfl rfl ⟨h.identity, fun r hr => ?_⟩ (List.Sublist.append ?_ (.refl _))
  · change r ∈ storedIn (s.pipeline.reports ++ (work K s.pipeline.db readings
      s.pipeline.batch).1) at hr
    rw [storedIn, List.filterMap_append] at hr
    exact List.mem_append.mpr ((List.mem_append.mp hr).imp (h.reported r) id)
  · change (own (storedRequests (s.pipeline.reports ++ (work K s.pipeline.db readings
      s.pipeline.batch).1) ++ [] ++ s.pipeline.actor.queue)).Sublist _
    rw [storedRequests_append, List.append_nil]
    exact own_sublist ((storedRequests_work.append_left _).append_right _)

lemma passes_broken (h : Steady s) (error : PersistError)
    (hdirect : isDirect (.broken error) = true) :
    Passes s (.move c (.broken error) hdirect) := by
  have hnone : storedRequests (s.pipeline.batch.map (failedReport error)) = [] := by
    simp [storedRequests, failedReport, List.filterMap_map]
  refine passes_same rfl rfl ⟨h.identity, fun r hr => ?_⟩ (List.Sublist.append ?_ (.refl _))
  · change r ∈ storedIn (s.pipeline.reports ++ s.pipeline.batch.map (failedReport error)) at hr
    rw [storedIn_eq, storedRequests_append, hnone, List.append_nil, ← storedIn_eq] at hr
    exact List.mem_append_left _ (h.reported r hr)
  · change (own (storedRequests (s.pipeline.reports ++
      s.pipeline.batch.map (failedReport error)) ++ [] ++ s.pipeline.actor.queue)).Sublist _
    rw [storedRequests_append, hnone, List.append_nil, List.append_nil]
    exact own_sublist ((List.sublist_append_left _ _).append_right _)

lemma passes_report (h : Steady s) {publication : Option String}
    {hdirect : isDirect (.report publication) = true} {event : PersistEvent}
    {rest : List PersistEvent} (hreports : s.pipeline.reports = event :: rest)
    (hstep : s.step (.move c (.report publication) hdirect) = { s with
      pipeline := { s.pipeline with
        actor := s.pipeline.actor.step K (c, .persisted event publication)
        reports := rest } }) :
    Passes s (.move c (.report publication) hdirect) := by
  have hqueue : (s.pipeline.actor.step K (c, .persisted event publication)).queue =
      s.pipeline.actor.queue :=
    (@verdicts_persisted K s.pipeline.actor.cleared c event publication).2
  have hreported : ∀ r ∈ storedIn (event :: rest), r ∈ s.stored := hreports ▸ h.reported
  have hsplit : storedRequests (event :: rest) = storedRequests [event] ++ storedRequests rest :=
    storedRequests_append [event] rest
  obtain ⟨ms, hms, hone, horigin⟩ :=
    @published_persisted K s.pipeline.actor c event publication
  refine ⟨⟨ms, ?_, ?_, fun r hr => ⟨?_, ?_⟩⟩, ?_⟩
  · rw [announced_move, hstep, hms]
  · refine List.Sublist.trans ?_ (List.sublist_append_left _ _)
    rw [hstep]
    unfold trail
    dsimp only
    rw [hreports, hsplit, ← List.append_assoc, hqueue, List.append_assoc (storedRequests [event]),
      List.append_assoc (storedRequests [event]), own_append (storedRequests [event])]
    exact (hone.append_right _).append_right _
  · refine hreported r ?_
    rw [storedIn_eq, hsplit, List.map_append]
    exact List.mem_append_left _ (own_subset _ (hone.subset hr))
  · rw [horigin r hr, h.identity]
  · rw [hstep]
    refine ⟨(identity_handle _).trans h.identity, fun r hr => hreported r ?_⟩
    rw [storedIn_eq, hsplit, List.map_append, ← storedIn_eq rest]
    exact List.mem_append_right _ hr

lemma trail_push (result : Except String FlaggedFileRecord) :
    trail { s with signed := s.signed ++ [result] } = trail s ++ result.toOption.toList := by
  unfold trail
  dsimp only
  rw [List.filterMap_append, ← List.append_assoc]
  cases result <;> rfl

lemma passes_deliver (h : Steady s) {result : Except String FlaggedFileRecord}
    {signed : List (Except String FlaggedFileRecord)} (hsigned : s.signed = result :: signed)
    (hstep : s.step (.deliver c) = { s with
      pipeline := { s.pipeline with
        actor := s.pipeline.actor.step K (c, .signedRecord result) }
      signed }) :
    Passes s (.deliver c) := by
  have hnone : announced s (.deliver c) = [] := by
    unfold announced
    rw [hsigned]
    exact published_external rfl
  obtain ⟨queue, hcore, hcases⟩ := @core_handleSignedRecord s.pipeline.actor.cleared c result
  have hqueue : (s.pipeline.actor.step K (c, .signedRecord result)).queue = queue :=
    congrArg Core.queue hcore
  refine passes_same hstep hnone ⟨(identity_handle _).trans h.identity, h.reported⟩ ?_
  unfold trail
  dsimp only
  rw [hqueue, hsigned]
  rcases hcases with rfl | ⟨record, now, rfl, rfl⟩
  · exact (List.Sublist.refl _).append ((List.sublist_cons_self result signed).filterMap _)
  · rw [← List.append_assoc, own_append _ [_], List.append_assoc]
    exact List.Sublist.refl _

lemma Steady.withDb (h : Steady s) (db : SignatureDatabase) : Steady (s.withDb db) :=
  ⟨h.identity, h.reported⟩

lemma passes_step (h : Steady s) (turn : Turn S) : Passes s turn := by
  have ht := takes_step s turn
  generalize hstep : s.step turn = t at ht
  cases ht with
  | event => exact passes_event h _
  | take hqueue hroom =>
    refine passes_still hstep (by rw [announced_move, hstep]; rfl) ⟨h.identity, h.reported⟩ ?_
    unfold trail
    dsimp only
    rw [hqueue, List.append_assoc, List.append_assoc, List.singleton_append, List.append_assoc]
  | insert => exact passes_insert h _ _
  | broken => exact passes_broken h _ _
  | report hreports => exact passes_report h hreports hstep
  | noTake | noReport =>
    exact passes_still hstep (by rw [announced_move, hstep]; rfl) ⟨h.identity, h.reported⟩ rfl
  | sign hdb hmade =>
    refine passes_quiet hstep rfl ⟨h.identity, h.reported⟩ ?_
    rw [hmade, ← trail_push]
    exact List.Sublist.refl _
  | deliver hsigned => exact passes_deliver h hsigned hstep
  | noDeliver hsigned =>
    refine passes_still hstep ?_ h rfl
    unfold announced
    rw [hsigned]
  | reset =>
    exact passes_same hstep rfl ⟨rfl, h.reported⟩
      ((List.Sublist.refl _).append (List.nil_sublist _))
  | restart => exact passes_same hstep rfl ⟨rfl, nofun⟩ (List.nil_sublist _)
  | writeLeft =>
    exact passes_still hstep rfl
      ⟨h.identity, fun r hr => List.mem_append_left _ (h.reported r hr)⟩ rfl
  | signLate | remove | expire => exact passes_still hstep rfl (h.withDb _) rfl
  | noSignLate | noRemove | noWriteLeft => exact passes_still hstep rfl h rfl

end Step

/-- Along any run, what is published comes from what was on the way or was made meanwhile. -/
lemma passes_run (h : Steady s) (turns : List (Turn S)) :
    ∃ ms : List FlaggedFileRecord,
      collected Node.step announced s turns = ms.map FlaggedFileRecord.encode ∧
        (ms ++ trail (run Node.step s turns)).Sublist
          (trail s ++ collected Node.step (fun s turn => (made s turn).toList) s turns) := by
  induction turns generalizing s with
  | nil => exact ⟨[], rfl, by simp [collected]⟩
  | cons turn turns ih =>
    obtain ⟨⟨ms, hms, hway, -⟩, hsteady⟩ := passes_step h turn
    obtain ⟨rest, hrest, hways⟩ := ih hsteady
    refine ⟨ms ++ rest, ?_, ?_⟩
    · rw [collected, hms, hrest, List.map_append]
    · have hfirst := hways.append_left ms
      have hsecond := hway.append_right
        (collected Node.step (fun s turn => (made s turn).toList) (s.step turn) turns)
      rw [← List.append_assoc, ← List.append_assoc] at hfirst
      rw [List.append_assoc (trail s)] at hsecond
      exact hfirst.trans hsecond

lemma steady_start (inMemory : Bool) (keypair : S.Keypair) (boot : Boot) :
    Steady (Node.start inMemory keypair boot : Node K S) := ⟨rfl, nofun⟩

lemma genuine_step (hS : S.Lawful) (h : Carries (Genuine K) s) (turn : Turn S) :
    Carries (Genuine K) (s.step turn) :=
  carries_step h turn (fun _ _ hgenuine => hgenuine) fun _ hr => (made_eq hS hr).2.1

/-- In any run from a new node, whatever happens to it: the published payloads are the encodings
of records the node has made, each at most once and in the order in which they were made. All of
them had been stored, and each is published under the identity that its origin names. -/
theorem published_in_order (hS : S.Lawful) (inMemory : Bool) (keypair : S.Keypair) (boot : Boot)
    (turns : List (Turn S)) :
    let start : Node K S := .start inMemory keypair boot
    (∃ ms : List FlaggedFileRecord,
      ms.Sublist (collected Node.step (fun s turn => (made s turn).toList) start turns) ∧
        collected Node.step announced start turns = ms.map FlaggedFileRecord.encode) ∧
      Along Node.step (fun s turn => ∀ data ∈ announced s turn, ∃ m ∈ s.stored, data = m.encode ∧
        m.origin K = .ok (peerId s.keypair) ∧ Genuine K m) start turns := by
  intro start
  have hsteady : Steady start := steady_start inMemory keypair boot
  have hgenuine : Carries (Genuine K) start := ⟨nofun, nofun, nofun, nofun⟩
  constructor
  · obtain ⟨ms, hms, hway⟩ := passes_run hsteady turns
    exact ⟨ms, (List.sublist_append_left _ _).trans hway, hms⟩
  · refine along_of_invariant (C := fun _ _ => True)
      (I := fun s => Steady s ∧ Carries (Genuine K) s) ⟨hsteady, hgenuine⟩ ?_
      (fun s turn h _ => ⟨(passes_step h.1 turn).steady, genuine_step hS h.2 turn⟩)
      fun s turn h _ data hdata => ?_
    · exact along_iff.mpr fun _ _ _ _ => trivial
    · obtain ⟨⟨ms, hms, -, hstored⟩, -⟩ := passes_step h.1 turn
      rw [hms] at hdata
      obtain ⟨m, hm, rfl⟩ := List.mem_map.mp hdata
      obtain ⟨hin, horigin⟩ := hstored m hm
      exact ⟨m, hin, rfl, horigin, h.2.stored m hin⟩

/-- The node makes two records; the second one's report is not handled. -/
def sampleLife : List (Turn sampleSigner) :=
  [.sign 0 Queries.zeroId Queries.zeroId 1 none, .sign 0 Queries.zeroId Queries.zeroId 2 none,
    .deliver (.still 0 0), .deliver (.still 0 0), .move (.still 0 0) .take isDirect_take,
    .move (.still 0 0) .take isDirect_take,
    .move (.still 0 0) (.insert DatabaseBatch.sampleReadings) (isDirect_insert _),
    .move (.still 0 0) (.report none) (isDirect_report _)]

theorem published_in_order_sample :
    let start : Node samplePrimitives sampleSigner := .start false (1 : UInt8) sampleBoot
    (collected Node.step (fun s turn => (made s turn).toList) start sampleLife).length = 2 ∧
      (collected Node.step announced start sampleLife).length = 1 ∧
      ∃ ms : List FlaggedFileRecord,
        ms.Sublist (collected Node.step (fun s turn => (made s turn).toList) start sampleLife) ∧
          collected Node.step announced start sampleLife = ms.map FlaggedFileRecord.encode :=
  ⟨by decide +kernel, by decide +kernel,
    (published_in_order sampleSigner_lawful false (1 : UInt8) sampleBoot sampleLife).1⟩

end Protonet.Publication
