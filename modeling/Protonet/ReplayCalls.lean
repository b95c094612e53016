import Protonet.Provenance
import Protonet.ReplayGuard

namespace Protonet.ReplayCalls
open StepRun Postcard Record Replay ReplayFloor ReplayGuard Sync Worker Swarm GossipVerdicts
  Provenance

/-- What a report of the writer has the replay state accept. -/
def learned (K : Primitives) : PersistEvent → Option (RecordId × PeerId × UInt64)
  | .stored request => (request.record.origin K).toOption.map fun origin =>
    (request.record.recordId, origin, request.record.sequence)
  | .duplicate recordId origin sequence _ => origin.map fun origin => (recordId, origin, sequence)
  | .failed .. => none

/-- The calls an event may lead to: checks and marks for records it brings, and what a report of
the writer says. -/
def Permits (K : Primitives) (e : Event) : ReplayOp → Prop
  | .check id _ _ _ => ∃ r ∈ brought e, r.recordId = id
  | .markPending id _ => ∃ r ∈ brought e, r.recordId = id
  | .accept id origin sequence _ => ∃ report publication,
    e = .persisted report publication ∧ learned K report = some (id, origin, sequence)
  | .forget _ => ∃ report publication, e = .persisted report publication ∧ learned K report = none

/-- The id of a record from the network was not in the filter. -/
def Unknown (a : Actor) (q : PersistRequest) : Prop :=
  q.source ≠ none → a.replay.activeRecords.contains q.record.recordId = false

/-- The second actor has come from the first by permitted calls, and its queue has got longer by
requests for unknown records. -/
structure Follows (P : ReplayOp → Prop) (a b : Actor) : Prop where
  calls : ∃ ops, b.replay = run apply a.replay ops ∧ ∀ op ∈ ops, P op
  queue : ∃ new, b.queue = a.queue ++ new ∧ ∀ q ∈ new, Unknown a q

/-- Calls that leave the filter alone. -/
def Reads (ids : RecordId → Prop) : ReplayOp → Prop
  | .check id _ _ _ => ids id
  | .markPending id _ => ids id
  | _ => False

variable {K : Primitives} {a b d : Actor} {c : Clock} {e : Event} {P Q : ReplayOp → Prop}
  {ids : RecordId → Prop} {peer : PeerId}

lemma follows_still (hreplay : b.replay = a.replay) (hqueue : b.queue = a.queue) :
    Follows P a b :=
  ⟨⟨[], hreplay, nofun⟩, ⟨[], by rw [hqueue, List.append_nil], nofun⟩⟩

lemma follows_core (h : b.core = a.core) : Follows P a b :=
  follows_still (congrArg Core.replay h) (congrArg Core.queue h)

lemma follows_call (op : ReplayOp) (hop : P op) (hreplay : b.replay = apply a.replay op)
    (hqueue : b.queue = a.queue) : Follows P a b :=
  ⟨⟨[op], hreplay, fun _ h => List.mem_singleton.mp h ▸ hop⟩,
    ⟨[], by rw [hqueue, List.append_nil], nofun⟩⟩

lemma Follows.mono (h : Follows P a b) (hPQ : ∀ op, P op → Q op) : Follows Q a b := by
  obtain ⟨⟨ops, hreplay, hops⟩, hqueue⟩ := h
  exact ⟨⟨ops, hreplay, fun op hop => hPQ op (hops op hop)⟩, hqueue⟩

lemma reads_filter {s : ReplayState} {ops : List ReplayOp} (h : ∀ op ∈ ops, Reads ids op) :
    (run apply s ops).activeRecords = s.activeRecords := by
  induction ops generalizing s with
  | nil => rfl
  | cons op ops ih =>
    have hop : (apply s op).activeRecords = s.activeRecords := by
      have hread := h op List.mem_cons_self
      cases op with
      | check id o q now => exact (check_frame s id o q now).2.1
      | markPending => rfl
      | accept => exact hread.elim
      | forget => exact hread.elim
    exact (ih fun op hmem => h op (List.mem_cons_of_mem _ hmem)).trans hop

lemma Follows.trans (h : Follows (Reads ids) a b) (g : Follows (Reads ids) b d) :
    Follows (Reads ids) a d := by
  obtain ⟨⟨ops, hreplay, hops⟩, new, hqueue, hnew⟩ := h
  obtain ⟨⟨ops', hreplay', hops'⟩, new', hqueue', hnew'⟩ := g
  have hfilter : b.replay.activeRecords = a.replay.activeRecords := by
    rw [hreplay, reads_filter hops]
  refine ⟨⟨ops ++ ops', ?_, fun op hop => ?_⟩, new ++ new', ?_, fun q hq => ?_⟩
  · rw [hreplay', hreplay, run_append]
  · exact (List.mem_append.mp hop).elim (hops op) (hops' op)
  · rw [hqueue', hqueue, List.append_assoc]
  · rcases List.mem_append.mp hq with hq | hq
    · exact hnew q hq
    · unfold Unknown
      rw [← hfilter]
      exact hnew' q hq

lemma follows_allowIngestionSource (now : ℕ) :
    Follows P a (a.allowIngestionSource peer now).2 := by
  obtain ⟨rateLimiter, hcore⟩ := @core_allowIngestionSource a peer now
  exact follows_still (congrArg Core.replay hcore) (congrArg Core.queue hcore)

/-- A request is marked pending once it has its place in the queue. -/
lemma follows_tryEnqueue {request : PersistRequest} {now : ℕ} (hid : ids request.record.recordId)
    (hunknown : a.replay.activeRecords.contains request.record.recordId = false) :
    ((a.tryEnqueue request).1 = true → Follows (Reads ids) a
        { (a.tryEnqueue request).2 with
          replay := (a.tryEnqueue request).2.replay.markPending request.record.recordId now }) ∧
      ((a.tryEnqueue request).1 = false → Follows (Reads ids) a (a.tryEnqueue request).2) := by
  unfold Actor.tryEnqueue
  split_ifs
  · refine ⟨fun _ => ⟨⟨[.markPending request.record.recordId now], rfl, ?_⟩,
      [request], rfl, ?_⟩, nofun⟩
    · exact fun _ h => List.mem_singleton.mp h ▸ hid
    · intro q hq _
      rw [List.mem_singleton.mp hq]
      exact hunknown
  · exact ⟨nofun, fun _ => follows_still rfl rfl⟩

lemma follows_acceptSyncRecord {record : FlaggedFileRecord} {now blockedAt : ℕ} {unixMs : Int64}
    (hid : ids record.recordId) :
    Follows (Reads ids) a (a.acceptSyncRecord K peer record now blockedAt unixMs).2 := by
  unfold Actor.acceptSyncRecord
  rcases RecordValidator.default.validate K record unixMs with error | ⟨⟩
  · exact follows_core (core_violation ..)
  · rcases record.origin K with error | origin
    · exact follows_still rfl rfl
    · have hnew := @check_new_iff a.replay record.recordId origin record.sequence now
      have hchecked : Follows (Reads ids) a
          { a with replay := (a.replay.check record.recordId origin record.sequence now).2 } :=
        follows_call (.check record.recordId origin record.sequence now) hid rfl rfl
      have hfilter := (check_frame a.replay record.recordId origin record.sequence now).2.1
      dsimp only
      rcases hc : a.replay.check record.recordId origin record.sequence now with
        ⟨_ | _ | _, replay⟩
      all_goals rw [hc] at hchecked hfilter hnew
      · have hunknown : a.replay.activeRecords.contains record.recordId = false :=
          (hnew.mp rfl).2.1
        have hallowed : Follows (Reads ids) { a with replay }
            (Actor.allowIngestionSource { a with replay } peer now).2 :=
          follows_allowIngestionSource now
        have hreplay : (Actor.allowIngestionSource { a with replay } peer now).2.replay = replay := by
          obtain ⟨rateLimiter, hcore⟩ := @core_allowIngestionSource { a with replay } peer now
          exact congrArg Core.replay hcore
        dsimp only
        rcases hallow : Actor.allowIngestionSource { a with replay } peer now with ⟨_ | _, b⟩
        all_goals rw [hallow] at hallowed hreplay
        · exact (hchecked.trans hallowed).trans (follows_still rfl rfl)
        · dsimp only at hallowed hreplay ⊢
          have henqueued := @follows_tryEnqueue b ids ⟨record, some peer, now, none⟩ now hid
            (by rw [hreplay, hfilter]; exact hunknown)
          rcases hq : b.tryEnqueue ⟨record, some peer, now, none⟩ with ⟨_ | _, d⟩
          all_goals rw [hq] at henqueued
          · exact (hchecked.trans hallowed).trans (henqueued.2 rfl)
          · exact (hchecked.trans hallowed).trans (henqueued.1 rfl)
      · exact hchecked
      · exact hchecked

lemma follows_acceptSyncLoop {records : List FlaggedFileRecord} {i : ℕ}
    (hids : ∀ r ∈ records, ids r.recordId) :
    Follows (Reads ids) a (a.acceptSyncLoop K peer c i records) := by
  induction records generalizing a i with
  | nil => exact follows_still rfl rfl
  | cons record records ih =>
    have hone := @follows_acceptSyncRecord K a ids peer record (c.instant (2 * i + 1))
      (c.instant (2 * i + 2)) (c.unixMs i) (hids record List.mem_cons_self)
    rw [Actor.acceptSyncLoop]
    rcases hr : a.acceptSyncRecord K peer record (c.instant (2 * i + 1)) (c.instant (2 * i + 2))
      (c.unixMs i) with ⟨_ | _, b⟩
    all_goals
      rw [hr] at hone
      dsimp only at hone ⊢
    · exact hone
    · exact hone.trans (ih fun r hr => hids r (List.mem_cons_of_mem _ hr))

lemma follows_handleSyncResponse {id : RequestId} {response : SyncResponse}
    (hids : ∀ r ∈ brought (.syncResponse peer id response), ids r.recordId) :
    Follows (Reads ids) a (a.handleSyncResponse K peer id response c) := by
  have hsettle (p : PeerId) {b : Actor} (hb : b.core = a.core) :
      Follows (Reads ids) a ((b.updateSession p (.settle id)).pumpSync p) :=
    follows_core (by rw [core_pumpSync, core_updateSession, hb])
  unfold Actor.handleSyncResponse
  rcases a.pendingSync.lookup id with _ | pending
  · exact follows_still rfl rfl
  · dsimp only
    rcases response.validateBounds with error | ⟨⟩
    · refine follows_still ?_ ?_
      · exact (congrArg Core.replay (core_updateSession ..) : _)
      · exact (congrArg Core.queue (core_updateSession ..) : _)
    · dsimp only
      split
      · exact follows_core (core_emit ⟨rfl, rfl⟩)
      · exact follows_core (core_emit ⟨rfl, rfl⟩)
      · next p records =>
        have hpumped : ∀ b : Actor, Follows (Reads ids) b (b.pumpSync p) :=
          fun b => follows_core (core_pumpSync p)
        refine Follows.trans (Follows.trans (b := Actor.updateSession
          { a with pendingSync := a.pendingSync.erase id } p (.settle id))
          (follows_core (core_updateSession ..)) ?_) (hpumped _)
        unfold Actor.acceptSyncRecords
        split_ifs
        · exact follows_still rfl rfl
        · exact follows_acceptSyncLoop fun r hr => hids r (List.mem_of_mem_take hr)
      · exact hsettle peer (core_violation ..)

lemma follows_ingestGossip {source : PeerId} {messageId : RecordId} {record : FlaggedFileRecord}
    (hid : ids record.recordId)
    (hunknown : a.replay.activeRecords.contains record.recordId = false) :
    Follows (Reads ids) a (a.ingestGossip source messageId record c) := by
  have hallowed : Follows (Reads ids) a (a.allowIngestionSource source (c.instant 0)).2 :=
    follows_allowIngestionSource _
  obtain ⟨rateLimiter, hcore⟩ := @core_allowIngestionSource a source (c.instant 0)
  unfold Actor.ingestGossip
  rcases hallow : a.allowIngestionSource source (c.instant 0) with ⟨_ | _, b⟩
  all_goals
    rw [hallow] at hallowed hcore
    dsimp only at hallowed hcore ⊢
  · exact hallowed.trans (follows_still rfl rfl)
  · have hreplay : b.replay = a.replay := congrArg Core.replay hcore
    have henqueued := @follows_tryEnqueue b ids ⟨record, some source, c.instant 2,
      some (messageId, source)⟩ (c.instant 0) hid (hreplay ▸ hunknown)
    rcases hq : b.tryEnqueue ⟨record, some source, c.instant 2, some (messageId, source)⟩ with
      ⟨_ | _, d⟩
    all_goals rw [hq] at henqueued
    · exact (hallowed.trans (henqueued.2 rfl)).trans (follows_still rfl rfl)
    · exact hallowed.trans (henqueued.1 rfl)

lemma follows_validateGossip {source : PeerId} {messageId : RecordId} {data : Bytes}
    (hids : ∀ r ∈ brought (.gossip source messageId data), ids r.recordId) :
    Follows (Reads ids) a (a.validateGossip K source messageId data c) := by
  obtain ⟨asked, rateLimiter, globalRecords, hcore, -⟩ :=
    @core_gossipRefused a c source data.length
  have hrefused : Follows (Reads ids) a (a.gossipRefused source data.length c).2 :=
    follows_still (congrArg Core.replay hcore) (congrArg Core.queue hcore)
  unfold Actor.validateGossip
  rcases hr : a.gossipRefused source data.length c with ⟨_ | _, b⟩
  all_goals
    rw [hr] at hrefused
    dsimp only at hrefused ⊢
  · rcases hv : RecordValidator.default.validateBytes K data (c.unixMs 0) with error | record
    · obtain ⟨ops, rl, h, -⟩ := @core_rejectInvalid b c source messageId error
      exact hrefused.trans (follows_still (congrArg Core.replay h) (congrArg Core.queue h))
    · have hid : ids record.recordId := by
        refine hids record ?_
        change record ∈ (FlaggedFileRecord.decode data).toOption.toList
        rw [(validateBytes_ok_iff.mp hv).1]
        exact List.mem_singleton_self _
      dsimp only
      rcases record.origin K with error | origin
      · exact hrefused.trans (follows_still rfl rfl)
      · have hnew := @check_new_iff b.replay record.recordId origin record.sequence (c.instant 0)
        have hchecked : Follows (Reads ids) b { b with
            replay := (b.replay.check record.recordId origin record.sequence (c.instant 0)).2 } :=
          follows_call (.check record.recordId origin record.sequence (c.instant 0)) hid rfl rfl
        have hfilter :=
          (check_frame b.replay record.recordId origin record.sequence (c.instant 0)).2.1
        dsimp only
        rcases hc : b.replay.check record.recordId origin record.sequence (c.instant 0) with
          ⟨_ | _ | _, replay⟩
        all_goals rw [hc] at hchecked hfilter hnew
        · refine (hrefused.trans hchecked).trans (follows_ingestGossip hid ?_)
          change replay.activeRecords.contains record.recordId = false
          rw [show replay.activeRecords = b.replay.activeRecords from hfilter]
          exact (hnew.mp rfl).2.1
        · exact (hrefused.trans hchecked).trans (follows_still rfl rfl)
        · exact (hrefused.trans hchecked).trans (follows_still rfl rfl)
  · exact hrefused.trans (follows_still rfl rfl)

/-- What a report of the writer says goes into the replay state, and its id into the filter. -/
lemma replay_handlePersisted (report : PersistEvent) (publication : Option String) :
    (∃ ops, (a.handlePersisted K report publication c).replay = run apply a.replay ops ∧
      ∀ op ∈ ops, Permits K (.persisted report publication) op) ∧
    ∀ learnt ∈ learned K report,
      (a.handlePersisted K report publication c).replay.activeRecords.contains learnt.1 = true := by
  have haccept {id : RecordId} {origin : PeerId} {sequence : UInt64} {replay : ReplayState}
      (hreplay : replay = a.replay.accept id origin sequence (c.instant 0))
      (hlearnt : learned K report = some (id, origin, sequence)) :
      (∃ ops, replay = run apply a.replay ops ∧
        ∀ op ∈ ops, Permits K (.persisted report publication) op) ∧
      ∀ learnt ∈ learned K report, replay.activeRecords.contains learnt.1 = true := by
    refine ⟨⟨[.accept id origin sequence (c.instant 0)], hreplay, fun op hop => ?_⟩, fun l hl => ?_⟩
    · rw [List.mem_singleton.mp hop]
      exact ⟨report, publication, rfl, hlearnt⟩
    · rw [hlearnt, Option.mem_some_iff] at hl
      rw [← hl, hreplay]
      exact ActiveRecordFilter.contains_insert (.inl rfl)
  have hnothing {replay : ReplayState} (hlearnt : learned K report = none)
      (hreplay : replay = a.replay ∨ ∃ id, replay = a.replay.forget id) :
      (∃ ops, replay = run apply a.replay ops ∧
        ∀ op ∈ ops, Permits K (.persisted report publication) op) ∧
      ∀ learnt ∈ learned K report, replay.activeRecords.contains learnt.1 = true := by
    refine ⟨?_, fun l hl => by rw [hlearnt] at hl; cases hl⟩
    rcases hreplay with rfl | ⟨id, rfl⟩
    · exact ⟨[], rfl, nofun⟩
    · refine ⟨[.forget id], rfl, fun op hop => ?_⟩
      rw [List.mem_singleton.mp hop]
      exact ⟨report, publication, rfl, hlearnt⟩
  cases report with
  | stored request =>
    have hkept : (a.handlePersisted K (.stored request) publication c).replay =
        (a.acceptReplay K request.record (c.instant 0)).replay := by
      unfold Actor.handlePersisted
      dsimp only
      split
      · exact (congrArg Core.replay (core_noteReceived ..)).trans
          (congrArg Core.replay (core_reportValidation ..))
      · exact (congrArg Core.replay (core_publishOwn ..)).trans
          (congrArg Core.replay (core_reportValidation ..))
    rw [hkept]
    unfold Actor.acceptReplay
    rcases horigin : request.record.origin K with error | origin
    · exact hnothing (by simp [learned, horigin, Except.toOption]) (.inl rfl)
    · exact haccept rfl (by simp [learned, horigin, Except.toOption])
  | duplicate recordId origin sequence v =>
    cases origin with
    | none =>
      have hkept : (a.handlePersisted K (.duplicate recordId none sequence v) publication c).replay =
          a.replay.forget recordId := (congrArg Core.replay (core_reportValidation ..) : _)
      rw [hkept]
      exact hnothing rfl (.inr ⟨recordId, rfl⟩)
    | some origin =>
      have hkept : (a.handlePersisted K (.duplicate recordId (some origin) sequence v) publication
          c).replay = a.replay.accept recordId origin sequence (c.instant 0) :=
        (congrArg Core.replay (core_reportValidation ..) : _)
      rw [hkept]
      exact haccept rfl rfl
  | failed recordId error v =>
    have hkept : (a.handlePersisted K (.failed recordId error v) publication c).replay =
        a.replay.forget recordId :=
      (congrArg Core.replay (core_reportValidation ..) : _)
    rw [hkept]
    exact hnothing rfl (.inr ⟨recordId, rfl⟩)

lemma reads_permits (op : ReplayOp) (h : Reads (fun id => ∃ r ∈ brought e, r.recordId = id) op) :
    Permits K e op := by
  cases op with
  | check => exact h
  | markPending => exact h
  | accept => exact h.elim
  | forget => exact h.elim

lemma follows_step (hexternal : isExternal e = true) :
    Follows (Permits K e) a (a.step K (c, e)) := by
  have hbrought : ∀ r ∈ brought e, ∃ r' ∈ brought e, r'.recordId = r.recordId :=
    fun r hr => ⟨r, hr, rfl⟩
  suffices h : Follows (Permits K e) a.cleared (a.cleared.handle K c e) from ⟨h.calls, h.queue⟩
  have hquiet {b : Actor} (h : b.core.replay = a.cleared.core.replay)
      (hqueue : b.core.queue = a.cleared.core.queue) : Follows (Permits K e) a.cleared b :=
    follows_still h hqueue
  cases e with
  | command command signerFull =>
    exact follows_core (by rw [Actor.handle, core_handleCommand])
  | signedRecord result =>
    obtain ⟨queue, h, hcases⟩ := @core_handleSignedRecord a.cleared c result
    refine ⟨⟨[], congrArg Core.replay h, List.forall_mem_nil _⟩, ?_⟩
    have hqueue : (a.cleared.handle K c (.signedRecord result)).queue = queue :=
      congrArg Core.queue h
    rw [hqueue]
    rcases hcases with rfl | ⟨record, now, -, rfl⟩
    · exact ⟨[], (List.append_nil _).symm, List.forall_mem_nil _⟩
    · refine ⟨_, rfl, fun q hq hsource => ?_⟩
      rw [List.mem_singleton.mp hq] at hsource
      exact absurd rfl hsource
  | connectionEstablished peer endpoint connection n =>
    obtain ⟨ops, -, h⟩ := @core_connectionEstablished a.cleared c peer endpoint connection n
    exact hquiet (by rw [Actor.handle, h]; rfl) (by rw [Actor.handle, h]; rfl)
  | connectionClosed peer connection =>
    exact hquiet (by rw [Actor.handle, core_connectionClosed])
      (by rw [Actor.handle, core_connectionClosed])
  | incomingConnectionError connection error =>
    exact hquiet (by rw [Actor.handle, core_incomingConnectionError])
      (by rw [Actor.handle, core_incomingConnectionError])
  | incomingConnection connection sendBackAddr =>
    obtain ⟨attempts, denied, h⟩ := @core_incomingConnection a.cleared c connection sendBackAddr
    exact hquiet (by rw [Actor.handle, h]) (by rw [Actor.handle, h])
  | identified peer protocolVersion =>
    refine hquiet ?_ ?_
    all_goals
      rw [Actor.handle, core_identified]
      split_ifs <;> rfl
  | gossip source messageId data =>
    exact (follows_validateGossip hbrought).mono reads_permits
  | syncRequest peer request channel =>
    obtain ⟨rateLimiter, h⟩ := @core_prepareSyncResponse a.cleared c peer request channel
    exact hquiet (by rw [Actor.handle, h]) (by rw [Actor.handle, h])
  | syncResponse peer id response =>
    exact (follows_handleSyncResponse hbrought).mono reads_permits
  | outboundFailure peer id => exact follows_core (by rw [Actor.handle, core_outboundFailure])
  | inboundFailure peer => exact follows_core (by rw [Actor.handle, core_violation])
  | dbAction action =>
    obtain ⟨rateLimiter, mode, reason, h⟩ := @core_handleDbAction a.cleared c action
    exact hquiet (by rw [Actor.handle, h]) (by rw [Actor.handle, h])
  | snapshotTick =>
    exact hquiet (by rw [Actor.handle, core_snapshotTick]) (by rw [Actor.handle, core_snapshotTick])
  | syncTick pick => exact follows_core (by rw [Actor.handle, core_startBestSyncPeer])
  | pinged | cleanupTick | other => exact follows_still rfl rfl
  | persisted => cases hexternal
  | workerTook => cases hexternal

end Protonet.ReplayCalls
