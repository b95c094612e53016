import Protonet.SyncTurns

namespace Protonet.Swarm
open Lru MachineInt StepRun DeadlineTable Postcard Record Replay RateLimit Address Connections
  Sync Worker

/-- The first test of a message fails: for the node as a whole, or for its source. -/
def Actor.refusesGossip (a : Actor) (source : PeerId) (bytes : ℕ) (c : Clock) : Prop :=
  a.storageSafetyMode = true ∨ (∃ d ∈ a.blocked.peek source, c.instant 1 < d) ∨
    (a.rateLimiter.allowGossip source bytes (c.instant 0)).1 = false ∨
    (a.globalRecords.take (c.instant 0)).1 = false

def refusal (source : PeerId) (messageId : RecordId) (c : Clock) : List Effect :=
  [.reportGossip messageId source .reject, .block source (c.instant 2) MINOR_BLOCK,
    .disconnectPeer source]

/-- Logging, and steps against the source alone. -/
def Effect.Punishes (source : PeerId) : Effect → Prop
  | .notify _ => True
  | .block peer _ _ => peer = source
  | .disconnectPeer peer => peer = source
  | _ => False

/-- The outcome of a message, with what it adds to the outbox and the queue it leaves. -/
inductive GossipTurn (K : Primitives) (a : Actor) (source : PeerId) (messageId : RecordId)
    (data : Bytes) (c : Clock) : List Effect → List PersistRequest → Prop
  | refused (h : a.refusesGossip source data.length c) :
      GossipTurn K a source messageId data c (refusal source messageId c) a.queue
  | invalid {error : RecordValidation} {rest : List Effect}
      (h : RecordValidator.default.validateBytes K data (c.unixMs 0) = .error error)
      (hrest : ∀ e ∈ rest, e.Punishes source) :
      GossipTurn K a source messageId data c (.reportGossip messageId source .reject :: rest)
        a.queue
  | ignored {record : FlaggedFileRecord} (hopen : ¬ a.refusesGossip source data.length c)
      (h : RecordValidator.default.validateBytes K data (c.unixMs 0) = .ok record) :
      GossipTurn K a source messageId data c [.reportGossip messageId source .ignore] a.queue
  | tooOld {record : FlaggedFileRecord} (hopen : ¬ a.refusesGossip source data.length c)
      (h : RecordValidator.default.validateBytes K data (c.unixMs 0) = .ok record) :
      GossipTurn K a source messageId data c
        [.reportGossip messageId source .reject, .notify (.protocolViolation (some source)
          "record sequence is outside the replay window")] a.queue
  | denied {record : FlaggedFileRecord}
      (h : RecordValidator.default.validateBytes K data (c.unixMs 0) = .ok record)
      (hgrants : a.core.grants source (c.instant 0) = false) :
      GossipTurn K a source messageId data c
        [.reportGossip messageId source .reject, .block source (c.instant 2) MINOR_BLOCK] a.queue
  | queued {record : FlaggedFileRecord} (hopen : ¬ a.refusesGossip source data.length c)
      (h : RecordValidator.default.validateBytes K data (c.unixMs 0) = .ok record) :
      GossipTurn K a source messageId data c []
        (a.queue ++ [gossipRequest source messageId c record])

variable {K : Primitives} {a : Actor} {c : Clock} {source : PeerId} {messageId : RecordId}
  {data : Bytes}

lemma gossipRefused_fst {bytes : ℕ} :
    (a.gossipRefused source bytes c).1 = true ↔ a.refusesGossip source bytes c := by
  unfold Actor.gossipRefused Actor.refusesGossip
  by_cases hs : a.storageSafetyMode = true
  · simp [hs]
  · rw [if_neg hs]
    have hblocked := @isBlocked_fst a source (c.instant 1)
    have hcore := @core_isBlocked a source (c.instant 1)
    rcases hq : a.isBlocked source (c.instant 1) with ⟨_ | _, b⟩
    all_goals rw [hq] at hblocked hcore
    · have hopen : ¬ ∃ d ∈ a.blocked.peek source, c.instant 1 < d := fun h => by
        simpa using hblocked.mpr h
      have hlimiter : b.rateLimiter = a.rateLimiter := congrArg Core.rateLimiter hcore
      have hglobal : b.globalRecords = a.globalRecords := congrArg Core.globalRecords hcore
      simp only [hs, hopen, false_or, hlimiter, hglobal]
      rcases a.rateLimiter.allowGossip source bytes (c.instant 0) with ⟨_ | _, rateLimiter⟩
      · simp
      · simp
    · exact iff_of_true rfl (.inr (.inl (hblocked.mp rfl)))

lemma allowGossip_ingestion (l : RateLimiter) (bytes now : ℕ) :
    (l.allowGossip source bytes now).2.arithmetic = l.arithmetic ∧
      (l.allowGossip source bytes now).2.ingestionIps = l.ingestionIps ∧
      (l.allowGossip source bytes now).2.ingestionPrefixes = l.ingestionPrefixes := by
  unfold RateLimiter.allowGossip
  dsimp only
  split <;> exact ⟨rfl, rfl, rfl⟩

lemma gossipRefused_snd {bytes now : ℕ} :
    (a.gossipRefused source bytes c).2.outbox = a.outbox ∧
      (a.gossipRefused source bytes c).2.queue = a.queue ∧
      (a.gossipRefused source bytes c).2.core.grants source now = a.core.grants source now := by
  have hasked : ∀ b, (a.isBlocked source (c.instant 1)).2 = b →
      b.outbox = a.outbox ∧ b.queue = a.queue ∧ b.connections = a.connections ∧
        b.rateLimiter = a.rateLimiter := by
    rintro b rfl
    unfold Actor.isBlocked
    split
    · exact ⟨rfl, rfl, rfl, rfl⟩
    · split_ifs <;> exact ⟨rfl, rfl, rfl, rfl⟩
  unfold Actor.gossipRefused
  split_ifs
  · exact ⟨rfl, rfl, rfl⟩
  · rcases hq : a.isBlocked source (c.instant 1) with ⟨_ | _, b⟩
    · obtain ⟨hout, hqueue, hconn, hlimiter⟩ := hasked b (by rw [hq])
      have hgrants : ∀ l : RateLimiter, l.arithmetic = a.rateLimiter.arithmetic →
          l.ingestionIps = a.rateLimiter.ingestionIps →
          l.ingestionPrefixes = a.rateLimiter.ingestionPrefixes → ∀ k : Core,
          k.connections = a.connections → k.rateLimiter = l →
            k.grants source now = a.core.grants source now := by
        rintro l harith hip hpre k hk rfl
        unfold Core.grants
        rw [hk]
        rcases hkeys : a.connections.sourceKeys source with _ | ⟨ip, p⟩
        · simp [Actor.core, hkeys]
        · simp [Actor.core, hkeys, RateLimiter.allowIngestionSource, RateLimiter.ipBucket,
            RateLimiter.prefixBucket, harith, hip, hpre]
      have hing := @allowGossip_ingestion source b.rateLimiter bytes (c.instant 0)
      rw [hlimiter] at hing
      dsimp only
      rw [hlimiter]
      rcases hallow : a.rateLimiter.allowGossip source bytes (c.instant 0) with ⟨_ | _, l⟩
      all_goals
        rw [hallow] at hing
        exact ⟨hout, hqueue, hgrants l hing.1 hing.2.1 hing.2.2 _ hconn rfl⟩
    · obtain ⟨hout, hqueue, hconn, hlimiter⟩ := hasked b (by rw [hq])
      refine ⟨hout, hqueue, ?_⟩
      unfold Core.grants
      simp only [Actor.core, hconn, hlimiter]

lemma rejectInvalid_outbox {error : RecordValidation} : ∃ rest,
    (a.rejectInvalid source messageId error c).outbox =
      a.outbox ++ .reportGossip messageId source .reject :: rest ∧
    (∀ e ∈ rest, e.Punishes source) ∧
    (a.rejectInvalid source messageId error c).queue = a.queue := by
  unfold Actor.rejectInvalid
  dsimp only
  generalize (if error = .invalidSignature then INVALID_SIGNATURE_BLOCK
    else MALFORMED_BLOCK) = duration
  split_ifs with h
  · refine ⟨[.block source (c.instant 2) duration, .disconnectPeer source,
      .notify (.protocolViolation (some source) error.message)], ?_, by simp [Effect.Punishes], rfl⟩
    simp [Actor.violation, Actor.notify, Actor.block, Actor.reportGossip, Actor.emit]
  · refine ⟨[.notify (.protocolViolation (some source) error.message)], ?_, by simp [Effect.Punishes], rfl⟩
    simp [Actor.violation, Actor.notify, Actor.reportGossip, Actor.emit]

/-- A record the replay state calls new: no token, a place in the queue, or no room there. -/
lemma ingestGossip_turn {record : FlaggedFileRecord}
    (hopen : ¬ a.refusesGossip source data.length c)
    (h : RecordValidator.default.validateBytes K data (c.unixMs 0) = .ok record) {b : Actor}
    (hqueue : b.queue = a.queue)
    (hgrants : b.core.grants source (c.instant 0) = a.core.grants source (c.instant 0)) :
    ∃ effects, (b.ingestGossip source messageId record c).outbox = b.outbox ++ effects ∧
      GossipTurn K a source messageId data c effects
        (b.ingestGossip source messageId record c).queue := by
  have hfst := @allowIngestionSource_fst b source (c.instant 0)
  have hsnd : (b.allowIngestionSource source (c.instant 0)).2.outbox = b.outbox ∧
      (b.allowIngestionSource source (c.instant 0)).2.queue = b.queue := by
    unfold Actor.allowIngestionSource
    split <;> exact ⟨rfl, rfl⟩
  unfold Actor.ingestGossip
  rcases hallow : b.allowIngestionSource source (c.instant 0) with ⟨_ | _, d⟩
  all_goals
    rw [hallow] at hfst hsnd
    dsimp only at hfst hsnd
  · refine ⟨[.reportGossip messageId source .reject, .block source (c.instant 2) MINOR_BLOCK], ?_,
      ?_⟩
    · simp [Actor.block, Actor.reportGossip, Actor.emit, hsnd.1]
    · have hkept : ((d.reportGossip messageId source .reject).block source MINOR_BLOCK
          (c.instant 2)).queue = a.queue := hsnd.2.trans hqueue
      dsimp only
      rw [hkept]
      exact .denied h (hgrants ▸ hfst.symm)
  · dsimp only
    unfold Actor.tryEnqueue
    split_ifs
    · refine ⟨[], by simp [hsnd.1], ?_⟩
      have hkept : d.queue = a.queue := hsnd.2.trans hqueue
      dsimp only
      rw [hkept]
      exact .queued hopen h
    · refine ⟨[.reportGossip messageId source .ignore],
        by simp [Actor.reportGossip, Actor.emit, hsnd.1], ?_⟩
      have hkept : (d.reportGossip messageId source .ignore).queue = a.queue :=
        hsnd.2.trans hqueue
      dsimp only
      rw [hkept]
      exact .ignored hopen h

lemma validateGossip_turn :
    ∃ effects, (a.validateGossip K source messageId data c).outbox = a.outbox ++ effects ∧
      GossipTurn K a source messageId data c effects
        (a.validateGossip K source messageId data c).queue := by
  have hfst := @gossipRefused_fst a c source data.length
  obtain ⟨hout, hqueue, hgrants⟩ :=
    @gossipRefused_snd a c source data.length (c.instant 0)
  unfold Actor.validateGossip
  rcases hr : a.gossipRefused source data.length c with ⟨_ | _, b⟩
  all_goals
    rw [hr] at hfst hout hqueue hgrants
    dsimp only at hout hqueue hgrants ⊢
  · rcases hv : RecordValidator.default.validateBytes K data (c.unixMs 0) with error | record
    · obtain ⟨rest, hrest, hno, hkept⟩ := @rejectInvalid_outbox b c source messageId error
      dsimp only
      rw [hrest, hkept, hout, hqueue]
      exact ⟨_, rfl, .invalid hv hno⟩
    · dsimp only
      rw [origin_of_validate (validateBytes_ok_iff.mp hv).2]
      have hopen : ¬ a.refusesGossip source data.length c := fun h => by simpa using hfst.mpr h
      dsimp only
      rcases b.replay.check record.recordId ⟨record.originPeerId.1⟩ record.sequence (c.instant 0)
        with ⟨_ | _ | _, replay⟩
      · have hturn := @ingestGossip_turn K a c source messageId data record hopen hv
          { b with replay } hqueue hgrants
        rw [← hout]
        exact hturn
      · refine ⟨[.reportGossip messageId source .ignore],
          by simp [Actor.reportGossip, Actor.emit, hout], ?_⟩
        have hkept : (Actor.reportGossip { b with replay } messageId source .ignore).queue =
          a.queue := hqueue
        dsimp only
        rw [hkept]
        exact .ignored hopen hv
      · refine ⟨[.reportGossip messageId source .reject, .notify (.protocolViolation (some source)
          "record sequence is outside the replay window")],
          by simp [Actor.violation, Actor.notify, Actor.reportGossip, Actor.emit, hout], ?_⟩
        have hkept : ((Actor.reportGossip { b with replay } messageId source .reject).violation
          (some source) "record sequence is outside the replay window").queue = a.queue := hqueue
        dsimp only
        rw [hkept]
        exact .tooOld hopen hv
  · refine ⟨refusal source messageId c, by simp [Actor.block, Actor.reportGossip, Actor.emit,
      refusal, hout], ?_⟩
    have hkept : (((b.reportGossip messageId source .reject).block source MINOR_BLOCK
      (c.instant 2)).emit (.disconnectPeer source)).queue = a.queue := hqueue
    rw [hkept]
    exact .refused (hfst.mp rfl)

end Protonet.Swarm
