import Protonet.Stock
import Protonet.SyncConvergence

namespace Protonet.SyncStall
open MachineInt StepRun Postcard Record RecordIdentity Replay Database Sync Queries Swarm Persistence
  Paging Listing InventoryDigests RemoteRecords SyncWorld SyncProgress SyncConvergence Stock Blocking

variable {K : Primitives} {peer : PeerId} {remote : SignatureDatabase} {start now : Int64}
  {s : Engine} {w : World} {a : Actor} {c : Clock} {id : RequestId} {stage : Stage}
  {request : SyncRequest} {x x' : Exchange} {bucket : Int64} {outstanding : Finset RequestId}

lemma pumps_still (h : x.agenda = some ⟨[], outstanding⟩) (hbusy : outstanding ≠ ∅)
    (hpumps : Exchange.Pumps peer x x') : x' = x := by
  cases hpumps with
  | idle => rfl
  | wait => rfl
  | finish hdone =>
    obtain ⟨-, hempty⟩ := Agenda.mk.inj (Option.some.inj (h.symm.trans hdone))
    exact absurd hempty hbusy
  | next hsome => exact absurd (Agenda.mk.inj (Option.some.inj (h.symm.trans hsome))).1 nofun

/-- Without anything to wait for, a pump does not wait. -/
lemma busy_of_wait {g : Agenda} {buckets : List Int64} (h : x.agenda = some ⟨buckets, ∅⟩)
    (hsome : x.agenda = some g) : g.outstanding = ∅ := by
  rw [← Option.some.inj (h.symm.trans hsome)]

lemma pumps_finish (h : x.agenda = some ⟨[], ∅⟩) (hpumps : Exchange.Pumps peer x x') :
    x'.agenda = none := by
  cases hpumps with
  | idle hnone => exact hnone
  | wait hsome hbusy => exact absurd (busy_of_wait h hsome) hbusy
  | finish => rfl
  | next hsome => exact absurd (Agenda.mk.inj (Option.some.inj (h.symm.trans hsome))).1 nofun

lemma pumps_next (h : x.agenda = some ⟨[bucket], ∅⟩) (hpumps : Exchange.Pumps peer x x') :
    x' = .ask peer (pageRequest bucket none) { x with agenda := some ⟨[], ∅⟩ } := by
  cases hpumps with
  | idle hnone =>
    rw [hnone] at h
    cases h
  | wait hsome hbusy => exact absurd (busy_of_wait h hsome) hbusy
  | finish hdone => exact absurd (Agenda.mk.inj (Option.some.inj (h.symm.trans hdone))).1 nofun
  | next hsome hrest =>
    obtain ⟨hbuckets, rfl⟩ := Agenda.mk.inj (Option.some.inj (h.symm.trans hsome))
    obtain ⟨rfl, rfl⟩ := List.cons.inj hbuckets
    exact pumps_still rfl (Finset.insert_ne_empty _ _) hrest

structure Alone (peer : PeerId) (id : RequestId) (stage : Stage) (x : Exchange) : Prop where
  agenda : x.agenda = some ⟨[], {id}⟩
  next : x.next = id + 1
  stands : x.flight.lookup id = some stage
  pending : ∀ request ∈ stage.request?, x.pending.lookup id = some (pendingOf peer request)

lemma alone_ask (h : x.agenda = some ⟨[], ∅⟩) :
    Alone peer x.next (.asked request) (x.ask peer request) where
  agenda := by
    rw [Exchange.ask, h]
    rfl
  next := rfl
  stands := AList.lookup_insert _
  pending r hr := by
    obtain rfl := Option.mem_some_iff.mp hr
    exact AList.lookup_insert _

lemma Alone.put (h : Alone peer id stage x) {stage' : Stage}
    {pending : AList fun _ : RequestId => PendingSync}
    (hpending : ∀ request ∈ stage'.request?, pending.lookup id = some (pendingOf peer request)) :
    Alone peer id stage' { x with pending, flight := x.flight.insert id stage' } where
  agenda := h.agenda
  next := h.next
  stands := AList.lookup_insert _
  pending := hpending

/-- So far nothing was queued or stored. -/
structure Solo (peer : PeerId) (s : Engine) (id : RequestId) (stage : Stage) (w : World) : Prop
    extends Alone peer id stage (w.exchange peer) where
  db : w.engine.db = s.db
  replay : w.engine.actor.replay = s.actor.replay
  queue : w.engine.actor.queue = s.actor.queue

lemma solo_start {instant : ℕ} (hfresh : s.actor.syncSessions.lookup peer = none)
    (hroom : s.actor.syncSessions.entries.length < MAX_SIMULTANEOUS_SYNC_PEERS) :
    Solo peer s s.actor.nextRequest (.asked .getInventory) (.start peer s instant) := by
  have hx := @exchange_startSync s.actor peer ∅ instant hfresh hroom
  have hcore := core_startSync (a := s.actor.cleared) peer instant
  refine ⟨?_, rfl, congrArg Core.replay hcore, congrArg Core.queue hcore⟩
  change Alone peer _ _ ((s.actor.cleared.startSync peer instant).exchange peer ∅)
  rw [hx]
  exact @alone_ask peer .getInventory
    { s.actor.cleared.exchange peer ∅ with agenda := some ⟨[], ∅⟩ } rfl

lemma solo_answer (h : Solo peer s id (.asked request) w) :
    Solo peer s id (.answered request (answer K remote request now))
      (w.step K peer remote (.answer id now)) := by
  have hs : w.flight.lookup id = some (.asked request) := h.stands
  rw [step_answer hs]
  exact ⟨h.put h.pending, h.db, h.replay, h.queue⟩

lemma solo_compare (h : Solo peer s id stage w) {action : DbAction}
    (haction : comparison K s.db peer id now stage = some action) :
    Solo peer s id (.compared action) (w.step K peer remote (.compare id now)) := by
  have hs : w.flight.lookup id = some stage := h.stands
  rw [step_compare hs (h.db.symm ▸ haction)]
  exact ⟨h.put nofun, h.db, h.replay, h.queue⟩

lemma solo_receive {response : SyncResponse} (h : Solo peer s id (.answered request response) w)
    {stage' : Stage} (hstage : stage'.request? = none)
    (hexchange : (w.engine.actor.cleared.handleSyncResponse K peer id response c).exchange peer
      (w.flight.erase id) = { w.engine.actor.cleared.exchange peer (w.flight.erase id) with
        pending := w.engine.actor.pendingSync.erase id
        flight := (w.flight.erase id).insert id stage' })
    (hreplay : (w.engine.actor.cleared.handleSyncResponse K peer id response c).replay =
      w.engine.actor.replay)
    (hqueue : (w.engine.actor.cleared.handleSyncResponse K peer id response c).queue =
      w.engine.actor.queue) :
    Solo peer s id stage' (w.step K peer remote (.receive id c)) := by
  have hs : w.flight.lookup id = some (.answered request response) := h.stands
  rw [step_receive hs]
  refine ⟨?_, h.db, hreplay.trans h.replay, hqueue.trans h.queue⟩
  change Alone peer id stage' ((w.engine.actor.cleared.handleSyncResponse K peer id response
    c).exchange peer (w.flight.erase id))
  rw [hexchange, insert_erase]
  refine @Alone.put peer id _ (w.exchange peer) h.toAlone stage' _ ?_
  rw [hstage]
  nofun

lemma core_inventoryResponse {summary : InventorySummary}
    (hpending : a.pendingSync.lookup id = some (.inventory peer))
    (hbounds : (SyncResponse.inventory summary).validateBounds = .ok ()) :
    (a.handleSyncResponse K peer id (.inventory summary) c).core = a.core := by
  unfold Actor.handleSyncResponse
  rw [hpending]
  dsimp only
  rw [hbounds]
  exact core_emit ⟨rfl, rfl⟩

lemma core_idsResponse {ids : List RecordId} {nextCursor : Option RecordId}
    (hpending : a.pendingSync.lookup id = some (.ids peer bucket))
    (hbounds : (SyncResponse.recordIds ids nextCursor).validateBounds = .ok ()) :
    (a.handleSyncResponse K peer id (.recordIds ids nextCursor) c).core = a.core := by
  unfold Actor.handleSyncResponse
  rw [hpending]
  dsimp only
  rw [hbounds]
  exact core_emit ⟨rfl, rfl⟩

lemma solo_inventory {response : SyncResponse}
    (h : Solo peer s id (.answered .getInventory response) w)
    (hresponse : response = answer K remote .getInventory now) :
    Solo peer s id (.comparingInventory (inventory K remote now))
      (w.step K peer remote (.receive id c)) := by
  have hpending : w.engine.actor.cleared.pendingSync.lookup id = some (.inventory peer) :=
    h.pending _ rfl
  have hbounds : (SyncResponse.inventory (inventory K remote now)).validateBounds = .ok () :=
    if_pos inventory_length
  obtain rfl : response = .inventory (inventory K remote now) := hresponse
  have hcore := @core_inventoryResponse K peer w.engine.actor.cleared c id _ hpending hbounds
  exact solo_receive h rfl (exchange_inventoryResponse hpending hbounds)
    (congrArg Core.replay hcore) (congrArg Core.queue hcore)

lemma solo_ids {response : SyncResponse} {cursor : Option RecordId}
    (h : Solo peer s id (.answered (pageRequest bucket cursor) response) w)
    (hresponse : response = answer K remote (pageRequest bucket cursor) now) :
    Solo peer s id (.comparingIds bucket
        (page MAX_IDS_PER_RESPONSE (listedIds remote bucket cursor now)).1
        (page MAX_IDS_PER_RESPONSE (listedIds remote bucket cursor now)).2)
      (w.step K peer remote (.receive id c)) := by
  have hpending : w.engine.actor.cleared.pendingSync.lookup id = some (.ids peer bucket) :=
    h.pending _ rfl
  have hbounds : (SyncResponse.recordIds
      (page MAX_IDS_PER_RESPONSE (listedIds remote bucket cursor now)).1
      (page MAX_IDS_PER_RESPONSE (listedIds remote bucket cursor now)).2).validateBounds = .ok () :=
    if_pos length_page_le
  obtain rfl := hresponse.trans answer_page
  have hcore := @core_idsResponse K peer w.engine.actor.cleared c id bucket _ _ hpending hbounds
  exact solo_receive h rfl (exchange_idsResponse hpending hbounds)
    (congrArg Core.replay hcore) (congrArg Core.queue hcore)

lemma solo_act {action : DbAction} (h : Solo peer s id (.compared action) w) {id' : RequestId}
    {stage' : Stage}
    (hcore : (w.engine.actor.cleared.handleDbAction action c).core = w.engine.actor.cleared.core)
    (halone : Alone peer id' stage' ((w.engine.actor.cleared.handleDbAction action c).exchange peer
      (w.flight.erase id))) :
    Solo peer s id' stage' (w.step K peer remote (.act id c)) := by
  have hs : w.flight.lookup id = some (.compared action) := h.stands
  rw [step_act hs]
  exact ⟨halone, h.db, (congrArg Core.replay hcore).trans h.replay,
    (congrArg Core.queue hcore).trans h.queue⟩

lemma solo_begin (h : Solo peer s id (.compared (.inventoryCompared peer id [bucket])) w) :
    Solo peer s (id + 1) (.asked (pageRequest bucket none)) (w.step K peer remote (.act id c)) := by
  refine solo_act h (core_inventoryCompared ..) ?_
  have hagenda : w.engine.actor.agenda peer = some ⟨[], {id}⟩ := h.agenda
  have hpumps := @exchange_inventoryCompared w.engine.actor c peer (w.flight.erase id) id
    [bucket]
  have hsettled : (w.engine.actor.agenda peer).map (fun g =>
      (⟨[bucket], g.outstanding.erase id⟩ : Agenda)) = some ⟨[bucket], ∅⟩ := by
    rw [hagenda, Option.map_some, Finset.erase_singleton]
  rw [hsettled] at hpumps
  rw [pumps_next rfl hpumps]
  have hnext : w.engine.actor.cleared.nextRequest = id + 1 := h.next
  rw [← hnext]
  exact @alone_ask peer (pageRequest bucket none)
    { w.engine.actor.cleared.exchange peer (w.flight.erase id) with agenda := some ⟨[], ∅⟩ } rfl

lemma solo_fetch {missing : List RecordId} (hmissing : missing ≠ [])
    (h : Solo peer s id (.compared (.idsCompared peer id bucket missing none)) w) :
    Solo peer s (id + 1) (.asked (.getRecords missing)) (w.step K peer remote (.act id c)) := by
  refine solo_act h (core_idsCompared ..) ?_
  have hagenda : w.engine.actor.agenda peer = some ⟨[], {id}⟩ := h.agenda
  have hpumps := @exchange_idsCompared w.engine.actor c peer (w.flight.erase id) id bucket
    missing none
  have hsettled : (w.engine.actor.agenda peer).map (Agenda.settle id) =
      some ⟨[], ∅⟩ := by
    rw [hagenda, Option.map_some, Agenda.settle, Finset.erase_singleton]
  rw [hsettled, Exchange.fetch, if_pos hmissing] at hpumps
  have hnext : w.engine.actor.cleared.nextRequest = id + 1 := h.next
  have halone := @alone_ask peer (.getRecords missing)
    { w.engine.actor.cleared.exchange peer (w.flight.erase id) with agenda := some ⟨[], ∅⟩ } rfl
  rw [pumps_still halone.agenda (Finset.singleton_ne_empty _) hpumps]
  rw [← hnext]
  exact halone

lemma isNew_known {k : Core} {record : FlaggedFileRecord} {instant : ℕ} {unixMs : Int64}
    (h : k.replay.activeRecords.contains record.recordId = true) :
    k.isNew K record instant unixMs = false := by
  unfold Core.isNew
  split
  · refine decide_eq_false fun hnew => ?_
    rw [(check_new_iff.mp hnew).2.1] at h
    cases h
  · rfl

lemma filter_acceptSyncRecord {record : FlaggedFileRecord} {instant blockedAt : ℕ} {unixMs : Int64}
    (h : a.replay.activeRecords.contains record.recordId = true) :
    (a.acceptSyncRecord K peer record instant blockedAt unixMs).1 = true ∧
      (a.acceptSyncRecord K peer record instant blockedAt unixMs).2.replay.activeRecords =
        a.replay.activeRecords := by
  unfold Actor.acceptSyncRecord
  rcases RecordValidator.default.validate K record unixMs with error | ⟨⟩
  · exact ⟨rfl, rfl⟩
  · rcases record.origin K with error | origin
    · exact ⟨rfl, rfl⟩
    · have hframe := (check_frame a.replay record.recordId origin record.sequence instant).2.1
      have hnew := @check_new_iff a.replay record.recordId origin record.sequence instant
      dsimp only
      rcases hc : a.replay.check record.recordId origin record.sequence instant with ⟨_ | _ | _, replay⟩
      all_goals rw [hc] at hframe
      · rw [hc, h] at hnew
        exact absurd (hnew.mp rfl).2.1 nofun
      · exact ⟨rfl, hframe⟩
      · exact ⟨rfl, hframe⟩

lemma syncTurns_known {i : ℕ} {records : List FlaggedFileRecord}
    (h : ∀ record ∈ records, a.replay.activeRecords.contains record.recordId = true) :
    ∀ t ∈ a.syncTurns K peer c i records, t.isNew K c = false := by
  induction records generalizing a i with
  | nil => simp [Actor.syncTurns]
  | cons record records ih =>
    obtain ⟨hgoing, hfilter⟩ := @filter_acceptSyncRecord K peer a record (c.instant (2 * i + 1))
      (c.instant (2 * i + 2)) (c.unixMs i) (h record List.mem_cons_self)
    rw [Actor.syncTurns]
    rcases hr : a.acceptSyncRecord K peer record (c.instant (2 * i + 1)) (c.instant (2 * i + 2))
      (c.unixMs i) with ⟨going, b⟩
    rw [hr] at hgoing hfilter
    obtain rfl : going = true := hgoing
    intro t ht
    rcases List.mem_cons.mp ht with rfl | ht
    · exact isNew_known (h record List.mem_cons_self)
    · refine ih (fun r hr => ?_) t ht
      rw [hfilter]
      exact h r (List.mem_cons_of_mem _ hr)

lemma responseTurns_known {records : List FlaggedFileRecord}
    (h : ∀ record ∈ records, a.replay.activeRecords.contains record.recordId = true) :
    ∀ t ∈ a.responseTurns K id (.records records) c, t.isNew K c = false ∧ t.record ∈ records := by
  unfold Actor.responseTurns
  split
  · next p records' hp hresponse =>
    obtain rfl := SyncResponse.records.inj hresponse
    split_ifs
    · nofun
    · intro t ht
      have hreplay : (a.settled p id).replay = a.replay := congrArg Core.replay (core_settled id)
      refine ⟨syncTurns_known (fun record hrecord => ?_) t ht,
        List.mem_of_mem_take (mem_syncTurns ht).2.1⟩
      rw [hreplay]
      exact h record (List.mem_of_mem_take hrecord)
  · nofun

/-- An answer with records that are all known ends the session. -/
lemma solo_records {ids : List RecordId} {records : List FlaggedFileRecord}
    (h : Solo peer s id (.answered (.getRecords ids) (.records records)) w)
    (hbounds : records.length ≤ MAX_RECORDS_PER_RESPONSE)
    (hknown : ∀ record ∈ records, s.actor.replay.activeRecords.contains record.recordId = true ∧
      Has s.db record.recordId) :
    Smooth K remote start w (.receive id c) ∧
      (w.step K peer remote (.receive id c)).engine.actor.syncSessions.lookup peer = none ∧
      (w.step K peer remote (.receive id c)).engine.actor.queue = s.actor.queue ∧
      (w.step K peer remote (.receive id c)).engine.db = s.db := by
  have hs : w.flight.lookup id = some (.answered (.getRecords ids) (.records records)) := h.stands
  have hpending : w.engine.actor.cleared.pendingSync.lookup id = some (.records peer) :=
    h.pending _ rfl
  have hstep := @step_receive K peer remote c w id _ _ hs
  have hturns : ∀ t ∈ w.engine.actor.cleared.responseTurns K id (.records records) c,
      t.isNew K c = false ∧ t.record ∈ records := by
    refine responseTurns_known fun record hrecord => ?_
    rw [show w.engine.actor.cleared.replay = s.actor.replay from h.replay]
    exact (hknown record hrecord).1
  refine ⟨?_, ?_, ?_, ?_⟩
  · unfold Smooth
    dsimp only
    rw [hs, h.db]
    intro t ht
    obtain ⟨hold, hrecord⟩ := hturns t ht
    refine ⟨fun hnew => ?_, fun hlack => absurd (hknown _ hrecord).2 hlack⟩
    rw [hold] at hnew
    cases hnew
  · have hagenda : w.engine.actor.agenda peer = some ⟨[], {id}⟩ := h.agenda
    have hpumps := @exchange_recordsResponse K w.engine.actor c peer (w.flight.erase id) id
      records hpending (if_pos hbounds)
    have hsettled : (w.engine.actor.agenda peer).map (Agenda.settle id) =
        some ⟨[], ∅⟩ := by
      rw [hagenda, Option.map_some, Agenda.settle, Finset.erase_singleton]
    rw [hsettled] at hpumps
    have hover := pumps_finish rfl hpumps
    rw [hstep]
    exact Option.map_eq_none_iff.mp hover
  · obtain ⟨replay, rateLimiter, hcore⟩ :=
      @core_handleSyncResponse K w.engine.actor.cleared c peer id (.records records)
    have hnone : (w.engine.actor.cleared.responseTurns K id (.records records) c).flatMap
        (SyncTurn.requests K c) = [] :=
      List.flatMap_eq_nil_iff.mpr fun t ht => (SyncTurn.effects_old (hturns t ht).1).2
    rw [hnone] at hcore
    rw [hstep]
    exact (congrArg Core.queue hcore).trans ((List.append_nil _).trans h.queue)
  · rw [hstep]
    exact h.db

lemma smooth_answer : Smooth K remote start w (.answer id start) := fun _ _ => rfl

lemma smooth_receive {response : SyncResponse} (h : Solo peer s id (.answered request response) w)
    (hother : ∀ records, response ≠ .records records) :
    Smooth K remote start w (.receive id c) := by
  have hs : w.flight.lookup id = some (.answered request response) := h.stands
  unfold Smooth
  dsimp only
  rw [hs]
  dsimp only
  unfold Actor.responseTurns
  split
  · next _ records _ => exact absurd rfl (hother records)
  · nofun

lemma smooth_compare (h : Solo peer s id stage w)
    (hcf : ∀ b ∈ starts (inventoryRows remote start),
      CollisionFree K {idBytes (bucketIds remote start b), idBytes (bucketIds s.db now b)}) :
    Smooth K remote start w (.compare id now) := by
  have hs : w.flight.lookup id = some stage := h.stands
  unfold Smooth
  dsimp only
  rw [hs, h.db]
  split
  · exact hcf
  · trivial

/-- A smooth run leads from one world to the other. -/
def Reaches (K : Primitives) (peer : PeerId) (remote : SignatureDatabase) (start : Int64)
    (w w' : World) : Prop :=
  ∃ moves, Along (World.step K peer remote) (Smooth K remote start) w moves ∧
    run (World.step K peer remote) w moves = w'

lemma reaches_step {move : Move} (h : Smooth K remote start w move) :
    Reaches K peer remote start w (w.step K peer remote move) := ⟨[move], ⟨h, trivial⟩, rfl⟩

lemma Reaches.trans {w' w'' : World} (h : Reaches K peer remote start w w')
    (h' : Reaches K peer remote start w' w'') : Reaches K peer remote start w w'' := by
  obtain ⟨moves, halong, rfl⟩ := h
  obtain ⟨moves', halong', rfl⟩ := h'
  exact ⟨moves ++ moves', along_append.mpr ⟨halong, halong'⟩, run_append ..⟩

lemma reaches_bucket (h : Solo peer s id (.asked .getInventory) w)
    (hcf : ∀ b ∈ starts (inventoryRows remote start),
      CollisionFree K {idBytes (bucketIds remote start b), idBytes (bucketIds s.db start b)})
    (hdiffers : differingBuckets (inventory K s.db start) (inventory K remote start) = [bucket]) :
    ∃ w', Reaches K peer remote start w w' ∧
      Solo peer s (id + 1) (.asked (pageRequest bucket none)) w' := by
  have h₁ := @solo_answer K peer remote start s w id _ h
  have h₂ := @solo_inventory K peer remote start s _ (.still 0 0) id _ h₁ rfl
  have hstage : comparison K s.db peer id start (.comparingInventory (inventory K remote start)) =
      some (.inventoryCompared peer id [bucket]) := by
    rw [comparison, hdiffers]
  have h₃ := @solo_compare K peer remote start s _ id _ h₂ _ hstage
  have h₄ := @solo_begin K peer remote s _ (.still 0 0) id bucket h₃
  refine ⟨_, ?_, h₄⟩
  have hother : ∀ records, answer K remote .getInventory start ≠ .records records := by
    intro records
    exact SyncResponse.noConfusion
  refine (reaches_step smooth_answer).trans
    ((reaches_step (smooth_receive (c := .still 0 0) h₁ hother)).trans ?_)
  exact (reaches_step (smooth_compare h₂ hcf)).trans (reaches_step trivial)

lemma reaches_missing {missing : List RecordId}
    (h : Solo peer s id (.asked (pageRequest bucket none)) w)
    (hcf : ∀ b ∈ starts (inventoryRows remote start),
      CollisionFree K {idBytes (bucketIds remote start b), idBytes (bucketIds s.db start b)})
    (hshort : (listing remote start bucket).length ≤ MAX_IDS_PER_RESPONSE)
    (hm : missingIds s.db (listing remote start bucket) start = missing) (hmissing : missing ≠ []) :
    ∃ w', Reaches K peer remote start w w' ∧
      Solo peer s (id + 1) (.asked (.getRecords missing)) w' := by
  have hpage : page MAX_IDS_PER_RESPONSE (listedIds remote bucket none start) =
      (listing remote start bucket, none) := page_short hshort
  have h₁ := @solo_answer K peer remote start s w id _ h
  have h₂ := @solo_ids K peer remote start s _ (.still 0 0) id bucket _ none h₁ rfl
  rw [hpage] at h₂
  have hstage : comparison K s.db peer id start
      (.comparingIds bucket (listing remote start bucket) none) =
        some (.idsCompared peer id bucket missing none) := by
    rw [comparison, hm]
  have h₃ := @solo_compare K peer remote start s _ id _ h₂ _ hstage
  have h₄ := @solo_fetch K peer remote s _ (.still 0 0) id bucket missing hmissing h₃
  refine ⟨_, ?_, h₄⟩
  have hother : ∀ records, answer K remote (pageRequest bucket none) start ≠ .records records := by
    intro records
    rw [answer_page]
    exact SyncResponse.noConfusion
  refine (reaches_step smooth_answer).trans
    ((reaches_step (smooth_receive (c := .still 0 0) h₁ hother)).trans ?_)
  exact (reaches_step (smooth_compare h₂ hcf)).trans (reaches_step trivial)

/-- What is missing is sent, and was known. -/
lemma reaches_end {missing : List RecordId} (hremote : WellKept remote)
    (h : Solo peer s id (.asked (.getRecords missing)) w) (hmissing : missing ≠ [])
    (hfew : missing.length ≤ MAX_REQUESTED_RECORDS)
    (hknown : ∀ rid ∈ missing, s.actor.replay.activeRecords.contains rid = true ∧ Has s.db rid) :
    ∃ w', Reaches K peer remote start w w' ∧ w'.engine.actor.syncSessions.lookup peer = none ∧
      w'.engine.actor.queue = s.actor.queue ∧ w'.engine.db = s.db := by
  obtain ⟨records, hanswer, hbounds, hfound, -⟩ :=
    @answer_getRecords K remote start missing hmissing hfew
  have hall : ∀ record ∈ records,
      s.actor.replay.activeRecords.contains record.recordId = true ∧ Has s.db record.recordId := by
    intro record hrecord
    obtain ⟨row, hrow, hid, -, hdecode⟩ := hfound record hrecord
    rw [(comesFrom_of_decode hremote hrow hdecode).2]
    exact hknown _ hid
  have h₁ := @solo_answer K peer remote start s w id _ h
  rw [hanswer] at h₁
  obtain ⟨hsmooth, hend⟩ :=
    @solo_records K peer remote start s _ (.still 0 0) id missing records h₁ hbounds hall
  exact ⟨_, (reaches_step smooth_answer).trans (reaches_step hsmooth), hend⟩

/-- Over one differing bucket of one page, a session can complete without storing anything, if the
ids that count as missing are stored and known to the replay filter. -/
theorem session_stalls (hremote : WellKept remote)
    (hfresh : s.actor.syncSessions.lookup peer = none)
    (hroom : s.actor.syncSessions.entries.length < MAX_SIMULTANEOUS_SYNC_PEERS)
    (hqueue : s.actor.queue = [])
    (hcf : ∀ b ∈ starts (inventoryRows remote start),
      CollisionFree K {idBytes (bucketIds remote start b), idBytes (bucketIds s.db start b)})
    (hdiffers : differingBuckets (inventory K s.db start) (inventory K remote start) = [bucket])
    (hshort : (listing remote start bucket).length ≤ MAX_IDS_PER_RESPONSE)
    (hmissing : missingIds s.db (listing remote start bucket) start ≠ [])
    (hknown : ∀ rid ∈ missingIds s.db (listing remote start bucket) start,
      s.actor.replay.activeRecords.contains rid = true ∧ Has s.db rid) :
    ∃ s', Session K peer remote start s s' ∧ s'.db = s.db := by
  obtain ⟨w, hw, hbucket⟩ :=
    reaches_bucket (K := K) (@solo_start peer s 0 hfresh hroom) hcf hdiffers
  obtain ⟨w', hw', hasked⟩ := reaches_missing (K := K) hbucket hcf hshort rfl hmissing
  obtain ⟨w'', hw'', hover, hdrained, hdb⟩ :=
    @reaches_end K peer remote start s w' _ _ hremote hasked hmissing missingIds_length hknown
  obtain ⟨moves, halong, rfl⟩ := (hw.trans hw').trans hw''
  exact ⟨_, ⟨hfresh, hroom, 0, moves, halong, rfl, hover, hdrained.trans hqueue⟩, hdb⟩

/-- The peer has one record more than a lookup takes ids. -/
def fullStock : SignatureDatabase :=
  stock (List.range 257) List.nodup_range fun _ hi => (List.mem_range.mp hi).trans (by decide)

def heldStock (k : ℕ) : SignatureDatabase :=
  stock ((List.range 257).erase k) (List.nodup_range.erase k) fun _ hi =>
    (List.mem_range.mp (List.mem_of_mem_erase hi)).trans (by decide)

/-- A node that has just loaded all records of the peer but one. -/
def heldEngine (k : ℕ) : Engine where
  actor := .start ⟨[1]⟩ (ReplayState.default.loadPersistentState []
    ((heldStock k).records.rows.map Row.recordId)) false none 0
  db := heldStock k
  reports := []

lemma length_fullStock : (listing fullStock 0 0).length = 257 := by
  unfold listing fullStock
  rw [length_listedIds_stock, List.length_range]

lemma mem_fullStock {id : RecordId} (h : id ∈ listing fullStock 0 0) :
    ∃ i < 257, (stockRecord i).recordId = id := by
  obtain ⟨i, hi, hid⟩ := mem_listedIds_stock.mp h
  exact ⟨i, List.mem_range.mp hi, hid⟩

variable {k : ℕ}

lemma held_of_first (hlast : (listing fullStock 0 0)[256]? = some (stockRecord k).recordId)
    {rid : RecordId} (h : rid ∈ (listing fullStock 0 0).take MAX_REQUESTED_RECORDS) :
    Has (heldStock k) rid := by
  obtain ⟨i, hi, rfl⟩ := mem_fullStock (List.mem_of_mem_take h)
  refine has_stock.mpr ⟨i, (List.mem_erase_of_ne ?_).mpr (List.mem_range.mpr hi), rfl⟩
  rintro rfl
  obtain ⟨j, hj, hget⟩ := List.mem_take_iff_getElem.mp h
  obtain ⟨hlt, hget'⟩ := List.getElem?_eq_some_iff.mp hlast
  have hsame : j = 256 := listedIds_nodup.getElem_inj_iff.mp (hget.trans hget'.symm)
  have hbound : j < MAX_REQUESTED_RECORDS := hj.trans_le (min_le_left ..)
  rw [hsame] at hbound
  exact absurd hbound (by decide)

lemma has_heldStock {rid : RecordId} (h : Has (heldStock k) rid) :
    ∃ i < 257, i ≠ k ∧ (stockRecord i).recordId = rid := by
  unfold heldStock at h
  obtain ⟨i, hi, hid⟩ := has_stock.mp h
  obtain ⟨hne, hi⟩ := List.nodup_range.mem_erase_iff.mp hi
  exact ⟨i, List.mem_range.mp hi, hne, hid⟩

lemma lacking_last (hk : k < 257) : Lacking fullStock 0 (heldEngine k) (stockRow k) := by
  refine ⟨List.mem_filter.mpr ⟨mem_stock.mpr ⟨k, List.mem_range.mpr hk, rfl⟩, stock_active⟩, ?_⟩
  intro hhas
  obtain ⟨i, hi, hne, hid⟩ := has_heldStock hhas
  exact hne (stock_id_injective (hi.trans (by decide)) (hk.trans (by decide)) hid)

lemma sound_heldEngine : Sound fullStock (heldEngine k) := by
  have hkept : WellKept (heldStock k) := by
    unfold heldStock
    exact wellKept_stock
  have hagree : Agree fullStock (heldStock k) := by
    unfold fullStock heldStock
    exact agree_stock
  exact ⟨hkept, hagree, nofun, nofun, rfl⟩

lemma few_fullStock : (starts (inventoryRows fullStock 0)).card ≤ MAX_BUCKETS :=
  (Finset.card_le_card starts_stock).trans (by decide)

lemma collisionFree_held (hk : k < 257) : ∀ b ∈ starts (inventoryRows fullStock 0),
    CollisionFree stockPrimitives
      {idBytes (bucketIds fullStock 0 b), idBytes (bucketIds (heldStock k) 0 b)} := by
  intro b hb
  obtain rfl := Finset.mem_singleton.mp (starts_stock hb)
  have hheld : ((List.range 257).erase k).length = 256 := by
    rw [List.length_erase_of_mem (List.mem_range.mpr hk), List.length_range]
  refine collisionFree_stock ?_
  rw [fullStock, heldStock, length_bucketIds_stock, length_bucketIds_stock, List.length_range, hheld]
  decide

/-- A completed session that begins with a record lacking stores none of those that are lacking:
the lookup of a page of 257 ids fails, so the 256 ids that are asked for are all held. -/
theorem held_page_stalls : ¬ ∀ (K : Primitives) (peer : PeerId) (remote : SignatureDatabase)
    (start : Int64) (s s' : Engine), WellKept remote →
    (starts (inventoryRows remote start)).card ≤ MAX_BUCKETS → Sound remote s →
    (∃ row, Lacking remote start s row) → Session K peer remote start s s' →
      ∃ row, Lacking remote start s row ∧ Has s'.db row.recordId := by
  intro hprogress
  have hlong : MAX_REQUESTED_RECORDS < (listing fullStock 0 0).length := by
    rw [length_fullStock]
    decide
  obtain ⟨k, hk, hid⟩ := mem_fullStock (List.getElem_mem hlong)
  have hlast : (listing fullStock 0 0)[256]? = some (stockRecord k).recordId :=
    List.getElem?_eq_some_iff.mpr ⟨hlong, hid.symm⟩
  have hlacking := lacking_last hk
  have hmissing := @missingIds_long (heldEngine k).db 0 _ hlong
  have hdiffers : differingBuckets (inventory stockPrimitives (heldEngine k).db 0)
      (inventory stockPrimitives fullStock 0) = [0] := by
    have hbucket : bucketStart (stockRow k).createdAt = 0 := (by decide : bucketStart 0 = 0)
    have hrow := (List.mem_filter.mp hlacking.1).1
    have hmem := differs_of_lacking few_fullStock hrow stock_active
      (collisionFree_held hk _ (bucketStart_mem hrow stock_active)) hlacking.2
    rw [hbucket] at hmem
    exact differing_stock hmem
  obtain ⟨s', hsession, hdb⟩ := @session_stalls stockPrimitives samplePeer fullStock 0 (heldEngine k)
    0 wellKept_stock rfl (Nat.zero_lt_succ 3) rfl (collisionFree_held hk) hdiffers
    (by rw [length_fullStock]; decide)
    (by
      rw [hmissing]
      refine List.ne_nil_of_length_pos ?_
      rw [List.length_take_of_le hlong.le]
      decide)
    (by
      intro rid hrid
      rw [hmissing] at hrid
      have hhas := held_of_first hlast hrid
      exact ⟨ActiveRecordFilter.contains_load (.inl hhas), hhas⟩)
  obtain ⟨row, hrow, hhas⟩ := hprogress stockPrimitives samplePeer fullStock 0 (heldEngine k) s'
    wellKept_stock few_fullStock sound_heldEngine ⟨_, hlacking⟩ hsession
  rw [hdb] at hhas
  exact hrow.2 hhas

end Protonet.SyncStall
