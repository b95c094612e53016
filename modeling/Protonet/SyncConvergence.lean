import Protonet.Stock
import Protonet.SyncProgress

namespace Protonet.SyncConvergence
open MachineInt StepRun Postcard Record RecordIdentity Database Worker Sync Queries Swarm
  Persistence Paging Listing InventoryDigests RemoteRecords SyncWorld SyncProgress Stock Blocking
  DatabaseBatch

structure Underway (K : Primitives) (peer : PeerId) (remote : SignatureDatabase) (start : Int64)
    (row : Row) (i : ℕ) (w : World) : Prop where
  sound : Sound remote w.engine
  inStep : InStep (Fair K peer remote start (bucketStart row.createdAt)
    (Held w.engine row.recordId)) peer (w.exchange peer)
  chased : Held w.engine row.recordId ∨
    Chased (Pursues remote start row i) (bucketStart row.createdAt) (w.exchange peer)

variable {K : Primitives} {peer : PeerId} {remote : SignatureDatabase} {start now : Int64}
  {row : Row} {i : ℕ} {w : World} {s : Engine} {c : Clock} {id : RequestId}

lemma underway_answer (h : Underway K peer remote start row i w)
    (hsmooth : Smooth K remote start w (.answer id now)) :
    Underway K peer remote start row i (w.step K peer remote (.answer id now)) := by
  rcases hs : w.flight.lookup id with _ | (request | _ | _ | _ | _)
  case some.asked =>
    have hfair := h.inStep.fair id _ hs
    rw [step_answer hs]
    refine ⟨h.sound, ?_, h.chased.imp_right fun hc => hc.put hs fun hp => hp⟩
    exact h.inStep.put (mem_of_lookup hs) ⟨hfair, now, hsmooth, rfl⟩ (fun _ _ => rfl)
      fun request hr => h.inStep.pending id _ hs request hr
  all_goals
    have hstep : w.step K peer remote (.answer id now) = w := by simp only [World.step, hs]
    rwa [hstep]

lemma underway_receive_inventory (h : Underway K peer remote start row i w)
    {response : SyncResponse} (hs : w.flight.lookup id = some (.answered .getInventory response)) :
    Underway K peer remote start row i (w.step K peer remote (.receive id c)) := by
  obtain ⟨-, now, hsteady, rfl⟩ := h.inStep.fair id _ hs
  have hpending : w.engine.actor.cleared.pendingSync.lookup id = some (.inventory peer) :=
    h.inStep.pending id _ hs _ rfl
  obtain ⟨new, hqueue, hnew, hmode⟩ := @handleSyncResponse_queue K peer w.engine.actor.cleared c id
    (answer K remote .getInventory now)
  have hnone : ∀ q ∈ new, ComesFrom remote q.record := by
    intro q hq
    obtain ⟨records, hrecords, -⟩ := hnew q hq
    cases hrecords
  obtain ⟨hsound, hheld⟩ := h.sound.turn hqueue hnone hmode
  have hx := @exchange_inventoryResponse K w.engine.actor c peer (w.flight.erase id) id
    (inventory K remote now) hpending (if_pos inventory_length)
  have hstep : (w.step K peer remote (.receive id c)).exchange peer =
      { w.exchange peer with
        pending := w.engine.actor.pendingSync.erase id
        flight := w.flight.insert id (.comparingInventory (inventory K remote now)) } := by
    rw [step_receive hs]
    refine hx.trans ?_
    rw [← insert_erase w.flight id]
    rfl
  have hengine : (w.step K peer remote (.receive id c)).engine = { w.engine with
      actor := w.engine.actor.cleared.handleSyncResponse K peer id
        (answer K remote .getInventory now) c } := by
    rw [step_receive hs]
    rfl
  refine ⟨hengine ▸ hsound, ?_, ?_⟩
  · rw [hengine, hstep]
    refine (h.inStep.mono fun id stage => Fair.mono (hheld _)).put (mem_of_lookup hs)
      ⟨now, hsteady, rfl⟩ (fun id' hne => AList.lookup_erase_ne hne) ?_
    rintro request ⟨⟩
  · rw [hengine, hstep]
    exact h.chased.imp (hheld _) fun hc => hc.put hs fun _ => trivial

lemma underway_receive_ids (hat : StandsAt remote start row i)
    (h : Underway K peer remote start row i w) {b : Int64} {cursor : Option RecordId}
    {limit : UInt16} {response : SyncResponse}
    (hs : w.flight.lookup id = some (.answered (.getRecordIds b cursor limit) response)) :
    Underway K peer remote start row i (w.step K peer remote (.receive id c)) := by
  obtain ⟨⟨rfl, k, hpage⟩, now, hsteady, rfl⟩ := h.inStep.fair id _ hs
  obtain ⟨response, hresponse⟩ : ∃ response, response = answer K remote (pageRequest b cursor) now :=
    ⟨_, rfl⟩
  have hanswer := hresponse.trans (answer_pageRequest (K := K) (b := b) hsteady)
  have hpending : w.engine.actor.cleared.pendingSync.lookup id = some (.ids peer b) :=
    h.inStep.pending id _ hs _ rfl
  obtain ⟨new, hqueue, hnew, hmode⟩ := @handleSyncResponse_queue K peer w.engine.actor.cleared c id
    response
  have hnone : ∀ q ∈ new, ComesFrom remote q.record := by
    intro q hq
    obtain ⟨records, hrecords, -⟩ := hnew q hq
    rw [hanswer] at hrecords
    cases hrecords
  obtain ⟨hsound, hheld⟩ := h.sound.turn hqueue hnone hmode
  have hx := @exchange_idsResponse K w.engine.actor c peer (w.flight.erase id) id b
    (pageAt remote start b cursor).1 (pageAt remote start b cursor).2 hpending pageAt_bounds
  have hstep : (w.step K peer remote (.receive id c)).exchange peer =
      { w.exchange peer with
        pending := w.engine.actor.pendingSync.erase id
        flight := w.flight.insert id (.comparingIds b (pageAt remote start b cursor).1
          (pageAt remote start b cursor).2) } := by
    rw [step_receive hs]
    rw [show answer K remote (.getRecordIds b cursor (UInt16.ofNat MAX_IDS_PER_RESPONSE)) now =
      response from hresponse.symm, hanswer]
    refine hx.trans ?_
    rw [← insert_erase w.flight id]
    rfl
  have hengine : (w.step K peer remote (.receive id c)).engine = { w.engine with
      actor := w.engine.actor.cleared.handleSyncResponse K peer id response c } := by
    rw [step_receive hs, hresponse]
    rfl
  refine ⟨hengine ▸ hsound, ?_, ?_⟩
  · rw [hengine, hstep]
    refine (h.inStep.mono fun id stage => Fair.mono (hheld _)).put (mem_of_lookup hs)
      ⟨k, cursor, hpage, rfl, rfl⟩ (fun id' hne => AList.lookup_erase_ne hne) ?_
    rintro request ⟨⟩
  · rw [hengine, hstep]
    exact h.chased.imp (hheld _) fun hc => hc.put hs (pursues_page hat)

/-- Requested records are taken in: what was lacking of them is queued. -/
lemma underway_receive_records (hremote : WellKept remote) (hrow : row ∈ remote.records.rows)
    (hactive : Row.active start row = true) (h : Underway K peer remote start row i w)
    {ids : List RecordId} {response : SyncResponse}
    (hs : w.flight.lookup id = some (.answered (.getRecords ids) response))
    (hsmooth : Smooth K remote start w (.receive id c)) :
    Underway K peer remote start row i (w.step K peer remote (.receive id c)) := by
  simp only [Smooth, hs] at hsmooth
  obtain ⟨⟨hne, hlen⟩, now, hsteady, hresponse⟩ := h.inStep.fair id _ hs
  obtain ⟨records, hanswer, hbounds, hfound, hall⟩ :=
    @answer_getRecords K remote now ids hne hlen
  rw [hanswer] at hresponse
  subst hresponse
  have hpending : w.engine.actor.cleared.pendingSync.lookup id = some (.records peer) :=
    h.inStep.pending id _ hs _ rfl
  obtain ⟨new, hqueue, hnew, hmode⟩ := @handleSyncResponse_queue K peer w.engine.actor.cleared c id
    (.records records)
  have hcome : ∀ q ∈ new, ComesFrom remote q.record := by
    intro q hq
    obtain ⟨records', hrecords, hmem⟩ := hnew q hq
    obtain rfl := SyncResponse.records.inj hrecords
    obtain ⟨r, hr, -, -, hdecode⟩ := hfound _ hmem
    exact (comesFrom_of_decode hremote hr hdecode).1
  obtain ⟨hsound, hheld⟩ := h.sound.turn hqueue hcome hmode
  have hpumps := @exchange_recordsResponse K w.engine.actor c peer (w.flight.erase id) id
    records hpending (if_pos hbounds)
  rw [step_receive hs]
  have hinStep := h.inStep.mono fun id stage => Fair.mono (hheld row.recordId)
  have hsettled := hinStep.settle (mem_of_lookup hs) (w.engine.actor.pendingSync.erase id)
    fun id' hne => AList.lookup_erase_ne hne
  refine ⟨hsound, hsettled.pumps fair_first hpumps, ?_⟩
  rcases h.chased with hh | hc
  · exact .inl (hheld _ hh)
  · rcases hc.settle hs (w.engine.actor.pendingSync.erase id) with hpursues | hc
    · obtain ⟨record, hdecode, -⟩ := hremote.decode hrow
      have hmem := hall row hrow hpursues ((hsteady row hrow).trans hactive) record hdecode
      have hholds := handleSyncResponse_holds hpending hbounds h.sound.safe hsmooth record hmem
      rw [(comesFrom_of_decode hremote hrow hdecode).2] at hholds
      exact .inl hholds
    · exact .inr (hc.pumps hsettled fair_first pursues_first hpumps)

lemma underway_receive (hremote : WellKept remote) (hrow : row ∈ remote.records.rows)
    (hactive : Row.active start row = true) (hat : StandsAt remote start row i)
    (h : Underway K peer remote start row i w)
    (hsmooth : Smooth K remote start w (.receive id c)) :
    Underway K peer remote start row i (w.step K peer remote (.receive id c)) := by
  rcases hs : w.flight.lookup id with _ | (_ | ⟨request, response⟩ | _ | _ | _)
  case some.answered =>
    cases request with
    | getInventory => exact underway_receive_inventory h hs
    | getRecordIds b cursor limit => exact underway_receive_ids hat h hs
    | getRecords ids => exact underway_receive_records hremote hrow hactive h hs hsmooth
  all_goals
    have hstep : w.step K peer remote (.receive id c) = w := by simp only [World.step, hs]
    rwa [hstep]

/-- A comparison finds the bucket of what is lacking, or the lacking id on its page. -/
lemma underway_compare (hfew : (starts (inventoryRows remote start)).card ≤ MAX_BUCKETS)
    (hrow : row ∈ remote.records.rows) (hactive : Row.active start row = true)
    (hfirst : i % MAX_IDS_PER_RESPONSE < MAX_REQUESTED_RECORDS)
    (h : Underway K peer remote start row i w)
    (hsmooth : Smooth K remote start w (.compare id now)) :
    Underway K peer remote start row i (w.step K peer remote (.compare id now)) := by
  rcases hs : w.flight.lookup id with _ | (_ | _ | summary | ⟨b, ids, nextCursor⟩ | _)
  case some.comparingInventory =>
    obtain ⟨there, hsteady, rfl⟩ := h.inStep.fair id _ hs
    rw [step_compare hs rfl]
    have hfound : bucketStart row.createdAt ∈
        differingBuckets (inventory K w.engine.db now) (inventory K remote there) ∨
          Held w.engine row.recordId := by
      by_cases hlack : Has w.engine.db row.recordId
      · exact .inr (.inl hlack)
      · left
        have hsame := starts_card_steady hsteady
        simp only [Smooth, hs] at hsmooth
        have hcf := hsmooth (bucketStart row.createdAt) (bucketStart_mem hrow hactive)
        have hids : bucketIds remote there (bucketStart row.createdAt) =
            bucketIds remote start (bucketStart row.createdAt) := by
          rw [bucketIds, hsame, bucketIds]
        rw [← hids] at hcf
        exact differs_of_lacking (hsame ▸ hfew) hrow ((hsteady row hrow).trans hactive) hcf hlack
    refine ⟨h.sound, ?_, h.chased.imp_right fun hc => hc.put hs fun _ => trivial⟩
    exact h.inStep.put (mem_of_lookup hs) ⟨rfl, rfl, hfound⟩ (fun _ _ => rfl) (by rintro _ ⟨⟩)
  case some.comparingIds =>
    obtain ⟨k, cursor, hpage, rfl, rfl⟩ := h.inStep.fair id _ hs
    rw [step_compare hs rfl]
    refine ⟨h.sound, ?_, ?_⟩
    · exact h.inStep.put (mem_of_lookup hs)
        ⟨rfl, rfl, missingIds_length, fun _ hc => ⟨k + 1, onPage_next hpage hc⟩⟩
        (fun _ _ => rfl) (by rintro _ ⟨⟩)
    · by_cases hheld : Held w.engine row.recordId
      · exact .inl hheld
      · refine h.chased.imp_right fun hc => hc.put hs fun hp => ?_
        rcases hp with ⟨-, hget⟩ | hnext
        · exact .inl (mem_missingIds h.sound.kept (fun hh => hheld (.inl hh)) hget hfirst)
        · exact .inr hnext
  all_goals
    have hstep : w.step K peer remote (.compare id now) = w := by
      simp only [World.step, hs, Option.bind_none, Option.bind_some, comparison]
    rwa [hstep]

/-- The result of a comparison is asked for before anything of it is dropped. -/
lemma underway_act (h : Underway K peer remote start row i w) :
    Underway K peer remote start row i (w.step K peer remote (.act id c)) := by
  rcases hs : w.flight.lookup id with _ | (_ | _ | _ | _ | action)
  case some.compared =>
    have hid := mem_of_lookup hs
    have hfair := h.inStep.fair id _ hs
    obtain ⟨g, hg⟩ := Option.ne_none_iff_exists'.mp (h.inStep.opened hid)
    have hagenda : w.engine.actor.agenda peer = some g := hg
    have hsettled := h.inStep.settle hid w.engine.actor.pendingSync fun _ _ => rfl
    have hopen : (Exchange.settle id (w.exchange peer)).agenda ≠ none := by
      rw [Exchange.settle, hg]
      exact Option.some_ne_none _
    rw [step_act hs]
    cases action with
    | inventoryCompared p id' differing =>
      obtain ⟨rfl, rfl, hfound⟩ := hfair
      obtain ⟨hsound, hheld⟩ := h.sound.still
        (@core_inventoryCompared w.engine.actor.cleared c p id' differing)
      have hpumps := @exchange_inventoryCompared w.engine.actor c p (w.flight.erase id')
        id' differing
      rw [hagenda] at hpumps
      have hqueued := ((hsettled.mono fun id stage => Fair.mono (hheld row.recordId)).requeue
        (g := g.settle id') (by rw [Exchange.settle, hg]; rfl) differing)
      refine ⟨hsound, hqueued.pumps fair_first hpumps, ?_⟩
      rcases hfound with hmem | hh
      · exact .inr (Chased.pumps (.inl ⟨_, rfl, hmem⟩) hqueued fair_first pursues_first hpumps)
      · exact .inl (hheld _ hh)
    | idsCompared p id' b missing nextCursor =>
      obtain ⟨rfl, rfl, hlen, hnext⟩ := hfair
      obtain ⟨hsound, hheld⟩ := h.sound.still
        (@core_idsCompared w.engine.actor.cleared c p id' b missing nextCursor)
      have hpumps := @exchange_idsCompared w.engine.actor c p (w.flight.erase id') id' b
        missing nextCursor
      have hdone := hsettled.mono fun id stage => Fair.mono (hheld row.recordId)
      have hfetched := hdone.fetch hopen missing fun hne => ⟨hne, hlen⟩
      have hgone := hfetched.goOn b nextCursor fun cursor hc => ⟨rfl, hnext cursor hc⟩
      refine ⟨hsound, hgone.pumps fair_first hpumps, ?_⟩
      refine h.chased.imp (hheld _) fun hc => Chased.pumps ?_ hgone fair_first pursues_first hpumps
      rcases hc.settle hs w.engine.actor.pendingSync with (hmem | ⟨cursor, hmem, rfl, hreach⟩) | hc
      · refine Chased.goOn ?_ hfetched
        unfold Exchange.fetch
        rw [if_pos (List.ne_nil_of_mem hmem)]
        exact chased_ask hmem
      · obtain rfl := Option.mem_def.mp hmem
        exact chased_goOn (fetch_agenda hopen) ⟨rfl, hreach⟩
      · exact (hc.fetch hdone).goOn hfetched
    | sendResponse => exact hfair.elim
    | maintenance => exact hfair.elim
  all_goals
    have hstep : w.step K peer remote (.act id c) = w := by simp only [World.step, hs]
    rwa [hstep]

lemma underway_work (h : Underway K peer remote start row i w) {n : ℕ}
    {readings : StorageReadings} (hsmooth : Smooth K remote start w (.work n readings)) :
    Underway K peer remote start row i (w.step K peer remote (.work n readings)) := by
  obtain ⟨hn, hgate⟩ := hsmooth
  have hcome : ∀ q ∈ w.engine.batch n, ComesFrom remote q.record :=
    fun q hq => h.sound.comes q (List.mem_of_mem_take hq)
  obtain ⟨hgrows, hhas, hclean⟩ := grows_work (K := K) h.sound.kept h.sound.agree hcome
    ((batch_length n).trans hn) hgate
  have hheld : ∀ rid, Held w.engine rid → Held (w.engine.work K n readings) rid := by
    intro rid hr
    rcases hr with hr | hr
    · exact .inl (hgrows.has rid hr)
    · obtain ⟨q, hq, rfl⟩ := List.mem_map.mp hr
      rw [← List.take_append_drop n w.engine.actor.queue] at hq
      rcases List.mem_append.mp hq with hq | hq
      · exact .inl (hhas q hq)
      · exact .inr (List.mem_map.mpr ⟨q, hq, rfl⟩)
  refine ⟨⟨hgrows.kept, hgrows.agree, fun q hq => h.sound.comes q (List.mem_of_mem_drop hq), ?_,
    h.sound.safe⟩, h.inStep.mono fun id stage => Fair.mono (hheld _), h.chased.imp_left (hheld _)⟩
  intro event he
  rcases List.mem_append.mp he with he | he
  · exact h.sound.clean event he
  · exact hclean event he

/-- Reports touch neither the queue nor the exchange. -/
lemma underway_report (h : Underway K peer remote start row i w) {publication : Option String} :
    Underway K peer remote start row i (w.step K peer remote (.report c publication)) := by
  rcases hr : w.engine.reports with _ | ⟨event, reports⟩
  · have hstep : w.step K peer remote (.report c publication) = w := by
      simp [World.step, Engine.report, hr]
    rwa [hstep]
  · obtain ⟨a, ha⟩ : ∃ a, a = w.engine.actor.step K (c, .persisted event publication) := ⟨_, rfl⟩
    have hstep : w.step K peer remote (.report c publication) =
        { w with engine := { w.engine with actor := a, reports } } := by
      simp [World.step, Engine.report, hr, ha]
    have hfailed : event.isFailed = false := h.sound.clean event (by simp [hr])
    obtain ⟨replay, reason, hcore⟩ :=
      @core_handlePersisted K w.engine.actor.cleared c event publication
    have hqueue : a.queue = w.engine.actor.queue := by
      rw [ha]
      exact congrArg Core.queue hcore
    have hsafe : a.storageSafetyMode = false := by
      rw [ha, mode_handlePersisted publication c hfailed, h.sound.safe]
    have hsame := @exchange_handlePersisted K w.engine.actor c peer ∅ event publication
    have hexchange : (w.step K peer remote (.report c publication)).exchange peer =
        w.exchange peer := by
      rw [hstep, ha]
      exact congrArg (fun x : Exchange => { x with flight := w.flight }) hsame
    have hheld : ∀ rid, Held w.engine rid →
        Held { w.engine with actor := a, reports } rid := by
      intro rid hr
      unfold Held at hr ⊢
      rwa [hqueue]
    refine ⟨?_, ?_, ?_⟩
    · rw [hstep]
      refine ⟨h.sound.kept, h.sound.agree, fun q hq => h.sound.comes q ?_, fun e he => ?_, hsafe⟩
      · rwa [← hqueue]
      · exact h.sound.clean e (by simp [hr, he])
    · rw [hexchange, hstep]
      exact h.inStep.mono fun id stage => Fair.mono (hheld _)
    · rw [hexchange, hstep]
      exact h.chased.imp_left (hheld _)

lemma underway_start {now : ℕ} (hfresh : s.actor.syncSessions.lookup peer = none)
    (hroom : s.actor.syncSessions.entries.length < MAX_SIMULTANEOUS_SYNC_PEERS)
    (h : Sound remote s) : Underway K peer remote start row i (.start peer s now) := by
  have hx := @exchange_startSync s.actor peer ∅ now hfresh hroom
  obtain ⟨hsound, -⟩ := h.still (core_startSync (a := s.actor.cleared) peer now)
  have hstart : (World.start peer s now).exchange peer = .ask peer .getInventory
      { s.actor.cleared.exchange peer ∅ with agenda := some ⟨[], ∅⟩ } := hx
  have hempty : InStep (Fair K peer remote start (bucketStart row.createdAt)
      (Held (World.start peer s now).engine row.recordId)) peer
      { s.actor.cleared.exchange peer ∅ with agenda := some ⟨[], ∅⟩ } := by
    refine ⟨fun g hg id => ?_, nofun, nofun, nofun, nofun⟩
    obtain rfl := Option.mem_some_iff.mp hg
    exact iff_of_false (Finset.notMem_empty id) (AList.notMem_empty id)
  refine ⟨hsound, ?_, .inr ?_⟩
  · rw [hstart]
    exact hempty.ask nofun trivial
  · rw [hstart]
    exact chased_ask (show Pursues remote start row i (.asked .getInventory) from trivial)

lemma underway_step (hremote : WellKept remote)
    (hfew : (starts (inventoryRows remote start)).card ≤ MAX_BUCKETS)
    (hrow : row ∈ remote.records.rows) (hactive : Row.active start row = true)
    (hat : StandsAt remote start row i)
    (hfirst : i % MAX_IDS_PER_RESPONSE < MAX_REQUESTED_RECORDS) {move : Move}
    (h : Underway K peer remote start row i w) (hsmooth : Smooth K remote start w move) :
    Underway K peer remote start row i (w.step K peer remote move) := by
  cases move with
  | answer id now => exact underway_answer h hsmooth
  | receive id c => exact underway_receive hremote hrow hactive hat h hsmooth
  | compare id now => exact underway_compare hfew hrow hactive hfirst h hsmooth
  | act id c => exact underway_act h
  | work n readings => exact underway_work h hsmooth
  | report c publication => exact underway_report h

lemma step_has {move : Move} {rid : RecordId} (h : Has w.engine.db rid) :
    Has (w.step K peer remote move).engine.db rid := by
  cases move with
  | work n readings => exact has_work h
  | report c publication =>
    rcases hr : w.engine.reports with _ | ⟨event, reports⟩
    · simpa [World.step, Engine.report, hr] using h
    · simpa [World.step, Engine.report, hr] using h
  | _ =>
    unfold World.step
    dsimp only
    split <;> exact h

lemma session_has {s' : Engine} (h : Session K peer remote start s s') {rid : RecordId}
    (hid : Has s.db rid) : Has s'.db rid := by
  obtain ⟨-, -, now, moves, halong, rfl, -, -⟩ := h
  exact run_invariant (I := fun w => Has w.engine.db rid) hid halong fun _ _ hw _ => step_has hw

/-- A completed session stores every record offered to it. -/
lemma session_stores {s' : Engine} (hremote : WellKept remote)
    (hfew : (starts (inventoryRows remote start)).card ≤ MAX_BUCKETS) (hs : Sound remote s)
    (h : Session K peer remote start s s') (hrow : row ∈ activeRows remote start)
    (hoffered : Offered remote start row) : Sound remote s' ∧ Has s'.db row.recordId := by
  obtain ⟨hfresh, hroom, now, moves, halong, rfl, hover, hdrained⟩ := h
  obtain ⟨i, hat, hfirst⟩ := hoffered
  obtain ⟨hmem, hactive⟩ := List.mem_filter.mp hrow
  have hend : Underway K peer remote start row i
      (run (World.step K peer remote) (.start peer s now) moves) :=
    run_invariant (underway_start hfresh hroom hs) halong fun w move hw hm =>
      underway_step hremote hfew hmem hactive hat hfirst hw hm
  refine ⟨hend.sound, ?_⟩
  rcases hend.chased with (hstored | hqueued) | hchased
  · exact hstored
  · rw [hdrained] at hqueued
    simp at hqueued
  · refine absurd ?_ (hchased.opened hend.inStep)
    rw [World.exchange, Actor.agenda, hover]
    rfl

def Sessions (K : Primitives) (peer : PeerId) (remote : SignatureDatabase) (start : Int64) :
    ℕ → Engine → Engine → Prop
  | 0, s, s' => s' = s
  | n + 1, s, s' => ∃ t, Session K peer remote start s t ∧ Sessions K peer remote start n t s'

lemma sessions_has {n : ℕ} {s s' : Engine} (h : Sessions K peer remote start n s s')
    {rid : RecordId} (hid : Has s.db rid) : Has s'.db rid := by
  induction n generalizing s with
  | zero => rwa [show s' = s from h]
  | succ n ih =>
    obtain ⟨t, ht, hrest⟩ := h
    exact ih hrest (session_has ht hid)

lemma sessions_sound {n : ℕ} {s s' : Engine} (hremote : WellKept remote)
    (hfew : (starts (inventoryRows remote start)).card ≤ MAX_BUCKETS)
    (hrow : row ∈ activeRows remote start) (hoffered : Offered remote start row)
    (hs : Sound remote s) (h : Sessions K peer remote start n s s') : Sound remote s' := by
  induction n generalizing s with
  | zero => rwa [show s' = s from h]
  | succ n ih =>
    obtain ⟨t, ht, hrest⟩ := h
    exact ih (session_stores hremote hfew hs ht hrow hoffered).1 hrest

/-- An active record of the remote store that the local store lacks. -/
def Lacking (remote : SignatureDatabase) (start : Int64) (s : Engine) (row : Row) : Prop :=
  row ∈ activeRows remote start ∧ ¬ Has s.db row.recordId

/-- Among completed sessions, one that begins with a lacking record among the first 256 ids of its
page stores a lacking record; and if every lacking record stands there, the local store has every
active record of the remote one after any number of them. -/
theorem sessions_converge {K : Primitives} {peer : PeerId} {remote : SignatureDatabase}
    {start : Int64} {s : Engine} (hremote : WellKept remote)
    (hfew : (starts (inventoryRows remote start)).card ≤ MAX_BUCKETS) (hs : Sound remote s) :
    (∀ n t t', Sessions K peer remote start n s t → Session K peer remote start t t' →
      (∃ row, Lacking remote start t row ∧ Offered remote start row) →
        ∃ row, Lacking remote start t row ∧ Has t'.db row.recordId) ∧
    ((∀ row, Lacking remote start s row → Offered remote start row) →
      ∀ n t, Sessions K peer remote start (n + 1) s t →
        ∀ row ∈ activeRows remote start, Has t.db row.recordId) := by
  constructor
  · rintro n t t' hbefore hsession ⟨row, hlacking, hoffered⟩
    have ht := sessions_sound hremote hfew hlacking.1 hoffered hs hbefore
    exact ⟨row, hlacking, (session_stores hremote hfew ht hsession hlacking.1 hoffered).2⟩
  · rintro hall n t ⟨s', hfirst, hrest⟩ row hrow
    refine sessions_has hrest ?_
    by_cases hheld : Has s.db row.recordId
    · exact session_has hfirst hheld
    · exact (session_stores hremote hfew hs hfirst hrow (hall row ⟨hrow, hheld⟩)).2

def oneRecord : SignatureDatabase := stock [0] (List.nodup_singleton 0) (by decide)

/-- A node without records that is connected to the peer. -/
def emptyEngine : Engine where
  actor := { sampleNode with
    connections := sampleNode.connections.connected samplePeer
      (.listener [.ip4 ⟨1, 2, 3, 4⟩, .tcp 4001]) 0 }
  db := .open false
  reports := []

def oneRecordMoves : List Move :=
  [.answer 0 0, .receive 0 (.still 0 0), .compare 0 0, .act 0 (.still 0 0),
    .answer 1 0, .receive 1 (.still 0 0), .compare 1 0, .act 1 (.still 0 0),
    .answer 2 0, .receive 2 (.still 0 0), .work 100 sampleReadings]

def oneRecordEnd : Engine :=
  (run (World.step stockPrimitives samplePeer oneRecord) (.start samplePeer emptyEngine 0)
    oneRecordMoves).engine

lemma oneRecord_session : Session stockPrimitives samplePeer oneRecord 0 emptyEngine oneRecordEnd :=
  ⟨by decide +kernel, by decide +kernel, 0, oneRecordMoves, by decide +kernel, rfl,
    by decide +kernel, by decide +kernel⟩

lemma oneRecord_lacking : Lacking oneRecord 0 emptyEngine (stockRow 0) := by
  refine ⟨?_, ?_⟩
  · decide +kernel
  · decide +kernel

theorem oneRecord_converges :
    (∃ row, Lacking oneRecord 0 emptyEngine row ∧ Has oneRecordEnd.db row.recordId) ∧
      ∀ row ∈ activeRows oneRecord 0, Has oneRecordEnd.db row.recordId := by
  have hoffered : Offered oneRecord 0 (stockRow 0) :=
    ⟨0, by unfold StandsAt; decide +kernel, by decide⟩
  have hall : ∀ row, Lacking oneRecord 0 emptyEngine row → Offered oneRecord 0 row := by
    intro row hlacking
    obtain ⟨i, hi, rfl⟩ := mem_stock.mp (List.mem_filter.mp hlacking.1).1
    rwa [List.mem_singleton.mp hi]
  have hfew : (starts (inventoryRows oneRecord 0)).card ≤ MAX_BUCKETS :=
    (Finset.card_le_card starts_stock).trans (by decide)
  have hsound : Sound oneRecord emptyEngine := ⟨nofun, nofun, nofun, nofun, rfl⟩
  obtain ⟨hone, hmany⟩ := @sessions_converge stockPrimitives samplePeer oneRecord 0 emptyEngine
    wellKept_stock hfew hsound
  exact ⟨hone 0 emptyEngine oneRecordEnd rfl oneRecord_session ⟨_, oneRecord_lacking, hoffered⟩,
    hmany hall 0 oneRecordEnd ⟨_, oneRecord_session, rfl⟩⟩

end Protonet.SyncConvergence
