import Protonet.Mutations
import Protonet.StoreIntegrity

namespace Protonet.Provenance
open StepRun Postcard Record RecordIdentity Database Replay Worker Swarm RecordCreation StoreRows
  GossipVerdicts StoreIntegrity
open IdentityReset (nextLocalSequence clearIdentityState counter)

def brought : Event → List FlaggedFileRecord
  | .gossip _ _ data => (FlaggedFileRecord.decode data).toOption.toList
  | .syncResponse _ _ (.records records) => records
  | .signedRecord (.ok record) => [record]
  | _ => []

variable {K : Primitives} {S : Signer K}

def received : Turn S → List FlaggedFileRecord
  | .move _ (.swarm e _) _ => brought e
  | _ => []

def made (s : Node K S) : Turn S → Option FlaggedFileRecord
  | .sign createdAtUnixMs sha256 blake3 fileSize fileName =>
    match nextLocalSequence s.pipeline.db (peerId s.keypair) with
    | .error _ => none
    | .ok (sequence, _) =>
      (create K S s.keypair sequence createdAtUnixMs sha256 blake3 fileSize fileName).toOption
  | _ => none

/-- What a turn of a node can be. -/
inductive Takes (s : Node K S) : Turn S → Node K S → Prop
  | event {c e hexternal hdirect} : Takes s (.move c (.swarm e hexternal) hdirect)
      { s with pipeline := { s.pipeline with actor := s.pipeline.actor.step K (c, e) } }
  | take {c hdirect q rest} (hqueue : s.pipeline.actor.queue = q :: rest)
      (hroom : (s.pipeline.batch ++ [q]).length ≤ MAX_BATCH) :
      Takes s (.move c .take hdirect) { s with pipeline := { s.pipeline with
        actor := { s.pipeline.actor.cleared with queue := rest }
        batch := s.pipeline.batch ++ [q]
        bounded := hroom } }
  | noTake {c hdirect} : Takes s (.move c .take hdirect) { s with pipeline := s.pipeline.quiet }
  | insert {c readings hdirect} : Takes s (.move c (.insert readings) hdirect) { s with
      pipeline := s.pipeline.step K (c, .insert readings)
      stored := s.stored ++ storedIn (work K s.pipeline.db readings s.pipeline.batch).1 }
  | broken {c error hdirect} : Takes s (.move c (.broken error) hdirect)
      { s with pipeline := s.pipeline.step K (c, .broken error) }
  | report {c publication hdirect event rest} (hreports : s.pipeline.reports = event :: rest) :
      Takes s (.move c (.report publication) hdirect) { s with pipeline := { s.pipeline with
        actor := s.pipeline.actor.step K (c, .persisted event publication)
        reports := rest } }
  | noReport {c publication hdirect} (hreports : s.pipeline.reports = []) :
      Takes s (.move c (.report publication) hdirect) { s with pipeline := s.pipeline.quiet }
  | sign {createdAtUnixMs sha256 blake3 fileSize fileName result db}
      (hdb : db = s.pipeline.db ∨
        ∃ n, nextLocalSequence s.pipeline.db (peerId s.keypair) = .ok (n, db))
      (hmade : made s (.sign createdAtUnixMs sha256 blake3 fileSize fileName) = result.toOption) :
      Takes s (.sign createdAtUnixMs sha256 blake3 fileSize fileName)
        { s.withDb db with signed := s.signed ++ [result] }
  | signLate {keypair n db} (hnext : nextLocalSequence s.pipeline.db (peerId keypair) = .ok (n, db)) :
      Takes s (.signLate keypair) (s.withDb db)
  | noSignLate {keypair} : Takes s (.signLate keypair) s
  | deliver {c result signed} (hsigned : s.signed = result :: signed) :
      Takes s (.deliver c) { s with
        pipeline := { s.pipeline with actor := s.pipeline.actor.step K (c, .signedRecord result) }
        signed }
  | noDeliver {c} (hsigned : s.signed = []) : Takes s (.deliver c) s
  | remove {hash removed db} (hremove : Removal.removeBlake3 s.pipeline.db hash = .ok (removed, db)) :
      Takes s (.removeBlake3 hash) (s.withDb db)
  | noRemove {hash} : Takes s (.removeBlake3 hash) s
  | expire {now} :
      Takes s (.cleanupExpired now) (s.withDb (Removal.cleanupExpired s.pipeline.db now).2)
  | reset {keypair boot} : Takes s (.resetIdentity keypair boot) (s.resetIdentity keypair boot)
  | restart {cleared killed keypair boot} : Takes s (.restart cleared killed keypair boot)
      (s.restart cleared killed keypair boot)
  | writeLeft {i n readings requests} (hleft : s.left[i]? = some requests) :
      Takes s (.writeLeft i n readings)
        { s.withDb (work K s.pipeline.db readings (requests.take (min n MAX_BATCH))).2 with
          left := s.left.eraseIdx i
          stored := s.stored ++
            storedIn (work K s.pipeline.db readings (requests.take (min n MAX_BATCH))).1 }
  | noWriteLeft {i n readings} : Takes s (.writeLeft i n readings) s

/-- The property holds of all records the node has stored or has on their way to the store. -/
structure Carries (P : FlaggedFileRecord → Prop) (s : Node K S) : Prop where
  stored : ∀ r ∈ s.stored, P r
  waiting : ∀ q ∈ s.pipeline.batch ++ s.pipeline.actor.queue, P q.record
  left : ∀ requests ∈ s.left, ∀ q ∈ requests, P q.record
  signed : ∀ r, .ok r ∈ s.signed → P r

variable {P Q : FlaggedFileRecord → Prop} {s : Node K S} {a : Actor} {c : Clock} {p : Pipeline}
  {db db' : SignatureDatabase} {r : FlaggedFileRecord}

lemma takes_move (s : Node K S) (c : Clock) (m : GossipVerdicts.Move) (hdirect : isDirect m = true) :
    Takes s (.move c m hdirect) (s.step (.move c m hdirect)) := by
  have hnone : s.stored ++ [] = s.stored := List.append_nil _
  cases m with
  | swarm e hexternal =>
    unfold Node.step storedBy
    dsimp only
    rw [hnone]
    exact .event
  | take =>
    unfold Node.step storedBy Pipeline.step
    dsimp only
    rw [hnone]
    rcases hqueue : s.pipeline.actor.queue with _ | ⟨q, rest⟩
    · exact .noTake
    · dsimp only
      have hrest : s.pipeline.actor.step K (c, .workerTook 1) =
          { s.pipeline.actor.cleared with queue := rest } := by
        change { s.pipeline.actor.cleared with queue := s.pipeline.actor.queue.drop 1 } = _
        rw [hqueue]
        rfl
      split_ifs
      · rw [hrest]
        exact .take hqueue _
      · exact .noTake
  | insert readings => exact .insert
  | broken error =>
    unfold Node.step storedBy
    dsimp only
    rw [hnone]
    exact .broken
  | report publication =>
    unfold Node.step storedBy Pipeline.step
    dsimp only
    rw [hnone]
    rcases hreports : s.pipeline.reports with _ | ⟨event, rest⟩
    · exact .noReport hreports
    · exact .report hreports
  | maintain db => cases hdirect

lemma takes_sign (s : Node K S) (createdAtUnixMs : Int64) (sha256 blake3 : Hash32)
    (fileSize : UInt64) (fileName : Option Text) :
    Takes s (.sign createdAtUnixMs sha256 blake3 fileSize fileName)
      (s.sign createdAtUnixMs sha256 blake3 fileSize fileName) := by
  unfold Node.sign
  rcases hnext : nextLocalSequence s.pipeline.db (peerId s.keypair) with error | ⟨sequence, db⟩
  · exact .sign (.inl rfl) (by rw [made, hnext]; rfl)
  · dsimp only
    rcases hcreate : create K S s.keypair sequence createdAtUnixMs sha256 blake3 fileSize fileName
      with error | record
    · refine .sign (.inr ⟨sequence, hnext⟩) ?_
      rw [made, hnext]
      dsimp only
      rw [hcreate]
      rfl
    · refine .sign (.inr ⟨sequence, hnext⟩) ?_
      rw [made, hnext]
      dsimp only
      rw [hcreate]
      rfl

lemma takes_step (s : Node K S) (turn : Turn S) : Takes s turn (s.step turn) := by
  cases turn with
  | move c m hdirect => exact takes_move s c m hdirect
  | sign createdAtUnixMs sha256 blake3 fileSize fileName => exact takes_sign s _ _ _ _ _
  | signLate keypair =>
    unfold Node.step Node.signLate
    dsimp only
    rcases hnext : nextLocalSequence s.pipeline.db (peerId keypair) with error | ⟨sequence, db⟩
    · exact .noSignLate
    · exact .signLate hnext
  | deliver c =>
    unfold Node.step Node.deliver
    dsimp only
    rcases hsigned : s.signed with _ | ⟨result, signed⟩
    · exact .noDeliver hsigned
    · exact .deliver hsigned
  | removeBlake3 hash =>
    unfold Node.step Node.removeBlake3
    dsimp only
    rcases hremove : Removal.removeBlake3 s.pipeline.db hash with error | ⟨removed, db⟩
    · exact .noRemove
    · exact .remove hremove
  | cleanupExpired now => exact .expire
  | resetIdentity keypair boot => exact .reset
  | restart cleared killed keypair boot => exact .restart
  | writeLeft i n readings =>
    unfold Node.step Node.writeLeft
    dsimp only
    rcases hleft : s.left[i]? with _ | requests
    · exact .noWriteLeft
    · exact .writeLeft hleft

lemma Carries.mono (h : Carries P s) (hPQ : ∀ r, P r → Q r) : Carries Q s where
  stored r hr := hPQ r (h.stored r hr)
  waiting q hq := hPQ _ (h.waiting q hq)
  left requests hrequests q hq := hPQ _ (h.left requests hrequests q hq)
  signed r hr := hPQ r (h.signed r hr)

/-- A request for a record of an event: one from the network is genuine and has a source, one from
the signer has none. -/
def Wanted (K : Primitives) (e : Event) (q : PersistRequest) : Prop :=
  q.record ∈ brought e ∧ (Genuine K q.record ∧ q.source ≠ none ∨
    e = .signedRecord (.ok q.record) ∧ q.source = none)

lemma wanted_of_turn {peer : PeerId} {id : RequestId} {response : Sync.SyncResponse}
    {t : SyncTurn} {q : PersistRequest} (ht : t ∈ a.responseTurns K id response c)
    (hq : q ∈ t.requests K c) : Wanted K (.syncResponse peer id response) q := by
  have hgenuine := requests_genuine hq
  obtain ⟨hrecord, hsource⟩ : q.record = t.record ∧ q.source ≠ none := by
    unfold SyncTurn.requests at hq
    split_ifs at hq
    · rw [List.mem_singleton.mp hq]
      exact ⟨rfl, Option.some_ne_none _⟩
    · cases hq
  refine ⟨?_, .inl ⟨hgenuine, hsource⟩⟩
  unfold Actor.responseTurns at ht
  split at ht
  · split_ifs at ht
    · cases ht
    · rw [hrecord]
      exact List.mem_of_mem_take (mem_syncTurns ht).2.1
  · cases ht

/-- An event of the loop adds requests for records it brings to the end of the queue. -/
lemma queue_grows {e : Event} (hexternal : isExternal e = true) :
    ∃ new, (a.step K (c, e)).queue = a.queue ++ new ∧ ∀ q ∈ new, Wanted K e q := by
  obtain ⟨ops, hdeed, -⟩ := (@handle_does K a.cleared c e).deed
  change ∃ new, (a.cleared.handle K c e).core.queue = a.queue ++ new ∧ _
  generalize hqueue : (a.cleared.handle K c e).core.queue = queue at hdeed ⊢
  have hquiet : ∃ new, a.queue = a.queue ++ new ∧ ∀ q ∈ new, Wanted K e q :=
    ⟨[], (List.append_nil _).symm, nofun⟩
  cases hdeed with
  | quiet => exact hquiet
  | asked => exact hquiet
  | unsupported hs => exact hquiet
  | @gossip source messageId data asked ops queue hasked hops hcases =>
    rcases @gossip_outcome K a.cleared c source messageId data with
      ⟨-, -, -, hsame⟩ | ⟨q, -, hvalid, -, hnew⟩
    · exact ⟨[], by rw [List.append_nil]; exact hqueue.symm.trans hsame, nofun⟩
    · obtain ⟨hdecode, hvalidate⟩ := validateBytes_ok_iff.mp hvalid
      refine ⟨[q], hqueue.symm.trans hnew, fun q' hq' => ?_⟩
      rw [List.mem_singleton.mp hq']
      have hsource : q.source ≠ none := by
        have hlonger : queue ≠ a.queue := by
          intro hsame
          have hnil : a.queue ++ [q] = a.queue ++ [] :=
            ((hqueue.symm.trans hnew).symm.trans hsame).trans (List.append_nil _).symm
          exact List.cons_ne_nil q [] (List.append_cancel_left hnil)
        obtain ⟨-, record, hrequest⟩ := hcases.resolve_left hlonger
        have hboth := List.append_cancel_left (hrequest.symm.trans (hqueue.symm.trans hnew))
        rw [← List.singleton_injective hboth]
        exact Option.some_ne_none source
      refine ⟨?_, .inl ⟨genuine_of_validate hvalidate, hsource⟩⟩
      change q.record ∈ (FlaggedFileRecord.decode data).toOption.toList
      rw [hdecode]
      exact List.mem_singleton_self _
  | response =>
    refine ⟨_, rfl, fun q hq => ?_⟩
    obtain ⟨t, ht, hqt⟩ := List.mem_flatMap.mp hq
    exact wanted_of_turn ht hqt
  | @signed result q hsource =>
    obtain ⟨queue', hcore, hcases⟩ := @core_handleSignedRecord a.cleared c result
    have hqueue' : queue' = a.queue ++ [q] := (congrArg Core.queue hcore).symm.trans hqueue
    rcases hcases with rfl | ⟨record, now, rfl, rfl⟩
    · exact ⟨[], by rw [List.append_nil]; exact hqueue'.symm, nofun⟩
    · obtain rfl := List.singleton_injective (List.append_cancel_left hqueue')
      refine ⟨_, rfl, fun q hq => ?_⟩
      rw [List.mem_singleton.mp hq]
      exact ⟨List.mem_singleton_self _, .inr ⟨rfl, rfl⟩⟩
  | took => cases hexternal

lemma mem_of_storedIn {readings : StorageReadings} {batch : List PersistRequest}
    (h : r ∈ storedIn (work K db readings batch).1) : ∃ q ∈ batch, q.record = r := by
  unfold work at h
  rcases hi : db.insertBatch readings (batch.map PersistRequest.record) with e | ⟨results, db'⟩
  · rw [hi] at h
    simp [storedIn] at h
  · rw [hi] at h
    dsimp only at h
    rw [storedIn_reports] at h
    obtain ⟨⟨record, inserted⟩, hmem, hsome⟩ := List.mem_filterMap.mp h
    cases inserted with
    | false => cases hsome
    | true =>
      obtain rfl := Option.some.inj hsome
      exact List.mem_map.mp (List.of_mem_zip hmem).1

lemma isDirect_take : isDirect .take = true := rfl

lemma isDirect_insert (readings : StorageReadings) : isDirect (.insert readings) = true := rfl

lemma isDirect_report (publication : Option String) : isDirect (.report publication) = true := rfl

lemma Carries.withDb (h : Carries P s) (db : SignatureDatabase) : Carries P (s.withDb db) :=
  ⟨h.stored, h.waiting, h.left, h.signed⟩

/-- An event leaves the queue as it is, but for requests at its end. -/
lemma Carries.event {e : Event} (h : Carries P s) (hexternal : isExternal e = true)
    (hbrought : ∀ q, Wanted K e q → P q.record) :
    ∀ q ∈ s.pipeline.batch ++ (s.pipeline.actor.step K (c, e)).queue, P q.record := by
  intro q hq
  obtain ⟨new, hnew, hwanted⟩ := @queue_grows K s.pipeline.actor c e hexternal
  rw [hnew, ← List.append_assoc] at hq
  exact (List.mem_append.mp hq).elim (h.waiting q) fun hq => hbrought q (hwanted q hq)

lemma carries_takes {turn : Turn S} {t : Node K S} (h : Carries P s) (ht : Takes s turn t)
    (hreceived : ∀ r ∈ received turn, Genuine K r → P r) (hmade : ∀ r ∈ made s turn, P r) :
    Carries P t := by
  have hbatch : ∀ q ∈ s.pipeline.batch, P q.record :=
    fun q hq => h.waiting q (List.mem_append_left _ hq)
  have hqueue : ∀ q ∈ s.pipeline.actor.queue, P q.record :=
    fun q hq => h.waiting q (List.mem_append_right _ hq)
  cases ht with
  | @event c e hexternal hdirect =>
    refine ⟨h.stored, h.event hexternal fun q hq => ?_, h.left, h.signed⟩
    obtain ⟨hbrought, ⟨hgenuine, -⟩ | ⟨rfl, -⟩⟩ := hq
    · exact hreceived _ hbrought hgenuine
    · cases hdirect
  | @take c hdirect q rest hq hroom =>
    refine ⟨h.stored, fun q' hq' => h.waiting q' ?_, h.left, h.signed⟩
    rwa [List.append_assoc, List.singleton_append, ← hq] at hq'
  | insert =>
    refine ⟨fun r hr => (List.mem_append.mp hr).elim (h.stored r) fun hr => ?_, hqueue, h.left,
      h.signed⟩
    obtain ⟨q, hq, rfl⟩ := mem_of_storedIn hr
    exact hbatch q hq
  | broken => exact ⟨h.stored, hqueue, h.left, h.signed⟩
  | @report c publication hdirect event rest hreports =>
    have hkept : (s.pipeline.actor.step K (c, .persisted event publication)).queue =
        s.pipeline.actor.queue :=
      (@verdicts_persisted K s.pipeline.actor.cleared c event publication).2
    refine ⟨h.stored, fun q hq => h.waiting q ?_, h.left, h.signed⟩
    rwa [hkept] at hq
  | @sign _ _ _ _ _ result db hdb hresult =>
    refine ⟨h.stored, h.waiting, h.left, fun r hr => ?_⟩
    rcases List.mem_append.mp hr with hold | hnew
    · exact h.signed r hold
    · rw [hresult, ← List.mem_singleton.mp hnew] at hmade
      exact hmade r rfl
  | @deliver c result signed hsigned =>
    have hall : ∀ r, .ok r ∈ result :: signed → P r := hsigned ▸ h.signed
    refine ⟨h.stored, h.event rfl fun q hq => ?_, h.left,
      fun r hr => hall r (List.mem_cons_of_mem _ hr)⟩
    rcases result with error | record
    · cases hq.1
    · rw [List.mem_singleton.mp hq.1]
      exact hall record List.mem_cons_self
  | reset => exact ⟨h.stored, h.waiting, h.left, nofun⟩
  | @restart cleared killed =>
    refine ⟨h.stored, nofun, fun requests hrequests => ?_, nofun⟩
    cases killed with
    | true => cases hrequests
    | false =>
      rcases List.mem_append.mp hrequests with hold | hnew
      · exact h.left requests hold
      · rw [List.mem_singleton.mp hnew]
        exact h.waiting
  | @writeLeft i n readings requests hleft =>
    refine ⟨fun r hr => ?_, h.waiting, fun r hr => h.left r (List.mem_of_mem_eraseIdx hr),
      h.signed⟩
    rcases List.mem_append.mp hr with hold | hnew
    · exact h.stored r hold
    · obtain ⟨q, hq, rfl⟩ := mem_of_storedIn hnew
      exact h.left requests (List.mem_of_getElem? hleft) q (List.mem_of_mem_take hq)
  | signLate | remove | expire => exact h.withDb _
  | noTake | noReport => exact ⟨h.stored, h.waiting, h.left, h.signed⟩
  | noSignLate | noDeliver | noRemove | noWriteLeft => exact h

/-- A property of what a turn brings and makes is one of what the node carries afterwards. -/
lemma carries_step (h : Carries P s) (turn : Turn S)
    (hreceived : ∀ r ∈ received turn, Genuine K r → P r) (hmade : ∀ r ∈ made s turn, P r) :
    Carries P (s.step turn) :=
  carries_takes h (takes_step s turn) hreceived hmade

lemma create_names (hS : S.Lawful) {keypair : S.Keypair} {sequence fileSize : UInt64}
    {created : Int64} {sha256 blake3 : Hash32} {fileName : Option Text}
    (h : create K S keypair sequence created sha256 blake3 fileSize fileName = .ok r) :
    r.originPeerId.1 = (peerId keypair).toBytes ∧ r.sequence = sequence := by
  unfold create at h
  split at h
  · cases h
  · dsimp only at h
    split at h
    · cases h
    · split at h
      · cases h
      · split_ifs at h
        obtain rfl := Except.ok.inj h
        exact ⟨hS.names keypair, rfl⟩

lemma counter_work {readings : StorageReadings} {batch : List PersistRequest} (peer : PeerId) :
    counter (work K db readings batch).2 peer = counter db peer := by
  unfold work
  rcases hi : db.insertBatch readings (batch.map PersistRequest.record) with e | ⟨results, db'⟩
  · rfl
  · dsimp only
    exact Mutations.counter_insertBatch hi peer

lemma counter_nextLocalSequence {own : PeerId} {n : UInt64}
    (h : nextLocalSequence db own = .ok (n, db')) (peer : PeerId) :
    counter db peer ≤ counter db' peer := by
  obtain ⟨-, hown, hothers⟩ := IdentityReset.nextLocalSequence_ok h
  by_cases hpeer : peer = own
  · rw [hpeer, hown]
    exact Nat.le_succ _
  · rw [hothers peer hpeer]

def clears : Turn S → Bool
  | .resetIdentity .. => true
  | .restart cleared _ _ _ => cleared
  | _ => false

/-- The counters only go up, unless a turn clears them. -/
lemma counter_step (turn : Turn S) (h : clears turn = false) (peer : PeerId) :
    counter s.pipeline.db peer ≤ counter (s.step turn).pipeline.db peer := by
  have ht := takes_step s turn
  generalize s.step turn = t at ht ⊢
  cases ht with
  | insert => exact (counter_work peer).ge
  | sign hdb =>
    rcases hdb with rfl | ⟨n, hnext⟩
    · exact le_rfl
    · exact counter_nextLocalSequence hnext peer
  | signLate hnext => exact counter_nextLocalSequence hnext peer
  | remove hremove => exact (Mutations.counter_removeBlake3 hremove peer).ge
  | expire => exact (Mutations.counter_cleanupExpired peer).ge
  | reset => cases h
  | @restart cleared =>
    cases cleared with
    | true => cases h
    | false => exact le_rfl
  | writeLeft => exact (counter_work peer).ge
  | _ => exact le_rfl

lemma made_eq (hS : S.Lawful) {turn : Turn S} (h : made s turn = some r) :
    r.originPeerId.1 = (peerId s.keypair).toBytes ∧ Genuine K r ∧
      r.sequence.toNat = counter s.pipeline.db (peerId s.keypair) + 1 ∧
      r.sequence.toNat = counter (s.step turn).pipeline.db (peerId s.keypair) := by
  cases turn with
  | sign createdAtUnixMs sha256 blake3 fileSize fileName =>
    unfold made at h
    dsimp only at h
    rcases hnext : nextLocalSequence s.pipeline.db (peerId s.keypair) with error | ⟨sequence, db⟩
    · rw [hnext] at h
      cases h
    · rw [hnext] at h
      dsimp only at h
      rcases hcreate : create K S s.keypair sequence createdAtUnixMs sha256 blake3 fileSize
        fileName with error | record
      · rw [hcreate] at h
        cases h
      · rw [hcreate] at h
        obtain rfl := Option.some.inj h
        obtain ⟨horigin, hsequence⟩ := create_names hS hcreate
        obtain ⟨hn, hafter, -⟩ := IdentityReset.nextLocalSequence_ok hnext
        have hdb : (s.step (.sign createdAtUnixMs sha256 blake3 fileSize fileName)).pipeline.db =
            db := by
          unfold Node.step Node.sign
          dsimp only
          rw [hnext]
          dsimp only
          rw [hcreate]
          rfl
        refine ⟨horigin, create_genuine hS hcreate, by rw [hsequence, hn], ?_⟩
        rw [hdb, hafter, hsequence, hn]
  | _ => cases h

end Protonet.Provenance
