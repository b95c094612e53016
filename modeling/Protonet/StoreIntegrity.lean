import Protonet.Blocking
import Protonet.DatabaseBatch
import Protonet.GossipVerdicts
import Protonet.StoreRows

/-!
# The store holds genuine records only

A node through its whole life. Records come from peers, by gossip and synchronization, and from the
signer; the interface removes them and the clock expires them; the identity is reset; engines stop
and start again, and their old writers may still finish a batch.
-/
namespace Protonet.StoreIntegrity
open StepRun Postcard Record RecordIdentity Database Replay Worker Swarm RecordCreation StoreRows
  GossipVerdicts
open IdentityReset (nextLocalSequence clearIdentityState)

/-- What an actor starts with besides its identity. -/
structure Boot where
  replay : ReplayState
  storageSafetyMode : Bool
  storageSafetyReason : Option String
  now : ℕ

structure Node (K : Primitives) (S : Signer K) where
  keypair : S.Keypair
  pipeline : Pipeline
  /-- Results of the signer that the actor has not handled. -/
  signed : List (Except String FlaggedFileRecord)
  /-- What engines that stopped left to their writers. -/
  left : List (List PersistRequest)
  /-- The records that insertions were reported to have stored. -/
  stored : List FlaggedFileRecord

/-- Moves other than signed records and other transactions, which are turns of their own. -/
def isDirect : GossipVerdicts.Move → Bool
  | .swarm (.signedRecord _) _ => false
  | .maintain _ => false
  | _ => true

inductive Turn {K : Primitives} (S : Signer K)
  | move (c : Clock) (m : GossipVerdicts.Move) (h : isDirect m = true)
  /-- A job of the signer. -/
  | sign (createdAtUnixMs : Int64) (sha256 blake3 : Hash32) (fileSize : UInt64)
      (fileName : Option Text)
  /-- A job whose actor is gone still takes its sequence. -/
  | signLate (keypair : S.Keypair)
  /-- The actor handles a result of the signer. -/
  | deliver (c : Clock)
  | removeBlake3 (hash : Option Hash32)
  | cleanupExpired (now : Int64)
  | resetIdentity (keypair : S.Keypair) (boot : Boot)
  /-- The engine stops, perhaps after a reset that failed, or the process is killed. -/
  | restart (cleared killed : Bool) (keypair : S.Keypair) (boot : Boot)
  /-- A writer left over inserts a last batch and ends, as nobody takes its reports. -/
  | writeLeft (i n : ℕ) (readings : StorageReadings)

variable {K : Primitives} {S : Signer K}

def peerId (keypair : S.Keypair) : PeerId := K.fromPublicKey (S.publicKey keypair)

def Boot.actor (boot : Boot) (keypair : S.Keypair) : Actor :=
  .start (peerId keypair) boot.replay boot.storageSafetyMode boot.storageSafetyReason boot.now

def Node.start (inMemory : Bool) (keypair : S.Keypair) (boot : Boot) : Node K S :=
  ⟨keypair, .start (boot.actor keypair) (.open inMemory), [], [], []⟩

/-- Another transaction on the store commits. -/
def Node.withDb (s : Node K S) (db : SignatureDatabase) : Node K S :=
  { s with pipeline := { s.pipeline with db } }

def Node.sign (s : Node K S) (createdAtUnixMs : Int64) (sha256 blake3 : Hash32)
    (fileSize : UInt64) (fileName : Option Text) : Node K S :=
  match nextLocalSequence s.pipeline.db (peerId s.keypair) with
  | .error error => { s with signed := s.signed ++ [.error error] }
  | .ok (sequence, db) =>
    match create K S s.keypair sequence createdAtUnixMs sha256 blake3 fileSize fileName with
    | .error error => { s.withDb db with signed := s.signed ++ [.error error.message] }
    | .ok record => { s.withDb db with signed := s.signed ++ [.ok record] }

/-- The records that a move is reported to have stored. -/
def storedBy (K : Primitives) (p : Pipeline) : GossipVerdicts.Move → List FlaggedFileRecord
  | .insert readings => storedIn (work K p.db readings p.batch).1
  | _ => []

def Node.writeLeft (s : Node K S) (i n : ℕ) (readings : StorageReadings) : Node K S :=
  match s.left[i]? with
  | none => s
  | some requests =>
    let (reports, db) := work K s.pipeline.db readings (requests.take (min n MAX_BATCH))
    { s.withDb db with left := s.left.eraseIdx i, stored := s.stored ++ storedIn reports }

/-- The queue, the writer and its reports outlive a reset; the signer's results do not. -/
def Node.resetIdentity (s : Node K S) (keypair : S.Keypair) (boot : Boot) : Node K S :=
  { s.withDb (clearIdentityState s.pipeline.db) with
    keypair
    signed := []
    pipeline := { s.pipeline with
      actor := { boot.actor keypair with queue := s.pipeline.actor.queue }
      db := clearIdentityState s.pipeline.db } }

def Node.restart (s : Node K S) (cleared killed : Bool) (keypair : S.Keypair) (boot : Boot) :
    Node K S :=
  { s with
    keypair
    signed := []
    pipeline := .start (boot.actor keypair)
      (if cleared then clearIdentityState s.pipeline.db else s.pipeline.db)
    left := if killed then []
      else s.left ++ [s.pipeline.batch ++ s.pipeline.actor.queue] }

def Node.signLate (s : Node K S) (keypair : S.Keypair) : Node K S :=
  match nextLocalSequence s.pipeline.db (peerId keypair) with
  | .error _ => s
  | .ok (_, db) => s.withDb db

def Node.deliver (s : Node K S) (c : Clock) : Node K S :=
  match s.signed with
  | [] => s
  | result :: signed =>
    { s with
      pipeline := { s.pipeline with actor := s.pipeline.actor.step K (c, .signedRecord result) }
      signed }

def Node.removeBlake3 (s : Node K S) (hash : Option Hash32) : Node K S :=
  match Removal.removeBlake3 s.pipeline.db hash with
  | .error _ => s
  | .ok (_, db) => s.withDb db

def Node.step (s : Node K S) : Turn S → Node K S
  | .move c m _ =>
    { s with
      pipeline := s.pipeline.step K (c, m)
      stored := s.stored ++ storedBy K s.pipeline m }
  | .sign createdAtUnixMs sha256 blake3 fileSize fileName =>
    s.sign createdAtUnixMs sha256 blake3 fileSize fileName
  | .signLate keypair => s.signLate keypair
  | .deliver c => s.deliver c
  | .removeBlake3 hash => s.removeBlake3 hash
  | .cleanupExpired now => s.withDb (Removal.cleanupExpired s.pipeline.db now).2
  | .resetIdentity keypair boot => s.resetIdentity keypair boot
  | .restart cleared killed keypair boot => s.restart cleared killed keypair boot
  | .writeLeft i n readings => s.writeLeft i n readings

structure Holds (K : Primitives) (db : SignatureDatabase) (stored : List FlaggedFileRecord) :
    Prop where
  rows : ∀ row ∈ db.records.rows, ∃ r ∈ stored,
    FlaggedFileRecord.decode row.encodedRecord = .ok r ∧ Matches row r ∧
      r.calculateRecordId K = r.recordId ∧ r.origin K = .ok ⟨row.originPeerId⟩ ∧
      r.SignedByOrigin K
  recordId : (db.records.rows.map Row.recordId).Nodup
  originSequence : (db.records.rows.map Row.originSequence).Nodup
  highest : ∀ r ∈ stored, Covers db r

/-- All records on their way to the store are genuine. -/
structure Sound (s : Node K S) : Prop where
  store : Integrity K s.pipeline.db s.stored
  waiting : ∀ q ∈ s.pipeline.batch ++ s.pipeline.actor.queue, Genuine K q.record
  left : ∀ requests ∈ s.left, ∀ q ∈ requests, Genuine K q.record
  signed : ∀ r, .ok r ∈ s.signed → Genuine K r

structure Keeps (s t : Node K S) : Prop where
  sound : Sound t
  raised : Raised s.pipeline.db t.pipeline.db
  stored : s.stored <+: t.stored

variable {s t u : Node K S} {a : Actor} {c : Clock} {p : Pipeline} {db : SignatureDatabase}
  {stored : List FlaggedFileRecord}

lemma holds_of_integrity (h : Integrity K db stored) : Holds K db stored where
  rows row hrow := by
    obtain ⟨r, hr, hgenuine, hto⟩ := h.rows row hrow
    have hmatch := matches_of_toRow hto
    refine ⟨r, hr, ?_, hmatch, hgenuine.id, ?_, hgenuine.signed⟩
    · rw [hmatch.encodedRecord]
      exact decode_encode hgenuine.bounds
    · rw [hmatch.originPeerId]
      exact hgenuine.origin
  recordId := db.records.recordId_nodup
  originSequence := db.records.originSequence_nodup
  highest := h.highest

lemma requests_genuine {t : SyncTurn} {q : PersistRequest} (h : q ∈ t.requests K c) :
    Genuine K q.record := by
  unfold SyncTurn.requests at h
  split_ifs at h with henqueues
  · obtain rfl := List.mem_singleton.mp h
    have hnew : t.isNew K c = true := by
      unfold SyncTurn.enqueues at henqueues
      exact (Bool.and_eq_true_iff.mp (Bool.and_eq_true_iff.mp henqueues).1).1
    unfold SyncTurn.isNew Core.isNew at hnew
    rcases hvalid : RecordValidator.default.validate K t.record (c.unixMs t.round) with e | ⟨⟩
    · simp [hvalid] at hnew
    · exact genuine_of_validate hvalid
  · simp at h

/-- An event of the loop enqueues genuine records only, if the signer does not bring another. -/
lemma step_queue {e : Event} (hexternal : isExternal e = true)
    (hsigned : ∀ r, e = .signedRecord (.ok r) → Genuine K r)
    (h : ∀ q ∈ a.queue, Genuine K q.record) :
    ∀ q ∈ (a.step K (c, e)).queue, Genuine K q.record := by
  obtain ⟨ops, hdeed, -⟩ := (@handle_does K a.cleared c e).deed
  change ∀ q ∈ (a.cleared.handle K c e).core.queue, Genuine K q.record
  generalize hqueue : (a.cleared.handle K c e).core.queue = queue at hdeed ⊢
  have hgrown : ∀ new, queue = a.queue ++ new → (∀ q ∈ new, Genuine K q.record) →
      ∀ q ∈ queue, Genuine K q.record := by
    rintro new rfl hnew q hq
    exact (List.mem_append.mp hq).elim (h q) (hnew q)
  cases hdeed with
  | quiet => exact h
  | asked => exact h
  | unsupported hs => exact h
  | @gossip source messageId data =>
    rcases @gossip_outcome K a.cleared c source messageId data with
      ⟨-, -, -, hsame⟩ | ⟨q, -, hvalid, -, hnew⟩
    · exact hgrown [] (by rw [List.append_nil]; exact hqueue.symm.trans hsame) (by simp)
    · refine hgrown [q] (hqueue.symm.trans hnew) fun q' hq' => ?_
      rw [List.mem_singleton.mp hq']
      exact genuine_of_validate (validateBytes_ok_iff.mp hvalid).2
  | response =>
    refine hgrown _ rfl fun q hq => ?_
    obtain ⟨t, -, hqt⟩ := List.mem_flatMap.mp hq
    exact requests_genuine hqt
  | @signed result q hsource =>
    obtain ⟨queue', hcore, hcases⟩ := @core_handleSignedRecord a.cleared c result
    have hqueue' : queue' = a.queue ++ [q] := (congrArg Core.queue hcore).symm.trans hqueue
    rcases hcases with rfl | ⟨record, now, rfl, rfl⟩
    · exact hgrown [] (by rw [List.append_nil]; exact hqueue'.symm) (by simp)
    · obtain rfl := List.singleton_injective (List.append_cancel_left hqueue')
      refine hgrown [_] rfl fun q hq => ?_
      rw [List.mem_singleton.mp hq]
      exact hsigned record rfl
  | took => cases hexternal

lemma pipeline_sound {m : GossipVerdicts.Move} (hdirect : isDirect m = true)
    (hstore : Integrity K p.db stored)
    (hwaiting : ∀ q ∈ p.batch ++ p.actor.queue, Genuine K q.record) :
    (Integrity K (p.step K (c, m)).db (stored ++ storedBy K p m) ∧
      Raised p.db (p.step K (c, m)).db) ∧
      ∀ q ∈ (p.step K (c, m)).batch ++ (p.step K (c, m)).actor.queue, Genuine K q.record := by
  have hbatch : ∀ q ∈ p.batch, Genuine K q.record :=
    fun q hq => hwaiting q (List.mem_append_left _ hq)
  have hqueue : ∀ q ∈ p.actor.queue, Genuine K q.record :=
    fun q hq => hwaiting q (List.mem_append_right _ hq)
  have hsame : Integrity K p.db (stored ++ []) ∧ Raised p.db p.db :=
    ⟨by rwa [List.append_nil], raised_refl _⟩
  cases m with
  | swarm e hexternal =>
    have hsigned : ∀ r, e = .signedRecord (.ok r) → Genuine K r := by
      rintro r rfl
      cases hdirect
    refine ⟨hsame, fun q hq => ?_⟩
    exact (List.mem_append.mp hq).elim (hbatch q) (step_queue hexternal hsigned hqueue q)
  | take =>
    unfold Pipeline.step
    dsimp only
    rcases hq : p.actor.queue with _ | ⟨q, rest⟩
    · exact ⟨hsame, hwaiting⟩
    · dsimp only
      split_ifs
      · refine ⟨hsame, fun q' hq' => hwaiting q' ?_⟩
        have hrest : (p.actor.step K (c, .workerTook 1)).queue = rest := by
          change p.actor.queue.drop 1 = rest
          rw [hq]
          rfl
        rwa [hrest, List.append_assoc, List.singleton_append, ← hq] at hq'
      · exact ⟨hsame, hwaiting⟩
  | insert readings => exact ⟨integrity_work hstore p.bounded hbatch, hqueue⟩
  | broken error => exact ⟨hsame, hqueue⟩
  | report publication =>
    unfold Pipeline.step
    dsimp only
    rcases p.reports with _ | ⟨event, rest⟩
    · exact ⟨hsame, hwaiting⟩
    · have hkept : (p.actor.step K (c, .persisted event publication)).queue = p.actor.queue :=
        (@verdicts_persisted K p.actor.cleared c event publication).2
      refine ⟨hsame, fun q hq => hwaiting q ?_⟩
      rwa [hkept] at hq
  | maintain db => cases hdirect

lemma Sound.keeps (h : Sound s) : Keeps s s := ⟨h, raised_refl _, List.prefix_rfl⟩

lemma Keeps.trans (h : Keeps s t) (g : Keeps t u) : Keeps s u :=
  ⟨g.sound, h.raised.trans g.raised, h.stored.trans g.stored⟩

lemma Sound.withDb (h : Sound s) (hsub : db.records.rows.Sublist s.pipeline.db.records.rows)
    (hsame : db.originSequences = s.pipeline.db.originSequences) : Keeps s (s.withDb db) := by
  obtain ⟨hstore, hraised⟩ := h.store.shrink hsub hsame
  exact ⟨⟨hstore, h.waiting, h.left, h.signed⟩, hraised, List.prefix_rfl⟩

lemma keeps_move (h : Sound s) {m : GossipVerdicts.Move} (hdirect : isDirect m = true) :
    Keeps s (s.step (.move c m hdirect)) := by
  obtain ⟨⟨hstore, hraised⟩, hwaiting⟩ := @pipeline_sound _ c _ _ _ hdirect h.store h.waiting
  exact ⟨⟨hstore, hwaiting, h.left, h.signed⟩, hraised, List.prefix_append _ _⟩

lemma Sound.push (h : Sound s) {result : Except String FlaggedFileRecord}
    (hresult : ∀ r, result = .ok r → Genuine K r) :
    Keeps s { s with signed := s.signed ++ [result] } := by
  refine ⟨⟨h.store, h.waiting, h.left, fun r hr => ?_⟩, raised_refl _, List.prefix_rfl⟩
  rcases List.mem_append.mp hr with hold | hnew
  · exact h.signed r hold
  · exact hresult r (List.mem_singleton.mp hnew).symm

lemma keeps_nextLocalSequence (h : Sound s) {peer : PeerId} {n : UInt64}
    (hnext : nextLocalSequence s.pipeline.db peer = .ok (n, db)) : Keeps s (s.withDb db) := by
  unfold nextLocalSequence at hnext
  dsimp only at hnext
  split_ifs at hnext
  obtain ⟨-, rfl⟩ := Prod.mk.inj (Except.ok.inj hnext)
  exact h.withDb (List.Sublist.refl _) rfl

lemma keeps_sign (hS : S.Lawful) (h : Sound s) (createdAtUnixMs : Int64)
    (sha256 blake3 : Hash32) (fileSize : UInt64) (fileName : Option Text) :
    Keeps s (s.sign createdAtUnixMs sha256 blake3 fileSize fileName) := by
  unfold Node.sign
  rcases hnext : nextLocalSequence s.pipeline.db (peerId s.keypair) with error | ⟨sequence, db⟩
  · exact h.push nofun
  · have hkeeps := keeps_nextLocalSequence h hnext
    dsimp only
    rcases hcreate : create K S s.keypair sequence createdAtUnixMs sha256 blake3 fileSize fileName
      with error | record
    · exact hkeeps.trans (hkeeps.sound.push nofun)
    · refine hkeeps.trans (hkeeps.sound.push fun r hr => ?_)
      rw [← Except.ok.inj hr]
      exact create_genuine hS hcreate

lemma keeps_signLate (h : Sound s) (keypair : S.Keypair) : Keeps s (s.signLate keypair) := by
  unfold Node.signLate
  rcases hnext : nextLocalSequence s.pipeline.db (peerId keypair) with error | ⟨sequence, db⟩
  · exact h.keeps
  · exact keeps_nextLocalSequence h hnext

lemma keeps_deliver (h : Sound s) : Keeps s (s.deliver c) := by
  unfold Node.deliver
  rcases hsigned : s.signed with _ | ⟨result, signed⟩
  · exact h.keeps
  · have hall : ∀ r, .ok r ∈ result :: signed → Genuine K r := hsigned ▸ h.signed
    have hqueue : ∀ q ∈ (s.pipeline.actor.step K (c, .signedRecord result)).queue,
        Genuine K q.record := by
      refine step_queue rfl (fun r hr => hall r ?_)
        fun q hq => h.waiting q (List.mem_append_right _ hq)
      rw [Event.signedRecord.inj hr]
      exact List.mem_cons_self
    refine ⟨⟨h.store, fun q hq => ?_, h.left, fun r hr => hall r (List.mem_cons_of_mem _ hr)⟩,
      raised_refl _, List.prefix_rfl⟩
    rcases List.mem_append.mp hq with hbatch | hmem
    · exact h.waiting q (List.mem_append_left _ hbatch)
    · exact hqueue q hmem

lemma keeps_removeBlake3 (h : Sound s) (hash : Option Hash32) :
    Keeps s (s.removeBlake3 hash) := by
  unfold Node.removeBlake3
  rcases hremove : Removal.removeBlake3 s.pipeline.db hash with error | ⟨removed, db⟩
  · exact h.keeps
  · obtain ⟨hsub, hsame, -⟩ := Removal.removeBlake3_eq hremove
    exact h.withDb hsub hsame

lemma keeps_resetIdentity (h : Sound s) (keypair : S.Keypair) (boot : Boot) :
    Keeps s (s.resetIdentity keypair boot) := by
  have hkeeps : Keeps s (s.withDb (clearIdentityState s.pipeline.db)) :=
    h.withDb (List.Sublist.refl _) rfl
  exact ⟨⟨hkeeps.sound.store, h.waiting, h.left, nofun⟩, hkeeps.raised, List.prefix_rfl⟩

lemma keeps_restart (h : Sound s) (cleared killed : Bool) (keypair : S.Keypair) (boot : Boot) :
    Keeps s (s.restart cleared killed keypair boot) := by
  have hkeeps : Keeps s (s.withDb (if cleared then clearIdentityState s.pipeline.db
      else s.pipeline.db)) := by
    cases cleared <;> exact h.withDb (List.Sublist.refl _) rfl
  refine ⟨⟨hkeeps.sound.store, nofun, fun requests hrequests => ?_, nofun⟩, hkeeps.raised,
    List.prefix_rfl⟩
  cases killed with
  | true => cases hrequests
  | false =>
    rcases List.mem_append.mp hrequests with hold | hnew
    · exact h.left requests hold
    · rw [List.mem_singleton.mp hnew]
      exact h.waiting

lemma keeps_writeLeft (h : Sound s) (i n : ℕ) (readings : StorageReadings) :
    Keeps s (s.writeLeft i n readings) := by
  unfold Node.writeLeft
  rcases hleft : s.left[i]? with _ | requests
  · exact h.keeps
  · have hlen : (requests.take (min n MAX_BATCH)).length ≤ MAX_BATCH :=
      (List.length_take_le _ _).trans (min_le_right _ _)
    have hgenuine : ∀ q ∈ requests.take (min n MAX_BATCH), Genuine K q.record := fun q hq =>
      h.left requests (List.mem_of_getElem? hleft) q (List.mem_of_mem_take hq)
    obtain ⟨hstore, hraised⟩ := @integrity_work _ _ _ readings _ h.store hlen hgenuine
    exact ⟨⟨hstore, h.waiting, fun r hr => h.left r (List.mem_of_mem_eraseIdx hr), h.signed⟩,
      hraised, List.prefix_append _ _⟩

lemma keeps_step (hS : S.Lawful) (h : Sound s) (turn : Turn S) : Keeps s (s.step turn) := by
  cases turn with
  | move c m hdirect => exact keeps_move h hdirect
  | sign createdAtUnixMs sha256 blake3 fileSize fileName => exact keeps_sign hS h ..
  | signLate keypair => exact keeps_signLate h keypair
  | deliver c => exact keeps_deliver h
  | removeBlake3 hash => exact keeps_removeBlake3 h hash
  | cleanupExpired now =>
    obtain ⟨hsub, hsame, -⟩ := @Removal.cleanupExpired_eq s.pipeline.db now
    exact h.withDb hsub hsame
  | resetIdentity keypair boot => exact keeps_resetIdentity h keypair boot
  | restart cleared killed keypair boot => exact keeps_restart h cleared killed keypair boot
  | writeLeft i n readings => exact keeps_writeLeft h i n readings

lemma keeps_run (hS : S.Lawful) (h : Sound s) (turns : List (Turn S)) :
    Keeps s (run Node.step s turns) := by
  induction turns generalizing s with
  | nil => exact h.keeps
  | cons turn turns ih =>
    have hkeeps := keeps_step hS h turn
    exact hkeeps.trans (ih hkeeps.sound)

lemma start_sound (inMemory : Bool) (keypair : S.Keypair) (boot : Boot) :
    Sound (Node.start inMemory keypair boot : Node K S) where
  store := ⟨nofun, nofun⟩
  waiting := nofun
  left := nofun
  signed := nofun

/-- After any run of a node from a new store, every row carries the encoding of a record that was
stored, which is genuine and agrees with the row; record ids and sequences of an origin are
unique; and the highest sequence of an origin is at least any of its records ever stored had. It is
never lowered in what follows. -/
theorem store_authentic (hS : S.Lawful) (inMemory : Bool) (keypair : S.Keypair) (boot : Boot)
    (turns more : List (Turn S)) :
    let s : Node K S := run Node.step (.start inMemory keypair boot) turns
    let t := run Node.step s more
    Holds K s.pipeline.db s.stored ∧ Raised s.pipeline.db t.pipeline.db ∧
      s.stored <+: t.stored := by
  intro s t
  have hsound : Sound s := (keeps_run hS (start_sound inMemory keypair boot) turns).sound
  have hkeeps : Keeps s t := keeps_run hS hsound more
  exact ⟨holds_of_integrity hsound.store, hkeeps.raised, hkeeps.stored⟩

def sampleVec (b : Bytes) : VecU8 := if h : b.length < 2 ^ 63 then ⟨b, h⟩ else ⟨[], nil_fits⟩

/-- One-byte keys. -/
def sampleSigner : Signer samplePrimitives where
  Keypair := UInt8
  publicKey k := ([k] : Bytes)
  encodeProtobuf key := sampleVec key
  peerIdBytes key := sampleVec key
  sign k message :=
    if h : message.length < MAX_SIGNATURE_BYTES then
      some ⟨k :: message, by
        rw [List.length_cons]
        exact (Nat.succ_le_of_lt h).trans_lt (by decide)⟩
    else none

lemma sampleSigner_lawful : sampleSigner.Lawful where
  decodes _ := rfl
  names _ := rfl
  verifies k message signature h := by
    unfold sampleSigner at h
    dsimp only at h
    split_ifs at h
    obtain rfl := Option.some.inj h
    exact beq_self_eq_true (k :: message : Bytes)
  short k message signature h := by
    unfold sampleSigner at h
    dsimp only at h
    split_ifs at h with hlt
    obtain rfl := Option.some.inj h
    exact Nat.succ_le_of_lt hlt

def sampleBoot : Boot := ⟨.default, false, none, 0⟩

/-- The node publishes a record, a peer gossips another, and the engine stops before that one is
stored; its writer still stores it. -/
def sampleLife : List (Turn sampleSigner) :=
  [.sign 0 Queries.zeroId Queries.zeroId 1 none, .deliver (.still 0 0), .move (.still 0 0) .take rfl,
    .move (.still 0 0) (.insert DatabaseBatch.sampleReadings) rfl,
    .move (.still 0 0) (.swarm (.connectionEstablished Blocking.samplePeer
      (.listener [.ip4 ⟨1, 2, 3, 4⟩, .tcp 4001]) 1 1) rfl) rfl,
    .move (.still 0 0) (.swarm (.gossip Blocking.samplePeer (sampleRecord 7 1 1 0 1000).recordId
      (sampleRecord 7 1 1 0 1000).encode) rfl) rfl,
    .restart false false (2 : UInt8) sampleBoot, .writeLeft 0 1 DatabaseBatch.sampleReadings]

def lived : Node samplePrimitives sampleSigner :=
  run Node.step (.start false (1 : UInt8) sampleBoot) sampleLife

/-- Both records are stored; they are removed again, and the highest sequences stay. -/
theorem store_authentic_sample : lived.stored.length = 2 ∧
    lived.pipeline.db.records.rows.length = 2 ∧
    (run Node.step lived [.removeBlake3 (some Queries.zeroId)]).pipeline.db.records.rows = [] ∧
    Holds samplePrimitives lived.pipeline.db lived.stored ∧
    Raised lived.pipeline.db
      (run Node.step lived [.removeBlake3 (some Queries.zeroId)]).pipeline.db := by
  obtain ⟨hholds, hraised, -⟩ := store_authentic sampleSigner_lawful false (1 : UInt8) sampleBoot
    sampleLife [.removeBlake3 (some Queries.zeroId)]
  refine ⟨by decide +kernel, by decide +kernel, by decide +kernel, ?_⟩
  unfold lived
  exact ⟨hholds, hraised⟩

end Protonet.StoreIntegrity
