import Protonet.Queries
import Protonet.Swarm

/-!
# The actor's handlers

One function for each kind of event, and the step they make together. Swarm events that only
concern address books, listen addresses, reachability and logging change nothing kept here.
-/
namespace Protonet.Swarm
open Lru MachineInt Postcard Record Replay RateLimit Address Connections Sync Worker

inductive Command
  | publishFile (sha256 blake3 : Hash32) (fileSize : UInt64) (fileName : Option Text)
  | disconnect (peer : PeerId)
  | requestSync (peer : PeerId)
  | requestSyncAny (pick : Option PeerId)
  deriving DecidableEq

def roundTrip (state : PeerConnectionState) : WithTop ℕ :=
  match state.roundTripTime with
  | none => ⊤
  | some rtt => rtt

/-- `min_by_key` over the peers without a session; the map decides between equal ones. -/
def Actor.isBestSyncPeer (a : Actor) (peer : PeerId) : Bool :=
  match a.connections.peers.lookup peer with
  | none => false
  | some state => (a.syncSessions.lookup peer).isNone &&
      a.connections.peers.entries.all fun e =>
        (a.syncSessions.lookup e.1).isSome || decide (roundTrip state ≤ roundTrip e.2)

def Actor.startBestSyncPeer (a : Actor) (pick : Option PeerId) (now : ℕ) : Actor :=
  if a.syncSessions.entries.length ≥ MAX_SIMULTANEOUS_SYNC_PEERS then a
  else
    match pick with
    | none => a
    | some peer => if a.isBestSyncPeer peer then a.startSync peer now else a

/-- `signerFull` tells whether the signer's queue refuses the request. -/
def Actor.handleCommand (a : Actor) (command : Command) (signerFull : Bool) (c : Clock) : Actor :=
  match command with
  | .publishFile sha256 blake3 fileSize fileName =>
    if a.storageSafetyMode then a.violation none "storage safety mode blocks new records"
    else if signerFull then a.violation none "local signing queue is full"
    else a.emit (.sign sha256 blake3 fileSize fileName)
  | .disconnect peer => a.emit (.disconnectPeer peer)
  | .requestSync peer => a.startSync peer (c.instant 0)
  | .requestSyncAny pick => a.startBestSyncPeer pick (c.instant 0)

def Actor.handleSignedRecord (a : Actor) (result : Except String FlaggedFileRecord) (c : Clock) :
    Actor :=
  if a.storageSafetyMode then a.violation none "storage safety mode blocks new records"
  else
    match result with
    | .ok record =>
      match a.tryEnqueue ⟨record, none, c.instant 0, none⟩ with
      | (true, a) => a
      | (false, a) => a.violation none "persistence queue saturated"
    | .error error => a.violation none ("record signing failed: " ++ error)

def hexByte (b : UInt8) : List Char :=
  [Nat.digitChar (b.toNat / 16), Nat.digitChar (b.toNat % 16)]

def hex (bytes : Bytes) : String := String.ofList (bytes.flatMap hexByte)

def PersistError.reason : PersistError → String
  | .storageSafety reason => reason
  | .database reason => "database persistence failed: " ++ reason

def Actor.acceptReplay (K : Primitives) (a : Actor) (record : FlaggedFileRecord) (now : ℕ) :
    Actor :=
  match record.origin K with
  | .error _ => a
  | .ok origin =>
    { a with replay := a.replay.accept record.recordId origin record.sequence now }

/-- A record stored for a peer counts towards the peer's session. -/
def Actor.noteReceived (a : Actor) (source : PeerId) (record : FlaggedFileRecord) : Actor :=
  let a := a.notify (.recordReceived record.recordId source record.fileName)
  match a.syncSessions.lookup source with
  | none => a
  | some session =>
    (a.updateSession source fun s => { s with received := s.received + 1 }).notify
      (.syncProgress source (session.received + 1))

/-- `publication` is the error gossipsub answers a publication with, if any. -/
def Actor.publishOwn (K : Primitives) (a : Actor) (record : FlaggedFileRecord)
    (publication : Option String) : Actor :=
  if record.origin K = .ok a.identity then
    match publication with
    | none => (a.emit (.publish record.encode)).notify
        (.recordPublished record.recordId record.fileName)
    | some error => (a.emit (.publish record.encode)).violation none
        ("gossip publication failed: " ++ error)
  else a

def Actor.handlePersisted (K : Primitives) (a : Actor) (event : PersistEvent)
    (publication : Option String) (c : Clock) : Actor :=
  match event with
  | .stored request =>
    let a := (a.acceptReplay K request.record (c.instant 0)).reportValidation
      request.gossipValidation .accept
    match request.source with
    | some source => a.noteReceived source request.record
    | none => a.publishOwn K request.record publication
  | .duplicate recordId origin sequence gossipValidation =>
    let replay := match origin with
      | some origin => a.replay.accept recordId origin sequence (c.instant 0)
      | none => a.replay.forget recordId
    { a with replay }.reportValidation gossipValidation .ignore
  | .failed recordId error gossipValidation =>
    let a := { a with
      replay := a.replay.forget recordId
      storageSafetyMode := true
      storageSafetyReason := some (PersistError.reason error) }
    let a := a.notify (.storageSafetyChanged true (some (PersistError.reason error)))
    let a := a.violation none
      ("record " ++ hex recordId.1 ++ " was not persisted: " ++ PersistError.reason error)
    a.reportValidation gossipValidation .ignore

/-- `DeniedConnections::purge`; each round of the loop removes one entry. -/
def purgeDenied (now : ℕ) : ℕ → LruCache ConnectionId ℕ → LruCache ConnectionId ℕ
  | 0, values => values
  | rounds + 1, values =>
    match values.peekLru with
    | none => values
    | some (_, expires) => if expires ≤ now then purgeDenied now rounds values.popLru else values

def purged (values : LruCache ConnectionId ℕ) (now : ℕ) : LruCache ConnectionId ℕ :=
  purgeDenied now values.len values

def Actor.deny (a : Actor) (connection : ConnectionId) (now : ℕ) : Actor :=
  { a with deniedConnections :=
      (purged a.deniedConnections now).put connection (now + DENIED_CONNECTION_TTL) }

/-- Whether the duplicate-connection rule refuses this one. -/
def Actor.losesTieBreak (a : Actor) (peer : PeerId) (endpoint : ConnectedPoint)
    (numEstablished : ℕ) : Bool :=
  decide (numEstablished > 1) &&
    (decide (a.identity.toBytes < peer.toBytes) != endpoint.isDialer)

/-- The part of the handler that follows a connection that is let in. -/
def Actor.letIn (a : Actor) (peer : PeerId) (endpoint : ConnectedPoint) (c : Clock) : Actor :=
  let a := { a with connections := a.connections.connected peer endpoint (c.instant 1) }
  let a := match a.connections.peers.lookup peer with
    | none => a
    | some state =>
      a.notify (.peerConnected peer state.address state.directness state.transport)
  if a.syncSessions.entries.length < MAX_SIMULTANEOUS_SYNC_PEERS then
    a.startSync peer (c.instant 2)
  else a

def Actor.connectionEstablished (a : Actor) (peer : PeerId) (endpoint : ConnectedPoint)
    (connection : ConnectionId) (numEstablished : ℕ) (c : Clock) : Actor :=
  let denied := (a.deniedConnections.peek connection).isSome
  let a := { a with deniedConnections := a.deniedConnections.pop connection }
  if denied then
    (a.emit (.closeConnection connection)).violation none
      "connection-attempt rate exceeded for source IP"
  else
    match a.isBlocked peer (c.instant 0) with
    | (true, a) => a.emit (.disconnectPeer peer)
    | (false, a) =>
      if !a.connections.canAccept endpoint then
        (a.emit (.closeConnection connection)).violation (some peer)
          "connection diversity limit reached for source prefix"
      else if a.losesTieBreak peer endpoint numEstablished then
        a.emit (.closeConnection connection)
      else a.letIn peer endpoint c

def Actor.connectionClosed (a : Actor) (peer : PeerId) (connection : ConnectionId) : Actor :=
  let a := { a with deniedConnections := a.deniedConnections.pop connection }
  match a.connections.disconnected peer with
  | (false, connections) => { a with connections }
  | (true, connections) =>
    ({ a with connections, syncSessions := a.syncSessions.erase peer }.dropPending peer).notify
      (.peerDisconnected peer)

def Actor.incomingConnectionError (a : Actor) (connection : ConnectionId) (error : String) :
    Actor :=
  { a with deniedConnections := a.deniedConnections.pop connection }.violation none
    ("inbound connection rejected: " ++ error)

def Actor.incomingConnection (a : Actor) (connection : ConnectionId) (sendBackAddr : Multiaddr)
    (c : Clock) : Actor :=
  let key := sourceAddressKey sendBackAddr
  let counter := (a.connectionAttempts.peek key).getD (.new 10 (60 * second) (c.instant 1))
  let (allowed, counter) := counter.take (c.instant 0)
  let a := { a with connectionAttempts := a.connectionAttempts.put key counter }
  if allowed then a
  else (a.deny connection (c.instant 0)).emit (.closeConnection connection)

def Actor.identified (a : Actor) (peer : PeerId) (protocolVersion : String) (c : Clock) : Actor :=
  if !("/protonet/1.".toList).isPrefixOf protocolVersion.toList then
    ((a.block peer MALFORMED_BLOCK (c.instant 0)).violation (some peer)
      "unsupported major protocol version").emit (.disconnectPeer peer)
  else { a with connections := a.connections.setProtocol peer protocolVersion }

def Actor.pinged (a : Actor) (peer : PeerId) (rtt : ℕ) : Actor :=
  { a with connections := a.connections.setRtt peer rtt }

/-- The first test of a gossip message, with its parts asked in turn. -/
def Actor.gossipRefused (a : Actor) (source : PeerId) (bytes : ℕ) (c : Clock) : Bool × Actor :=
  if a.storageSafetyMode then (true, a)
  else
    match a.isBlocked source (c.instant 1) with
    | (true, a) => (true, a)
    | (false, a) =>
      match a.rateLimiter.allowGossip source bytes (c.instant 0) with
      | (false, rateLimiter) => (true, { a with rateLimiter })
      | (true, rateLimiter) =>
        let (allowed, globalRecords) := a.globalRecords.take (c.instant 0)
        (!allowed, { a with rateLimiter, globalRecords })

def Actor.rejectInvalid (a : Actor) (source : PeerId) (messageId : RecordId)
    (error : RecordValidation) (c : Clock) : Actor :=
  let a := a.reportGossip messageId source .reject
  let duration := if error = .invalidSignature then INVALID_SIGNATURE_BLOCK else MALFORMED_BLOCK
  let (tolerated, rateLimiter) := a.rateLimiter.noteInvalid source (c.instant 0)
  let a := { a with rateLimiter }
  let a := if !tolerated || error = .invalidSignature then
      (a.block source duration (c.instant 2)).emit (.disconnectPeer source)
    else a
  a.violation (some source) error.message

/-- A record the replay state calls new is charged to its source and handed to the writer. -/
def Actor.ingestGossip (a : Actor) (source : PeerId) (messageId : RecordId)
    (record : FlaggedFileRecord) (c : Clock) : Actor :=
  match a.allowIngestionSource source (c.instant 0) with
  | (false, a) =>
    (a.reportGossip messageId source .reject).block source MINOR_BLOCK (c.instant 2)
  | (true, a) =>
    match a.tryEnqueue ⟨record, some source, c.instant 2, some (messageId, source)⟩ with
    | (true, a) => { a with replay := a.replay.markPending record.recordId (c.instant 0) }
    | (false, a) => a.reportGossip messageId source .ignore

def Actor.validateGossip (K : Primitives) (a : Actor) (source : PeerId) (messageId : RecordId)
    (data : Bytes) (c : Clock) : Actor :=
  match a.gossipRefused source data.length c with
  | (true, a) =>
    ((a.reportGossip messageId source .reject).block source MINOR_BLOCK (c.instant 2)).emit
      (.disconnectPeer source)
  | (false, a) =>
    match RecordValidator.default.validateBytes K data (c.unixMs 0) with
    | .error error => a.rejectInvalid source messageId error c
    | .ok record =>
      match record.origin K with
      | .error error =>
        (a.reportGossip messageId source .reject).violation (some source) error.message
      | .ok origin =>
        match a.replay.check record.recordId origin record.sequence (c.instant 0) with
        | (.duplicate, replay) => { a with replay }.reportGossip messageId source .ignore
        | (.tooOld, replay) =>
          ({ a with replay }.reportGossip messageId source .reject).violation (some source)
            "record sequence is outside the replay window"
        | (.new, replay) => { a with replay }.ingestGossip source messageId record c

/-- One round of the loop over synchronized records; `false` ends the loop. -/
def Actor.acceptSyncRecord (K : Primitives) (a : Actor) (peer : PeerId)
    (record : FlaggedFileRecord) (now blockedAt : ℕ) (unixMs : Int64) : Bool × Actor :=
  match RecordValidator.default.validate K record unixMs with
  | .error _ =>
    (true, a.violation (some peer) "invalid signed record in synchronization response")
  | .ok () =>
    match record.origin K with
    | .error _ => (true, a)
    | .ok origin =>
      match a.replay.check record.recordId origin record.sequence now with
      | (.duplicate, replay) => (true, { a with replay })
      | (.tooOld, replay) => (true, { a with replay })
      | (.new, replay) =>
        match { a with replay }.allowIngestionSource peer now with
        | (false, a) => (false, a.block peer MINOR_BLOCK blockedAt)
        | (true, a) =>
          match a.tryEnqueue ⟨record, some peer, now, none⟩ with
          | (true, a) => (true, { a with replay := a.replay.markPending record.recordId now })
          | (false, a) => (false, a)

/-- The loop; the readings of round `i` are number `2 i + 1` and `2 i + 2` of the call. -/
def Actor.acceptSyncLoop (K : Primitives) (peer : PeerId) (c : Clock) :
    ℕ → List FlaggedFileRecord → Actor → Actor
  | _, [], a => a
  | i, record :: records, a =>
    match a.acceptSyncRecord K peer record (c.instant (2 * i + 1)) (c.instant (2 * i + 2))
      (c.unixMs i) with
    | (true, a) => acceptSyncLoop K peer c (i + 1) records a
    | (false, a) => a

def Actor.acceptSyncRecords (K : Primitives) (a : Actor) (peer : PeerId)
    (records : List FlaggedFileRecord) (c : Clock) : Actor :=
  if a.storageSafetyMode then a
  else a.acceptSyncLoop K peer c 0 (records.take MAX_REQUESTED_RECORDS)

def Actor.handleSyncResponse (K : Primitives) (a : Actor) (peer : PeerId) (id : RequestId)
    (response : SyncResponse) (c : Clock) : Actor :=
  match a.pendingSync.lookup id with
  | none => a
  | some pending =>
    let a := { a with pendingSync := a.pendingSync.erase id }
    match response.validateBounds with
    | .error _ =>
      (((a.updateSession peer (.settle id)).violation (some peer)
        "oversized synchronization response").block peer MALFORMED_BLOCK (c.instant 0)).emit
        (.disconnectPeer peer)
    | .ok () =>
      match pending, response with
      | .inventory peer, .inventory remote => a.emit (.compareInventory peer id remote)
      | .ids peer bucket, .recordIds ids nextCursor =>
        a.emit (.compareIds peer id bucket ids nextCursor)
      | .records peer, .records records =>
        ((a.updateSession peer (.settle id)).acceptSyncRecords K peer records c).pumpSync peer
      | _, _ =>
        ((a.violation (some peer) "unexpected synchronization response").updateSession peer
          (.settle id)).pumpSync peer

def Actor.prepareSyncResponse (a : Actor) (peer : PeerId) (request : SyncRequest) (channel : ℕ)
    (c : Clock) : Actor :=
  let (allowed, rateLimiter) := a.rateLimiter.allowSyncRequest peer (c.instant 0)
  let a := { a with rateLimiter }
  if !allowed || request.validate ≠ .ok () then a.emit (.sendResponse channel (.error .tooLarge))
  else a.emit (.prepareResponse peer channel request)

def Actor.outboundFailure (a : Actor) (peer : PeerId) (id : RequestId) : Actor :=
  ({ a with pendingSync := a.pendingSync.erase id }.updateSession peer (.settle id)).pumpSync peer

inductive DbAction
  | sendResponse (peer : PeerId) (channel : ℕ) (response : SyncResponse)
  | inventoryCompared (peer : PeerId) (id : RequestId) (differingBuckets : List Int64)
  | idsCompared (peer : PeerId) (id : RequestId) (bucket : Int64) (missing : List RecordId)
      (nextCursor : Option RecordId)
  | maintenance (storageSafe : Bool) (storageReason : Option String)
  deriving DecidableEq

/-- What follows a page with a successor: the next page, or the bucket from its start later. -/
def Actor.continueBucket (a : Actor) (peer : PeerId) (bucket : Int64) (cursor : RecordId) :
    Actor :=
  match a.syncSessions.lookup peer with
  | none => a
  | some session =>
    if session.outstanding.card < MAX_PENDING_SYNC_REQUESTS_PER_PEER then
      a.requestFor peer (.getRecordIds bucket (some cursor) (UInt16.ofNat MAX_IDS_PER_RESPONSE))
        (.ids peer bucket)
    else
      a.updateSession peer fun s => { s with differingBuckets := bucket :: s.differingBuckets }

def Actor.handleDbAction (a : Actor) (action : DbAction) (c : Clock) : Actor :=
  match action with
  | .sendResponse peer channel response =>
    let (allowed, rateLimiter) :=
      a.rateLimiter.allowSyncResponse peer response.encode.length (c.instant 0)
    let a := { a with rateLimiter }
    if allowed then a.emit (.sendResponse channel response) else a
  | .inventoryCompared peer id differingBuckets =>
    (a.updateSession peer fun s => { s.settle id with differingBuckets }).pumpSync peer
  | .idsCompared peer id bucket missing nextCursor =>
    let a := a.updateSession peer (.settle id)
    let a := if missing ≠ [] then a.requestFor peer (.getRecords missing) (.records peer) else a
    let a := match nextCursor with
      | none => a
      | some cursor => a.continueBucket peer bucket cursor
    a.pumpSync peer
  | .maintenance storageSafe storageReason =>
    if (!storageSafe) ≠ a.storageSafetyMode ∨ storageReason ≠ a.storageSafetyReason then
      { a with
        storageSafetyMode := !storageSafe
        storageSafetyReason := storageReason }.notify
        (.storageSafetyChanged (!storageSafe) storageReason)
    else a

def Actor.dropUnverified (a : Actor) (peer : PeerId) : Actor :=
  (a.violation (some peer) "Identify protocol handshake timed out").emit (.disconnectPeer peer)

/-- Sessions that ran longer than allowed, each against its own reading. -/
def Actor.timedOut (a : Actor) (c : Clock) : List PeerId :=
  (a.syncSessions.entries.zipIdx.filter fun e =>
    decide (c.instant (e.2 + 1) - e.1.2.started > MAX_SYNC_DURATION_SECS * second)).map
    fun e => e.1.1

def Actor.snapshotTick (a : Actor) (c : Clock) : Actor :=
  let a := { a with deniedConnections := purged a.deniedConnections (c.instant 0) }
  let a := (a.connections.unverifiedPeersOlderThan HANDSHAKE_TIMEOUT (c.instant 0)).foldl
    Actor.dropUnverified a
  (a.timedOut c).foldl (fun a peer => (a.dropPending peer).finishSync peer) a

inductive Event
  | command (command : Command) (signerFull : Bool)
  | signedRecord (result : Except String FlaggedFileRecord)
  | persisted (event : PersistEvent) (publication : Option String)
  | connectionEstablished (peer : PeerId) (endpoint : ConnectedPoint)
      (connection : ConnectionId) (numEstablished : ℕ)
  | connectionClosed (peer : PeerId) (connection : ConnectionId)
  | incomingConnectionError (connection : ConnectionId) (error : String)
  | incomingConnection (connection : ConnectionId) (sendBackAddr : Multiaddr)
  | identified (peer : PeerId) (protocolVersion : String)
  | pinged (peer : PeerId) (rtt : ℕ)
  | gossip (source : PeerId) (messageId : RecordId) (data : Bytes)
  | syncRequest (peer : PeerId) (request : SyncRequest) (channel : ℕ)
  | syncResponse (peer : PeerId) (id : RequestId) (response : SyncResponse)
  | outboundFailure (peer : PeerId) (id : RequestId)
  | inboundFailure (peer : PeerId)
  | dbAction (action : DbAction)
  | snapshotTick
  | syncTick (pick : Option PeerId)
  | cleanupTick
  /-- The writer thread takes requests off the queue. -/
  | workerTook (n : ℕ)
  /-- Events that touch nothing kept here. -/
  | other

def Actor.handle (K : Primitives) (a : Actor) (c : Clock) : Event → Actor
  | .command command signerFull => a.handleCommand command signerFull c
  | .signedRecord result => a.handleSignedRecord result c
  | .persisted event publication => a.handlePersisted K event publication c
  | .connectionEstablished peer endpoint connection numEstablished =>
    a.connectionEstablished peer endpoint connection numEstablished c
  | .connectionClosed peer connection => a.connectionClosed peer connection
  | .incomingConnectionError connection error => a.incomingConnectionError connection error
  | .incomingConnection connection sendBackAddr => a.incomingConnection connection sendBackAddr c
  | .identified peer protocolVersion => a.identified peer protocolVersion c
  | .pinged peer rtt => a.pinged peer rtt
  | .gossip source messageId data => a.validateGossip K source messageId data c
  | .syncRequest peer request channel => a.prepareSyncResponse peer request channel c
  | .syncResponse peer id response => a.handleSyncResponse K peer id response c
  | .outboundFailure peer id => a.outboundFailure peer id
  | .inboundFailure peer =>
    a.violation (some peer) "malformed or stalled synchronization request"
  | .dbAction action => a.handleDbAction action c
  | .snapshotTick => a.snapshotTick c
  | .syncTick pick => a.startBestSyncPeer pick (c.instant 0)
  | .cleanupTick => a.emit .cleanup
  | .workerTook n => { a with queue := a.queue.drop n }
  | .other => a

/-- The actor with the last turn's outbox delivered. -/
def Actor.cleared (a : Actor) : Actor := { a with outbox := [] }

/-- One turn of the event loop; the outbox holds what this turn asked for. -/
def Actor.step (K : Primitives) (a : Actor) (e : Clock × Event) : Actor :=
  a.cleared.handle K e.1 e.2

end Protonet.Swarm
