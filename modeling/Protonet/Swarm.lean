import Protonet.Connections
import Protonet.RateLimit
import Protonet.Replay
import Protonet.Sync
import Protonet.Worker

/-!
# The network actor

The state of the actor and the small operations its handlers share. What a handler asks of the
swarm, of background jobs and of the event channel is kept in order in an outbox. Metrics,
snapshots, address books and listen addresses are left out.
-/
namespace Protonet.Swarm
open Lru Postcard Record Replay RateLimit Address Connections Sync Worker

def MINOR_BLOCK : ℕ := 5 * 60 * second
def MALFORMED_BLOCK : ℕ := 60 * 60 * second
def INVALID_SIGNATURE_BLOCK : ℕ := 24 * 60 * 60 * second
def MAX_BLOCKED_PEERS : ℕ := 10000
def MAX_DENIED_CONNECTIONS : ℕ := 10000
def DENIED_CONNECTION_TTL : ℕ := 15 * second
def HANDSHAKE_TIMEOUT : ℕ := 10 * second
def GLOBAL_RECORDS_PER_MINUTE : ℕ := 5000
def MAX_CONNECTION_SOURCES : ℕ := 10000

abbrev ConnectionId := ℕ

/-- `OutboundRequestId`. -/
abbrev RequestId := ℕ

/-- The clock readings of one handler call, in the order they are taken. -/
structure Clock where
  instant : ℕ → ℕ
  unixMs : ℕ → Int64
  finish : ℕ
  monotone : Monotone instant
  le_finish : ∀ i, instant i ≤ finish

/-- A call during which no time passes. -/
def Clock.still (instant : ℕ) (unixMs : Int64) : Clock :=
  ⟨fun _ => instant, fun _ => unixMs, instant, monotone_const, fun _ => le_rfl⟩

inductive MessageAcceptance
  | accept
  | reject
  | ignore
  deriving DecidableEq

inductive NetworkEvent
  | peerConnected (peer : PeerId) (address : Multiaddr) (directness : Directness)
      (transport : TransportKind)
  | peerDisconnected (peer : PeerId)
  | recordPublished (recordId : RecordId) (fileName : Option Text)
  | recordReceived (recordId : RecordId) (source : PeerId) (fileName : Option Text)
  | protocolViolation (peer : Option PeerId) (reason : String)
  | syncStarted (peer : PeerId)
  | syncProgress (peer : PeerId) (received : ℕ)
  | syncCompleted (peer : PeerId) (received : ℕ)
  | storageSafetyChanged (active : Bool) (reason : Option String)
  deriving DecidableEq

inductive Effect
  | notify (event : NetworkEvent)
  | reportGossip (messageId : RecordId) (source : PeerId) (acceptance : MessageAcceptance)
  | disconnectPeer (peer : PeerId)
  | closeConnection (connection : ConnectionId)
  | block (peer : PeerId) (start duration : ℕ)
  | sendRequest (id : RequestId) (peer : PeerId) (request : SyncRequest)
  | sendResponse (channel : ℕ) (response : SyncResponse)
  | prepareResponse (peer : PeerId) (channel : ℕ) (request : SyncRequest)
  | compareInventory (peer : PeerId) (id : RequestId) (remote : InventorySummary)
  | compareIds (peer : PeerId) (id : RequestId) (bucket : Int64) (ids : List RecordId)
      (nextCursor : Option RecordId)
  | sign (sha256 blake3 : Hash32) (fileSize : UInt64) (fileName : Option Text)
  | publish (data : Bytes)
  | cleanup
  deriving DecidableEq

inductive PendingSync
  | inventory (peer : PeerId)
  | ids (peer : PeerId) (bucket : Int64)
  | records (peer : PeerId)
  deriving DecidableEq

def PendingSync.peer : PendingSync → PeerId
  | .inventory peer => peer
  | .ids peer _ => peer
  | .records peer => peer

structure SyncSession where
  started : ℕ
  differingBuckets : List Int64
  outstanding : Finset RequestId
  received : ℕ

structure Actor where
  identity : PeerId
  replay : ReplayState
  rateLimiter : RateLimiter
  connections : ConnectionManager
  /-- The channel to the writer thread: enqueued and not yet taken. -/
  queue : List PersistRequest
  blocked : LruCache PeerId ℕ
  pendingSync : AList (fun _ : RequestId => PendingSync)
  syncSessions : AList (fun _ : PeerId => SyncSession)
  globalRecords : WindowCounter
  connectionAttempts : LruCache (Option IpAddr) WindowCounter
  deniedConnections : LruCache ConnectionId ℕ
  storageSafetyMode : Bool
  storageSafetyReason : Option String
  nextRequest : RequestId
  outbox : List Effect

/-- The actor as the engine starts it, with the loaded replay state and the storage status. -/
def Actor.start (identity : PeerId) (replay : ReplayState) (storageSafetyMode : Bool)
    (storageSafetyReason : Option String) (now : ℕ) : Actor where
  identity := identity
  replay := replay
  rateLimiter := .default
  connections := .empty
  queue := []
  blocked := .new MAX_BLOCKED_PEERS (by decide)
  pendingSync := ∅
  syncSessions := ∅
  globalRecords := .new GLOBAL_RECORDS_PER_MINUTE (60 * second) now
  connectionAttempts := .new MAX_CONNECTION_SOURCES (by decide)
  deniedConnections := .new MAX_DENIED_CONNECTIONS (by decide)
  storageSafetyMode := storageSafetyMode
  storageSafetyReason := storageSafetyReason
  nextRequest := 0
  outbox := []

def Actor.emit (a : Actor) (e : Effect) : Actor := { a with outbox := a.outbox ++ [e] }

/-- `try_event`: the engine goes on whether or not the window's channel has room. -/
def Actor.notify (a : Actor) (e : NetworkEvent) : Actor := a.emit (.notify e)

def Actor.violation (a : Actor) (peer : Option PeerId) (reason : String) : Actor :=
  a.notify (.protocolViolation peer reason)

def Actor.reportGossip (a : Actor) (messageId : RecordId) (source : PeerId)
    (acceptance : MessageAcceptance) : Actor :=
  a.emit (.reportGossip messageId source acceptance)

/-- The report is due only for requests that came by gossip. -/
def Actor.reportValidation (a : Actor) (gossipValidation : Option (RecordId × PeerId))
    (acceptance : MessageAcceptance) : Actor :=
  match gossipValidation with
  | none => a
  | some (messageId, source) => a.reportGossip messageId source acceptance

def Actor.block (a : Actor) (peer : PeerId) (duration now : ℕ) : Actor :=
  { a with blocked := a.blocked.put peer (now + duration) }.emit (.block peer now duration)

def Actor.isBlocked (a : Actor) (peer : PeerId) (now : ℕ) : Bool × Actor :=
  match a.blocked.peek peer with
  | none => (false, a)
  | some deadline =>
    if deadline > now then (true, { a with blocked := a.blocked.promote peer })
    else (false, { a with blocked := (a.blocked.promote peer).pop peer })

/-- `try_send` on the bounded channel; the writer thread never hangs up. -/
def Actor.tryEnqueue (a : Actor) (request : PersistRequest) : Bool × Actor :=
  if a.queue.length < PERSISTENCE_QUEUE_CAPACITY then
    (true, { a with queue := a.queue ++ [request] })
  else (false, a)

def Actor.allowIngestionSource (a : Actor) (peer : PeerId) (now : ℕ) : Bool × Actor :=
  match a.connections.sourceKeys peer with
  | none => (false, a)
  | some (ip, p) =>
    let (allowed, rateLimiter) := a.rateLimiter.allowIngestionSource ip p now
    (allowed, { a with rateLimiter })

def Actor.updateSession (a : Actor) (peer : PeerId) (f : SyncSession → SyncSession) : Actor :=
  match a.syncSessions.lookup peer with
  | none => a
  | some session => { a with syncSessions := a.syncSessions.insert peer (f session) }

/-- Send a request and register what its response will be taken for. -/
def Actor.sendRequest (a : Actor) (peer : PeerId) (request : SyncRequest)
    (pending : PendingSync) : Actor :=
  { a with
    pendingSync := a.pendingSync.insert a.nextRequest pending
    nextRequest := a.nextRequest + 1 }.emit (.sendRequest a.nextRequest peer request)

def SyncSession.await (id : RequestId) (s : SyncSession) : SyncSession :=
  { s with outstanding := insert id s.outstanding }

def SyncSession.settle (id : RequestId) (s : SyncSession) : SyncSession :=
  { s with outstanding := s.outstanding.erase id }

/-- A request made for a running session. -/
def Actor.requestFor (a : Actor) (peer : PeerId) (request : SyncRequest)
    (pending : PendingSync) : Actor :=
  (a.sendRequest peer request pending).updateSession peer (.await a.nextRequest)

def Actor.dropPending (a : Actor) (peer : PeerId) : Actor :=
  { a with pendingSync :=
      ⟨a.pendingSync.entries.filter fun e => e.2.peer ≠ peer,
        a.pendingSync.nodupKeys.sublist List.filter_sublist⟩ }

def Actor.finishSync (a : Actor) (peer : PeerId) : Actor :=
  match a.syncSessions.lookup peer with
  | none => a
  | some session =>
    { a with syncSessions := a.syncSessions.erase peer }.notify
      (.syncCompleted peer session.received)

/-- The loop of `pump_sync` over the buckets still queued in the session. -/
def Actor.pumpBuckets (peer : PeerId) : List Int64 → Actor → Actor
  | buckets, a =>
    match a.syncSessions.lookup peer with
    | none => a
    | some session =>
      if session.outstanding.card ≥ MAX_PENDING_SYNC_REQUESTS_PER_PEER then a
      else
        match buckets with
        | [] => if session.outstanding = ∅ then a.finishSync peer else a
        | bucket :: rest =>
          pumpBuckets peer rest
            ((a.updateSession peer fun s => { s with differingBuckets := rest }).requestFor peer
              (.getRecordIds bucket none (UInt16.ofNat MAX_IDS_PER_RESPONSE)) (.ids peer bucket))

def Actor.pumpSync (a : Actor) (peer : PeerId) : Actor :=
  match a.syncSessions.lookup peer with
  | none => a
  | some session => a.pumpBuckets peer session.differingBuckets

def Actor.startSync (a : Actor) (peer : PeerId) (now : ℕ) : Actor :=
  if (a.syncSessions.lookup peer).isSome ∨
      a.syncSessions.entries.length ≥ MAX_SIMULTANEOUS_SYNC_PEERS then a
  else
    let id := a.nextRequest
    let a := a.sendRequest peer .getInventory (.inventory peer)
    { a with syncSessions := a.syncSessions.insert peer ⟨now, [], {id}, 0⟩ }.notify
      (.syncStarted peer)

end Protonet.Swarm
