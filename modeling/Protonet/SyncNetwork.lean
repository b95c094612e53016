import Protonet.RequestWire
import Protonet.SwarmEffects
import Protonet.SyncLedger

/-!
# A network of honest nodes

Any number of nodes that ask each other, among peers that send what they like. Messages between
nodes may be lost, held back and repeated, but not altered; background jobs read any store.
-/
namespace Protonet.SyncNetwork
open StepRun Postcard Record RecordIdentity Replay Database Sync Queries Swarm InventoryDigests
  SyncWorld SyncWire RequestWire

/-- The stream that a request came on, which its response goes back by. -/
structure Channel (ι : Type*) where
  responder : ι
  channel : ℕ
  /-- The node that asked and its request id, unless the request came from outside. -/
  requester : Option (ι × RequestId)
  request : SyncRequest
  deriving DecidableEq

structure Network (ι : Type*) where
  actors : ι → Actor
  /-- What the nodes have asked for, in order. -/
  effects : List (ι × Effect)
  opened : List (Channel ι)

/-- The results that a background job may send back, whatever the store is by then. -/
inductive Completes (K : Primitives) : Effect → DbAction → Prop
  | response {peer : PeerId} {channel : ℕ} {request : SyncRequest} (db : SignatureDatabase)
      (now : Int64) : Completes K (.prepareResponse peer channel request)
        (.sendResponse peer channel (respond K db now request))
  | inventory {peer : PeerId} {id : RequestId} {remote : InventorySummary}
      (db : SignatureDatabase) (now : Int64) : Completes K (.compareInventory peer id remote)
        (.inventoryCompared peer id (differingBuckets (inventory K db now) remote))
  | ids {peer : PeerId} {id : RequestId} {bucket : Int64} {ids : List RecordId}
      {nextCursor : Option RecordId} (db : SignatureDatabase) (now : Int64) :
      Completes K (.compareIds peer id bucket ids nextCursor)
        (.idsCompared peer id bucket (missingIds db ids now) nextCursor)

/-- Events that neither bring a synchronization message nor the result of a job of its own. -/
def isPlain : Event → Bool
  | .syncRequest .. | .syncResponse .. => false
  | .dbAction (.maintenance ..) => true
  | .dbAction _ => false
  | _ => true

inductive Turn (ι : Type*)
  /-- A node reads the request of another one. -/
  | request (i : ι) (id : RequestId) (j : ι) (request : SyncRequest) (channel : ℕ)
  | foreignRequest (j : ι) (peer : PeerId) (request : SyncRequest) (channel : ℕ)
  /-- A node reads the response to a request of its own. -/
  | response (o : Channel ι) (i : ι) (id : RequestId) (response : SyncResponse)
  | foreignResponse (i : ι) (peer : PeerId) (id : RequestId) (response : SyncResponse)
  | job (i : ι) (action : DbAction)
  | other (i : ι) (e : Event)
  /-- A process ends with its connections, and another one begins. -/
  | restart (i : ι) (replay : ReplayState) (storageSafetyMode : Bool)
      (storageSafetyReason : Option String) (now : ℕ)

variable {ι : Type*}

def Network.start (actors : ι → Actor) : Network ι := ⟨actors, [], []⟩

/-- A response that nobody waits for any more. -/
def Channel.orphan [DecidableEq ι] (i : ι) (o : Channel ι) : Channel ι :=
  { o with requester := o.requester.filter fun r => decide (r.1 ≠ i) }

section
variable [DecidableEq ι] (K : Primitives) (name : ι → PeerId)

def Network.turn (w : Network ι) (c : Clock) (i : ι) (e : Event) : Network ι where
  actors := Function.update w.actors i ((w.actors i).step K (c, e))
  effects := w.effects ++ ((w.actors i).step K (c, e)).outbox.map fun x => (i, x)
  opened := w.opened

/-- What cannot be read fails, at the reader of a request and at the asker for a response. -/
def Network.step (w : Network ι) (t : Clock × Turn ι) : Network ι :=
  match t.2 with
  | .request i id j request channel =>
    match transmit SyncRequest.encode SyncRequest.decode request with
    | .ok request =>
      { w.turn K t.1 j (.syncRequest (name i) request channel) with
        opened := w.opened ++ [⟨j, channel, some (i, id), request⟩] }
    | .error _ => w.turn K t.1 j (.inboundFailure (name i))
  | .foreignRequest j peer request channel =>
    { w.turn K t.1 j (.syncRequest peer request channel) with
      opened := w.opened ++ [⟨j, channel, none, request⟩] }
  | .response o i id response =>
    match transmit SyncResponse.encode SyncResponse.decode response with
    | .ok response => w.turn K t.1 i (.syncResponse (name o.responder) id response)
    | .error _ => w.turn K t.1 i (.outboundFailure (name o.responder) id)
  | .foreignResponse i peer id response => w.turn K t.1 i (.syncResponse peer id response)
  | .job i action => w.turn K t.1 i (.dbAction action)
  | .other i e => w.turn K t.1 i e
  | .restart i replay storageSafetyMode storageSafetyReason now =>
    { actors := Function.update w.actors i
        (.start (name i) replay storageSafetyMode storageSafetyReason now)
      effects := w.effects.filter fun x => decide (x.1 ≠ i)
      opened := (w.opened.filter fun o => decide (o.responder ≠ i)).map (.orphan i) }

/-- Messages are those that nodes have sent, a stream is opened once, and jobs have been started. -/
def Enabled (w : Network ι) (t : Clock × Turn ι) : Prop :=
  match t.2 with
  | .request i id j request channel => (i, .sendRequest id (name j) request) ∈ w.effects ∧
    ∀ o ∈ w.opened, o.responder = j → o.channel ≠ channel
  | .foreignRequest j peer _ channel => (∀ k, name k ≠ peer) ∧
    ∀ o ∈ w.opened, o.responder = j → o.channel ≠ channel
  | .response o i id response => o ∈ w.opened ∧ o.requester = some (i, id) ∧
    (o.responder, .sendResponse o.channel response) ∈ w.effects
  | .foreignResponse i peer id _ => (∀ k, name k ≠ peer) ∧
    ∃ request, (i, .sendRequest id peer request) ∈ w.effects
  | .job i action => ∃ x, (i, x) ∈ w.effects ∧ Completes K x action
  | .other _ e => isPlain e = true
  | .restart .. => True

end

/-- Whether a response is one to what was asked, or an error. -/
def fits : PendingSync → SyncResponse → Bool
  | .inventory _, .inventory _ => true
  | .ids .., .recordIds .. => true
  | .records _, .records _ => true
  | _, .error _ => true
  | _, _ => false

/-- A message between nodes is read as it was sent and passes the checks of the node that reads it.
A response is of the kind the node expects, if it still expects one, or an error. -/
def Understood (w : Network ι) (t : Clock × Turn ι) : Prop :=
  match t.2 with
  | .request _ _ _ request _ =>
    transmit SyncRequest.encode SyncRequest.decode request = .ok request ∧
      request.validate = .ok ()
  | .response _ i id response =>
    transmit SyncResponse.encode SyncResponse.decode response = .ok response ∧
      response.validateBounds = .ok () ∧
      ∀ pending ∈ (w.actors i).pendingSync.lookup id, fits pending response = true
  | _ => True

/-- A page comparison asks for no more than a request may. -/
def DbAction.few : DbAction → Bool
  | .idsCompared _ _ _ missing _ => decide (missing.length ≤ MAX_REQUESTED_RECORDS)
  | _ => true

/-- Ids are given out once, and a pending entry is for the request that has its id. -/
structure Filed (sent : List (RequestId × PeerId × SyncRequest))
    (pending : AList fun _ : RequestId => PendingSync) (next : RequestId) : Prop where
  given : ∀ s ∈ sent, s.1 < next
  once : ∀ s ∈ sent, ∀ t ∈ sent, s.1 = t.1 → s = t
  pending : ∀ id, ∀ entry ∈ pending.lookup id, ∃ peer request,
    (id, peer, request) ∈ sent ∧ entry = pendingOf peer request

def Books.Filed (x : Books) : Prop := SyncNetwork.Filed x.sent x.pending x.next

variable {x x' : Books} {p : PeerId} {id : RequestId} {request : SyncRequest} {e : Event}

namespace Books.Filed

lemma less (h : Books.Filed x) (hsent : x'.sent = x.sent) (hnext : x'.next = x.next)
    (hpending : ∀ id, ∀ entry ∈ x'.pending.lookup id, entry ∈ x.pending.lookup id) :
    Books.Filed x' := by
  unfold Books.Filed at h ⊢
  rw [hsent, hnext]
  exact ⟨h.given, h.once, fun id entry hentry => h.pending id entry (hpending id entry hentry)⟩

lemma send (h : Books.Filed x) : Books.Filed (x.send p request) where
  given s hs := by
    rcases List.mem_append.mp hs with hs | hs
    · exact (h.given s hs).trans (Nat.lt_succ_self _)
    · rw [List.mem_singleton.mp hs]
      exact Nat.lt_succ_self _
  once s hs t ht heq := by
    rcases List.mem_append.mp hs with hs | hs
    · rcases List.mem_append.mp ht with ht | ht
      · exact h.once s hs t ht heq
      · rw [List.mem_singleton.mp ht] at heq
        exact absurd (h.given s hs) (heq ▸ lt_irrefl _)
    · rcases List.mem_append.mp ht with ht | ht
      · rw [List.mem_singleton.mp hs] at heq
        exact absurd (h.given t ht) (heq ▸ lt_irrefl _)
      · rw [List.mem_singleton.mp hs, List.mem_singleton.mp ht]
  pending id entry hentry := by
    by_cases hid : id = x.next
    · subst hid
      rw [Books.send, AList.lookup_insert, Option.mem_some_iff] at hentry
      exact ⟨p, request, List.mem_append_right _ (List.mem_singleton_self _), hentry.symm⟩
    · rw [Books.send, AList.lookup_insert_ne hid] at hentry
      obtain ⟨peer, request, hmem, heq⟩ := h.pending id entry hentry
      exact ⟨peer, request, List.mem_append_left _ hmem, heq⟩

lemma amend (h : Books.Filed x) {f : Agenda → Agenda} : Books.Filed (x.amend p f) := h

lemma fetch (h : Books.Filed x) {missing : List RecordId} : Books.Filed (x.fetch p missing) := by
  unfold Books.fetch
  split_ifs
  · exact h.send
  · exact h

lemma goOn (h : Books.Filed x) {bucket : Int64} {nextCursor : Option RecordId} :
    Books.Filed (x.goOn p bucket nextCursor) := by
  unfold Books.goOn Books.continueBucket
  split
  · exact h
  · split
    · exact h
    · split_ifs
      · exact h.send
      · exact h

lemma pumps (h : Books.Filed x) (hpumps : Books.Pumps p x x') : Books.Filed x' := by
  induction hpumps with
  | idle => exact h
  | wait => exact h
  | finish => exact h
  | next _ _ _ ih => exact ih h.send

lemma take (h : Books.Filed x) : Books.Filed (x.take id) :=
  h.less rfl rfl fun _ _ hentry => (SyncLedger.lookup_of_erase hentry).2

lemma drop (h : Books.Filed x) : Books.Filed (x.drop p) :=
  h.less rfl rfl fun _ _ hentry => (SyncLedger.drop_pending hentry).2

lemma turn (h : Books.Filed x) (hturn : Books.Turn e x x') : Books.Filed x' := by
  cases hturn with
  | same => exact h
  | start => exact h.send
  | closed => exact h.drop
  | expired ps => exact SyncLedger.dropAll_induction (fun _ _ h => drop h) h ps
  | ignored => exact h
  | compared => exact h.take
  | oversized => exact h.take
  | settled _ _ _ _ hpumps => exact pumps h.take.amend hpumps
  | failed hpumps => exact pumps h.take.amend hpumps
  | inventoryCompared hpumps => exact pumps h.amend hpumps
  | idsCompared hpumps => exact pumps h.amend.fetch.goOn hpumps

end Books.Filed

def Network.of [DecidableEq ι] (w : Network ι) (i : ι) : List Effect :=
  w.effects.filterMap fun x => if x.1 = i then some x.2 else none

/-- An answer within the bounds, and of the kind that is asked for or an error. -/
structure Answers (request : SyncRequest) (response : SyncResponse) : Prop where
  bounds : response.validateBounds = .ok ()
  records : ∀ rs, response = .records rs → ∀ record ∈ rs, record.checkFieldBounds = .ok ()
  kind : ∀ peer, fits (pendingOf peer request) response = true

/-- What the nodes have sent so far is in order, and each response has its stream. -/
structure Orderly [DecidableEq ι] (name : ι → PeerId) (w : Network ι) : Prop where
  requests : ∀ i id peer request, (i, .sendRequest id peer request) ∈ w.effects →
    request.validate = .ok ()
  filed : ∀ i, Filed (sentIn (w.of i)) (w.actors i).pendingSync (w.actors i).nextRequest
  prepared : ∀ j peer channel request, (j, .prepareResponse peer channel request) ∈ w.effects →
    ∃ o ∈ w.opened, o.responder = j ∧ o.channel = channel ∧ o.request = request
  answered : ∀ j channel response, (j, .sendResponse channel response) ∈ w.effects →
    ∃ o ∈ w.opened, o.responder = j ∧ o.channel = channel ∧ Answers o.request response
  alone : ∀ o ∈ w.opened, ∀ o' ∈ w.opened, o.responder = o'.responder → o.channel = o'.channel →
    o.request = o'.request
  asked : ∀ o ∈ w.opened, ∀ i id, o.requester = some (i, id) →
    (i, .sendRequest id (name o.responder) o.request) ∈ w.effects

variable {K : Primitives} {name : ι → PeerId} {w : Network ι} {i j : ι} {c : Clock}
  {response : SyncResponse}

lemma answers_refusal (code : SyncErrorCode) : Answers request (.error code) where
  bounds := rfl
  records := nofun
  kind peer := by cases request <;> rfl

lemma answers_respond (db : SignatureDatabase) (now : Int64) :
    Answers request (respond K db now request) where
  bounds := (respond_bounds K db now request).1
  records := (respond_bounds K db now request).2
  kind peer := by
    cases request with
    | getInventory => rfl
    | getRecordIds bucket cursor limit =>
      unfold respond
      dsimp only
      split <;> rfl
    | getRecords ids =>
      unfold respond
      dsimp only
      split <;> rfl

/-- What an honest node asks for passes the check of whoever is asked. -/
lemma asks_valid (hjob : ∀ action, e = .dbAction action → DbAction.few action = true) {peer : PeerId}
    (h : Asks e peer request) : request.validate = .ok () := by
  cases h with
  | inventory => rfl
  | page => rfl
  | nextPage => rfl
  | records hmissing => exact if_pos ⟨hmissing, of_decide_eq_true (hjob _ rfl)⟩

section Step
variable [DecidableEq ι]

lemma mem_of {x : Effect} : x ∈ w.of i ↔ (i, x) ∈ w.effects := by
  unfold Network.of
  rw [List.mem_filterMap]
  constructor
  · rintro ⟨⟨k, y⟩, hmem, heq⟩
    dsimp only at heq
    split_ifs at heq with hk
    rw [← hk, ← Option.some.inj heq]
    exact hmem
  · exact fun h => ⟨_, h, if_pos rfl⟩

lemma of_turn_self : (w.turn K c i e).of i = w.of i ++ ((w.actors i).step K (c, e)).outbox := by
  unfold Network.of Network.turn
  rw [List.filterMap_append, List.filterMap_map]
  congr 1
  refine (List.filterMap_congr fun x _ => ?_).trans List.filterMap_some
  exact if_pos rfl

lemma of_turn_of_ne (h : j ≠ i) : (w.turn K c i e).of j = w.of j := by
  unfold Network.of Network.turn
  rw [List.filterMap_append, List.filterMap_map]
  have hnone : ((w.actors i).step K (c, e)).outbox.filterMap
      ((fun x : ι × Effect => if x.1 = j then some x.2 else none) ∘ fun x => (i, x)) = [] :=
    List.filterMap_eq_nil_iff.mpr fun x _ => if_neg h.symm
  rw [hnone, List.append_nil]

lemma filed_turn {sent : List (RequestId × PeerId × SyncRequest)} {a : Actor}
    (h : Filed sent a.pendingSync a.nextRequest) :
    Filed (sent ++ sentIn (a.step K (c, e)).outbox) (a.step K (c, e)).pendingSync
      (a.step K (c, e)).nextRequest := by
  have hturn := @handle_books K a.cleared c ⟨∅, ∅, sent, []⟩ e
  refine Books.Filed.turn (x := a.cleared.books ⟨∅, ∅, sent, []⟩) ?_ hturn
  have hsent : sent ++ sentIn [] = sent := List.append_nil sent
  unfold Books.Filed Actor.books Dues.add
  dsimp only
  rw [show a.cleared.outbox = [] from rfl, hsent]
  exact h

lemma orderly_turn (h : Orderly name w) {opened : List (Channel ι)}
    (hfew : ∀ action, e = .dbAction action → DbAction.few action = true)
    (hopened : ∀ peer request channel, e = .syncRequest peer request channel →
      ∃ o ∈ opened, o.responder = i ∧ o.channel = channel ∧ o.request = request)
    (hanswer : ∀ peer channel response, e = .dbAction (.sendResponse peer channel response) →
      ∃ o ∈ w.opened, o.responder = i ∧ o.channel = channel ∧ Answers o.request response)
    (halone : ∀ o ∈ w.opened ++ opened, ∀ o' ∈ w.opened ++ opened, o.responder = o'.responder →
      o.channel = o'.channel → o.request = o'.request)
    (hasked : ∀ o ∈ opened, ∀ i id, o.requester = some (i, id) →
      (i, .sendRequest id (name o.responder) o.request) ∈ w.effects) :
    Orderly name { w.turn K c i e with opened := w.opened ++ opened } := by
  have hcaused {k : ι} {x : Effect} (hx : (k, x) ∈ (w.turn K c i e).effects) :
      (k, x) ∈ w.effects ∨ k = i ∧ Caused K (w.actors i).identity e x := by
    rcases List.mem_append.mp hx with hx | hx
    · exact .inl hx
    · obtain ⟨y, hy, heq⟩ := List.mem_map.mp hx
      obtain ⟨rfl, rfl⟩ := Prod.mk.inj heq
      exact .inr ⟨rfl, outbox_caused hy⟩
  refine ⟨fun k id peer request hx => ?_, fun k => ?_, fun k peer channel request hx => ?_,
    fun k channel response hx => ?_, halone, fun o ho k id hrequester => ?_⟩
  · rcases hcaused hx with hx | ⟨-, hasks⟩
    · exact h.requests k id peer request hx
    · exact asks_valid hfew hasks
  · by_cases hk : k = i
    · subst hk
      change Filed (sentIn ((w.turn K c k e).of k)) _ _
      rw [of_turn_self, sentIn, List.filterMap_append]
      change Filed _ (Function.update w.actors k _ k).pendingSync
        (Function.update w.actors k _ k).nextRequest
      rw [Function.update_self]
      exact filed_turn (h.filed k)
    · change Filed (sentIn ((w.turn K c i e).of k)) _ _
      rw [of_turn_of_ne hk]
      change Filed _ (Function.update w.actors i _ k).pendingSync
        (Function.update w.actors i _ k).nextRequest
      rw [Function.update_of_ne hk]
      exact h.filed k
  · rcases hcaused hx with hx | ⟨rfl, heq, -⟩
    · obtain ⟨o, ho, hall⟩ := h.prepared k peer channel request hx
      exact ⟨o, List.mem_append_left _ ho, hall⟩
    · obtain ⟨o, ho, hall⟩ := hopened peer request channel heq
      exact ⟨o, List.mem_append_right _ ho, hall⟩
  · rcases hcaused hx with hx | ⟨rfl, ⟨peer, request, heq, rfl⟩ | ⟨peer, heq⟩⟩
    · obtain ⟨o, ho, hall⟩ := h.answered k channel response hx
      exact ⟨o, List.mem_append_left _ ho, hall⟩
    · obtain ⟨o, ho, hresponder, hchannel, -⟩ := hopened peer request channel heq
      exact ⟨o, List.mem_append_right _ ho, hresponder, hchannel, answers_refusal _⟩
    · obtain ⟨o, ho, hall⟩ := hanswer peer channel response heq
      exact ⟨o, List.mem_append_left _ ho, hall⟩
  · rcases List.mem_append.mp ho with ho | ho
    · exact List.mem_append_left _ (h.asked o ho k id hrequester)
    · exact List.mem_append_left _ (hasked o ho k id hrequester)

lemma orderly_quiet (h : Orderly name w)
    (hfew : ∀ action, e = .dbAction action → DbAction.few action = true)
    (hrequest : ∀ peer request channel, e ≠ .syncRequest peer request channel)
    (hanswer : ∀ peer channel response, e = .dbAction (.sendResponse peer channel response) →
      ∃ o ∈ w.opened, o.responder = i ∧ o.channel = channel ∧ Answers o.request response) :
    Orderly name (w.turn K c i e) := by
  have hsame : ({ w.turn K c i e with opened := w.opened ++ [] } : Network ι) = w.turn K c i e := by
    rw [List.append_nil]
    rfl
  rw [← hsame]
  refine orderly_turn h hfew (fun peer request channel heq => (hrequest peer request channel heq).elim)
    hanswer ?_ nofun
  rw [List.append_nil]
  exact h.alone

lemma orderly_opened (h : Orderly name w) {peer : PeerId} {channel : ℕ}
    {requester : Option (ι × RequestId)}
    (hfresh : ∀ o ∈ w.opened, o.responder = j → o.channel ≠ channel)
    (hasked : ∀ i id, requester = some (i, id) →
      (i, .sendRequest id (name j) request) ∈ w.effects) :
    Orderly name { w.turn K c j (.syncRequest peer request channel) with
      opened := w.opened ++ [⟨j, channel, requester, request⟩] } := by
  refine orderly_turn h nofun (fun peer' request' channel' heq => ?_) nofun
    (fun o ho o' ho' hresponder hchannel => ?_) fun o ho => ?_
  · obtain ⟨-, rfl, rfl⟩ := Event.syncRequest.inj heq
    exact ⟨_, List.mem_singleton_self _, rfl, rfl, rfl⟩
  · rcases List.mem_append.mp ho with ho | ho
    · rcases List.mem_append.mp ho' with ho' | ho'
      · exact h.alone o ho o' ho' hresponder hchannel
      · rw [List.mem_singleton.mp ho'] at hresponder hchannel
        exact absurd hchannel (hfresh o ho hresponder)
    · rcases List.mem_append.mp ho' with ho' | ho'
      · rw [List.mem_singleton.mp ho] at hresponder hchannel
        exact absurd hchannel.symm (hfresh o' ho' hresponder.symm)
      · rw [List.mem_singleton.mp ho, List.mem_singleton.mp ho']
  · rw [List.mem_singleton.mp ho]
    exact hasked

lemma orderly_job (h : Orderly name w) {action : DbAction} {x : Effect}
    (hx : (i, x) ∈ w.effects) (hcompletes : Completes K x action) :
    Orderly name (w.turn K c i (.dbAction action)) := by
  refine orderly_quiet h (fun action' heq => ?_) nofun fun peer channel response heq => ?_
  · obtain rfl := Event.dbAction.inj heq
    cases hcompletes with
    | ids db now => exact decide_eq_true (List.length_take_le _ _)
    | _ => rfl
  · obtain rfl := Event.dbAction.inj heq
    cases hcompletes with
    | response db now =>
      obtain ⟨o, ho, hresponder, hchannel, rfl⟩ := h.prepared i _ _ _ hx
      exact ⟨o, ho, hresponder, hchannel, answers_respond db now⟩

lemma orderly_other (h : Orderly name w) (hplain : isPlain e = true) :
    Orderly name (w.turn K c i e) := by
  refine orderly_quiet h ?_ ?_ ?_
  · rintro action rfl
    cases action with
    | idsCompared => cases hplain
    | _ => rfl
  · rintro peer request channel rfl
    cases hplain
  · rintro peer channel response rfl
    cases hplain

/-- A process that ends takes what it has sent with it. -/
lemma orderly_restart (h : Orderly name w) {a : Actor} (hpending : a.pendingSync = ∅) :
    Orderly name
      { actors := Function.update w.actors i a
        effects := w.effects.filter fun x => decide (x.1 ≠ i)
        opened := (w.opened.filter fun o => decide (o.responder ≠ i)).map (.orphan i) } := by
  have hkept {k : ι} {x : Effect} (hx : (k, x) ∈ w.effects.filter fun x => decide (x.1 ≠ i)) :
      (k, x) ∈ w.effects ∧ k ≠ i :=
    ⟨(List.mem_filter.mp hx).1, of_decide_eq_true (List.mem_filter.mp hx).2⟩
  have hstill {o : Channel ι} {k : ι} (ho : o ∈ w.opened) (hk : o.responder = k) (hne : k ≠ i) :
      o.orphan i ∈ (w.opened.filter fun o => decide (o.responder ≠ i)).map (Channel.orphan i) :=
    List.mem_map_of_mem (List.mem_filter.mpr ⟨ho, decide_eq_true (hk ▸ hne)⟩)
  refine ⟨fun k id peer request hx => ?_, fun k => ?_, fun k peer channel request hx => ?_,
    fun k channel response hx => ?_, fun o ho o' ho' => ?_, fun o ho k id hrequester => ?_⟩
  · exact h.requests k id peer request (hkept hx).1
  · by_cases hk : k = i
    · subst hk
      change Filed _ (Function.update w.actors k a k).pendingSync
        (Function.update w.actors k a k).nextRequest
      rw [Function.update_self, hpending]
      have hnone : Network.of { w with effects := w.effects.filter fun x => decide (x.1 ≠ k) } k =
          [] := List.filterMap_eq_nil_iff.mpr fun x hx => if_neg (hkept hx).2
      refine ⟨fun s hs => ?_, fun s hs => ?_, nofun⟩
      all_goals
        change s ∈ sentIn (Network.of
          { w with effects := w.effects.filter fun x => decide (x.1 ≠ k) } k) at hs
        rw [hnone] at hs
        cases hs
    · change Filed _ (Function.update w.actors i a k).pendingSync
        (Function.update w.actors i a k).nextRequest
      rw [Function.update_of_ne hk]
      have hsame : Network.of { w with effects := w.effects.filter fun x => decide (x.1 ≠ i) } k =
          w.of k := by
        unfold Network.of
        rw [List.filterMap_filter]
        refine List.filterMap_congr fun x _ => ?_
        by_cases hx : x.1 = k
        · simp [hx, hk]
        · simp [hx]
      change Filed (sentIn (Network.of
        { w with effects := w.effects.filter fun x => decide (x.1 ≠ i) } k)) _ _
      rw [hsame]
      exact h.filed k
  · obtain ⟨hx, hne⟩ := hkept hx
    obtain ⟨o, ho, hresponder, hall⟩ := h.prepared k peer channel request hx
    exact ⟨_, hstill ho hresponder hne, hresponder, hall⟩
  · obtain ⟨hx, hne⟩ := hkept hx
    obtain ⟨o, ho, hresponder, hall⟩ := h.answered k channel response hx
    exact ⟨_, hstill ho hresponder hne, hresponder, hall⟩
  · obtain ⟨o₁, ho₁, rfl⟩ := List.mem_map.mp ho
    obtain ⟨o₂, ho₂, rfl⟩ := List.mem_map.mp ho'
    exact h.alone o₁ (List.mem_filter.mp ho₁).1 o₂ (List.mem_filter.mp ho₂).1
  · obtain ⟨o₁, ho₁, rfl⟩ := List.mem_map.mp ho
    obtain ⟨hsome, hne⟩ := Option.filter_eq_some_iff.mp hrequester
    exact List.mem_filter.mpr ⟨h.asked o₁ (List.mem_filter.mp ho₁).1 k id hsome, hne⟩

lemma understood_of_orderly (h : Orderly name w) {t : Clock × Turn ι} (ht : Enabled K name w t) :
    Understood w t := by
  rcases t with ⟨c, turn⟩
  cases turn with
  | request i id j request channel =>
    have hvalid := h.requests i id (name j) request ht.1
    exact ⟨transmit_request hvalid, hvalid⟩
  | response o i id response =>
    obtain ⟨ho, hrequester, hsent⟩ := ht
    obtain ⟨o', ho', hresponder, hchannel, hanswers⟩ := h.answered _ _ _ hsent
    rw [← h.alone o ho o' ho' hresponder.symm hchannel.symm] at hanswers
    refine ⟨transmit_response hanswers.bounds hanswers.records, hanswers.bounds,
      fun pending hpending => ?_⟩
    -- the entry is for the request that the stream was opened for
    obtain ⟨peer, request, hentry, rfl⟩ := (h.filed i).pending id pending hpending
    have hasked : (id, name o.responder, o.request) ∈ sentIn (w.of i) :=
      List.mem_filterMap.mpr ⟨_, mem_of.mpr (h.asked o ho i id hrequester), rfl⟩
    have hsame := (h.filed i).once _ hentry _ hasked rfl
    obtain ⟨-, hrequest⟩ := Prod.mk.inj (Prod.mk.inj hsame).2
    rw [hrequest]
    exact hanswers.kind peer
  | foreignRequest | foreignResponse | job | other | restart => trivial

lemma orderly_step (h : Orderly name w) {t : Clock × Turn ι} (ht : Enabled K name w t) :
    Orderly name (w.step K name t) := by
  have hunderstood := understood_of_orderly h ht
  rcases t with ⟨c, turn⟩
  cases turn with
  | request i id j request channel =>
    unfold Network.step
    dsimp only
    rw [hunderstood.1]
    refine orderly_opened h ht.2 fun i' id' heq => ?_
    obtain ⟨rfl, rfl⟩ := Prod.mk.inj (Option.some.inj heq)
    exact ht.1
  | foreignRequest j peer request channel => exact orderly_opened h ht.2 nofun
  | response o i id response =>
    unfold Network.step
    dsimp only
    rw [hunderstood.1]
    exact orderly_quiet h nofun nofun nofun
  | foreignResponse i peer id response => exact orderly_quiet h nofun nofun nofun
  | job i action =>
    obtain ⟨x, hx, hcompletes⟩ := ht
    exact orderly_job h hx hcompletes
  | other i e => exact orderly_other h ht
  | restart i replay mode reason now => exact orderly_restart h rfl

lemma orderly_start {actors : ι → Actor} (hnew : ∀ i, (actors i).pendingSync = ∅) :
    Orderly name (.start actors) where
  requests := nofun
  filed i := ⟨nofun, nofun, fun id entry hentry => by
    change entry ∈ (actors i).pendingSync.lookup id at hentry
    rw [hnew i] at hentry
    cases hentry⟩
  prepared := nofun
  answered := nofun
  alone := nofun
  asked := nofun

/-- Whatever peers outside send to the nodes, in every order of messages, jobs and restarts: each
request of a node is read by another one as it was sent and passes its check; each response is read
as it was sent, is within the bounds, and is of the kind its reader expects or an error. -/
theorem nodes_understood {actors : ι → Actor} (hnew : ∀ i, ∃ replay mode reason now,
      actors i = .start (name i) replay mode reason now) {turns : List (Clock × Turn ι)}
    (henabled : Along (Network.step K name) (Enabled K name) (.start actors) turns) :
    Along (Network.step K name) Understood (.start actors) turns := by
  have hempty (i : ι) : (actors i).pendingSync = ∅ := by
    obtain ⟨replay, mode, reason, now, heq⟩ := hnew i
    rw [heq]
    rfl
  exact along_of_invariant (orderly_start hempty) henabled (fun _ _ h ht => orderly_step h ht)
    fun _ _ h ht => understood_of_orderly h ht

end Step

def sampleName (i : Bool) : PeerId := ⟨if i then [2] else [1]⟩

def sampleActors (i : Bool) : Actor := .start (sampleName i) .default false none 0

def sampleInventory : SyncResponse := respond samplePrimitives (.open false) 0 .getInventory

/-- One node asks the other for its inventory and reads the answer. -/
def sampleTurns : List (Clock × Turn Bool) :=
  [(.still 0 0, .other false (.command (.requestSync (sampleName true)) false)),
    (.still 0 0, .request false 0 true .getInventory 7),
    (.still 0 0, .job true (.sendResponse (sampleName false) 7 sampleInventory)),
    (.still 0 0, .response ⟨true, 7, some (false, 0), .getInventory⟩ false 0 sampleInventory)]

theorem nodes_understood_sample :
    (run (Network.step samplePrimitives sampleName) (.start sampleActors) sampleTurns).effects.getLast?
        = some (false, .compareInventory (sampleName true) 0
          (inventory samplePrimitives (.open false) 0)) ∧
      Along (Network.step samplePrimitives sampleName) Understood (.start sampleActors)
        sampleTurns := by
  refine ⟨by decide +kernel, nodes_understood (fun i => ⟨_, _, _, _, rfl⟩)
    ⟨rfl, ⟨by decide +kernel, nofun⟩, ⟨_, ?_, .response _ _⟩,
      ⟨by decide +kernel, rfl, by decide +kernel⟩, trivial⟩⟩
  exact List.mem_of_getLast? (by decide +kernel)

end Protonet.SyncNetwork
