import Protonet.PageWalk
import Protonet.SyncAwaited
import Protonet.SyncProgress

namespace Protonet.SyncTrace
open MachineInt StepRun Postcard Record Database Sync Queries Swarm Paging Listing InventoryDigests
  SyncWorld SyncProgress SyncLedger SyncLimits SyncAwaited

def place (cursor : Option RecordId) : ℕ := idNumber (cursor.getD zeroId)

def knownIds (remote : SignatureDatabase) : Finset RecordId :=
  (remote.records.rows.map Row.recordId).toFinset

def page? : SyncRequest → Option (Int64 × Option RecordId)
  | .getRecordIds bucket cursor _ => some (bucket, cursor)
  | _ => none

/-- What a comparison with the local store delivers. -/
def resultOf (K : Primitives) (db : SignatureDatabase) (peer : PeerId) (id : RequestId)
    (now : Int64) : Job → DbAction
  | .inventory remote =>
    .inventoryCompared peer id (differingBuckets (inventory K db now) remote)
  | .ids bucket ids nextCursor => .idsCompared peer id bucket (missingIds db ids now) nextCursor

/-- The peer answers every request from the remote store, and each comparison of its answers with
a local store delivers its result. -/
structure Honest (K : Primitives) (peer : PeerId) (remote : SignatureDatabase) (w : Ledger)
    (e : Clock × Event) : Prop where
  owed : Owed w e
  answers : ∀ id response, e.2 = .syncResponse peer id response →
    ∃ request now, (id, peer, request) ∈ w.sent ∧ response = answer K remote request now
  reachable : ∀ id, e.2 ≠ .outboundFailure peer id
  compares : ∀ action, e.2 = .dbAction action → ∀ id, (id, peer) ∈ e.2.delivered →
    ∃ job db now, (id, peer, job) ∈ w.jobs ∧ action = resultOf K db peer id now job

/-- The requests to a peer since an id was given out. -/
def requestsTo (peer : PeerId) (opened : RequestId)
    (sent : List (RequestId × PeerId × SyncRequest)) : List (RequestId × SyncRequest) :=
  (sent.filter fun s => decide (s.2.1 = peer) && decide (opened ≤ s.1)).map fun s => (s.1, s.2.2)

/-- The comparison that an honest answer to the request leads to. -/
def Fits (K : Primitives) (remote : SignatureDatabase) : SyncRequest → Job → Prop
  | .getInventory, .inventory summary => ∃ now, summary = inventory K remote now
  | .getRecordIds bucket cursor _, .ids bucket' _ nextCursor => bucket' = bucket ∧
    ∀ c ∈ nextCursor, place cursor < place (some c) ∧ c ∈ knownIds remote
  | _, _ => False

/-- The request is not an id request of another size than the actor's. -/
def Plain (request : SyncRequest) : Prop :=
  ∀ b c, page? request = some (b, c) → request = pageRequest b c

structure Traced (K : Primitives) (peer : PeerId) (remote : SignatureDatabase) (x : Books) : Prop
    where
  increasing : x.sent.Pairwise fun s t => s.1 < t.1
  fresh : ∀ s ∈ x.sent, s.1 < x.next
  plain : ∀ s ∈ x.sent, Plain s.2.2
  pending : ∀ id, ∀ pending ∈ x.pending.lookup id,
    ∃ request, (id, pending.peer, request) ∈ x.sent ∧ pending = pendingOf pending.peer request
  jobs : ∀ id job, (id, peer, job) ∈ x.jobs →
    ∃ request, (id, peer, request) ∈ x.sent ∧ Fits K remote request job

variable {K : Primitives} {peer p q : PeerId} {remote : SignatureDatabase} {now : Int64}
  {x x' : Books} {id opened : RequestId} {g : Agenda} {f : Agenda → Agenda} {request : SyncRequest}
  {bucket : Int64} {missing : List RecordId} {nextCursor : Option RecordId} {e : Event} {job : Job}
  {sent : List (RequestId × PeerId × SyncRequest)}

lemma mem_of_page {α : Type} {limit : ℕ} {l : List α} {c : α} (h : c ∈ (page limit l).2) : c ∈ l := by
  by_cases hlong : limit < l.length
  · rw [page_long hlong] at h
    exact List.mem_of_mem_take (List.mem_of_getLast? h)
  · rw [page_short (not_lt.mp hlong)] at h
    cases h

/-- The successor of a page stands behind it and is the id of a row. -/
lemma page_next {cursor : Option RecordId} {c : RecordId}
    (h : c ∈ (page MAX_IDS_PER_RESPONSE (listedIds remote bucket cursor now)).2) :
    place cursor < place (some c) ∧ c ∈ knownIds remote := by
  obtain ⟨r, hr, ⟨-, -, -, hlt⟩, rfl⟩ := mem_listedIds.mp (mem_of_page h)
  exact ⟨hlt, List.mem_toFinset.mpr (List.mem_map_of_mem hr)⟩

lemma answer_bounds (h : Plain request) : (answer K remote request now).validateBounds = .ok () := by
  cases request with
  | getInventory => exact if_pos inventory_length
  | getRecordIds b c limit =>
    rw [h b c rfl, answer_page]
    exact if_pos length_page_le
  | getRecords ids =>
    by_cases hvalid : ids ≠ [] ∧ ids.length ≤ MAX_REQUESTED_RECORDS
    · obtain ⟨records, hrecords, hlen, -⟩ := @answer_getRecords K remote now ids hvalid.1 hvalid.2
      rw [hrecords]
      exact if_pos hlen
    · have herror : (SyncRequest.getRecords ids).validate = .error .tooLarge := if_neg hvalid
      unfold answer
      rw [herror]
      rfl

lemma fits_of_job (h : Plain request)
    (hjob : (pendingOf p request).job? (answer K remote request now) = some job) :
    Fits K remote request job := by
  cases request with
  | getInventory =>
    obtain rfl := Option.some.inj hjob
    exact ⟨now, rfl⟩
  | getRecordIds b c limit =>
    rw [h b c rfl, answer_page] at hjob
    obtain rfl := Option.some.inj hjob
    exact ⟨rfl, fun _ => page_next⟩
  | getRecords ids => cases hjob

/-- Only records are not compared. -/
lemma records_of_no_job (h : Plain request)
    (hjob : (pendingOf p request).job? (answer K remote request now) = none) :
    page? request = none ∧ request ≠ .getInventory := by
  cases request with
  | getInventory => cases hjob
  | getRecordIds b c limit =>
    rw [h b c rfl, answer_page] at hjob
    cases hjob
  | getRecords ids => exact ⟨rfl, nofun⟩

lemma Traced.unique (h : Traced K peer remote x) {r r' : SyncRequest} (hr : (id, p, r) ∈ x.sent)
    (hr' : (id, q, r') ∈ x.sent) : p = q ∧ r = r' := by
  have hnodup : (x.sent.map Prod.fst).Nodup :=
    List.pairwise_map.mpr (h.increasing.imp fun hlt => hlt.ne)
  have heq := List.inj_on_of_nodup_map hnodup hr hr' rfl
  exact Prod.mk.inj (Prod.mk.inj heq).2

lemma Traced.less (h : Traced K peer remote x) (hsent : x'.sent = x.sent) (hjobs : x'.jobs = x.jobs)
    (hnext : x'.next = x.next)
    (hpending : ∀ id, ∀ pending ∈ x'.pending.lookup id, pending ∈ x.pending.lookup id) :
    Traced K peer remote x' where
  increasing := hsent ▸ h.increasing
  fresh := by
    rw [hsent, hnext]
    exact h.fresh
  plain := hsent ▸ h.plain
  pending id pending hp := hsent ▸ h.pending id pending (hpending id pending hp)
  jobs := by
    rw [hsent, hjobs]
    exact h.jobs

lemma Traced.amend (h : Traced K peer remote x) : Traced K peer remote (x.amend p f) :=
  h.less rfl rfl rfl fun _ _ => id

lemma Traced.drop (h : Traced K peer remote x) : Traced K peer remote (x.drop p) :=
  h.less rfl rfl rfl fun _ _ hp => (drop_pending hp).2

lemma Traced.take (h : Traced K peer remote x) : Traced K peer remote (x.take id) :=
  h.less rfl rfl rfl fun _ _ hp => (lookup_of_erase hp).2

lemma Traced.report (h : Traced K peer remote x) : Traced K peer remote (report e x) :=
  h.less rfl rfl rfl fun _ _ => id

lemma Traced.send (h : Traced K peer remote x) (hplain : Plain request) :
    Traced K peer remote (x.send p request) where
  increasing := by
    refine List.pairwise_append.mpr ⟨h.increasing, List.pairwise_singleton _ _, fun s hs t ht => ?_⟩
    rw [List.mem_singleton.mp ht]
    exact h.fresh s hs
  fresh s hs := by
    rcases List.mem_append.mp hs with hs | hs
    · exact (h.fresh s hs).trans (Nat.lt_succ_self _)
    · rw [List.mem_singleton.mp hs]
      exact Nat.lt_succ_self _
  plain s hs := by
    rcases List.mem_append.mp hs with hs | hs
    · exact h.plain s hs
    · rw [List.mem_singleton.mp hs]
      exact hplain
  pending id pending hp := by
    by_cases hid : id = x.next
    · subst hid
      have heq : pending = pendingOf p request := by
        rw [Books.send, AList.lookup_insert, Option.mem_some_iff] at hp
        exact hp.symm
      have hpeer : pending.peer = p := by rw [heq, peer_pendingOf]
      rw [hpeer]
      exact ⟨request, List.mem_append_right _ (List.mem_singleton_self _), heq⟩
    · rw [Books.send, AList.lookup_insert_ne hid] at hp
      obtain ⟨r, hr, heq⟩ := h.pending id pending hp
      exact ⟨r, List.mem_append_left _ hr, heq⟩
  jobs id job hj := by
    obtain ⟨r, hr, hfits⟩ := h.jobs id job hj
    exact ⟨r, List.mem_append_left _ hr, hfits⟩

lemma Traced.ask (h : Traced K peer remote x) (hplain : Plain request) :
    Traced K peer remote (x.ask p request) := (h.send hplain).amend

lemma plain_page {cursor : Option RecordId} : Plain (pageRequest bucket cursor) := by
  intro b c hpage
  obtain ⟨rfl, rfl⟩ := Prod.mk.inj (Option.some.inj hpage)
  rfl

lemma plain_inventory : Plain .getInventory := by
  intro b c hpage
  cases hpage

lemma plain_records {ids : List RecordId} : Plain (.getRecords ids) := by
  intro b c hpage
  cases hpage

lemma Traced.fetch (h : Traced K peer remote x) : Traced K peer remote (x.fetch p missing) := by
  unfold Books.fetch
  split_ifs
  · exact h.ask plain_records
  · exact h

lemma Traced.goOn (h : Traced K peer remote x) :
    Traced K peer remote (x.goOn p bucket nextCursor) := by
  unfold Books.goOn Books.continueBucket
  split
  · exact h
  · split
    · exact h
    · split_ifs
      · exact h.ask plain_page
      · exact h.amend

lemma Traced.pumps (h : Traced K peer remote x) (hpumps : Books.Pumps p x x') :
    Traced K peer remote x' := by
  induction hpumps with
  | idle => exact h
  | wait => exact h
  | finish => exact h.less rfl rfl rfl fun _ _ => id
  | next _ _ _ ih => exact ih (h.amend.ask plain_page)

lemma Traced.answered (h : Traced K peer remote x) (hkept : Kept x)
    (howed : e.answered ⊆ x.asked) {response : SyncResponse} {pending : PendingSync}
    (he : e = .syncResponse p id response) (hl : x.pending.lookup id = some pending) :
    pending.peer = p ∧ ∃ request, (id, p, request) ∈ x.sent ∧ pending = pendingOf p request := by
  have hasked : (id, p) ∈ x.asked := howed (by rw [he]; exact Finset.mem_singleton_self _)
  have hpeer : pending.peer = p := hkept.alone id _ _ (hkept.pending id pending hl) hasked
  obtain ⟨r, hr, heq⟩ := h.pending id pending hl
  rw [hpeer] at hr heq
  exact ⟨hpeer, r, hr, heq⟩

lemma Traced.turn (h : Traced K peer remote x) (hkept : Kept x)
    (howed : e.answered ⊆ x.asked ∧ e.delivered ⊆ x.comparing)
    (hanswers : ∀ id response, e = .syncResponse peer id response →
      ∃ request now, (id, peer, request) ∈ x.sent ∧ response = answer K remote request now)
    (hturn : Books.Turn e (SyncLedger.report e x) x') : Traced K peer remote x' := by
  have hreport : Traced K peer remote (SyncLedger.report e x) := h.report
  cases hturn with
  | same => exact hreport
  | start => exact (hreport.send plain_inventory).less rfl rfl rfl fun _ _ => id
  | closed => exact hreport.drop
  | expired ps => exact dropAll_induction (fun _ _ => Traced.drop) hreport ps
  | ignored => exact hreport
  | @compared p id response pending job _ hl hbounds hjob =>
    obtain ⟨hpeer, r, hr, heq⟩ := h.answered hkept howed.1 rfl hl
    have htaken : Traced K peer remote ((SyncLedger.report (.syncResponse p id response) x).take id) :=
      hreport.take
    refine ⟨htaken.increasing, htaken.fresh, htaken.plain, htaken.pending, fun id' job' hj => ?_⟩
    rcases List.mem_append.mp hj with hold | hnew
    · exact htaken.jobs id' job' hold
    · obtain ⟨rfl, hrest⟩ := Prod.mk.inj (List.mem_singleton.mp hnew)
      obtain ⟨hsame, rfl⟩ := Prod.mk.inj hrest
      have hp : p = peer := hpeer.symm.trans hsame.symm
      subst hp
      obtain ⟨r', now, hr', rfl⟩ := hanswers id' response rfl
      obtain ⟨-, rfl⟩ := h.unique hr hr'
      rw [heq] at hjob
      exact ⟨r, hr, fits_of_job (h.plain _ hr) hjob⟩
  | oversized => exact hreport.take.amend
  | settled _ _ _ _ hpumps => exact Traced.pumps hreport.take.amend hpumps
  | failed hpumps => exact Traced.pumps hreport.take.amend hpumps
  | inventoryCompared hpumps => exact Traced.pumps hreport.amend hpumps
  | idsCompared hpumps => exact Traced.pumps (Traced.fetch hreport.amend).goOn hpumps

lemma mem_requestsTo :
    (id, request) ∈ requestsTo peer opened sent ↔ (id, peer, request) ∈ sent ∧ opened ≤ id := by
  unfold requestsTo
  simp only [List.mem_map, List.mem_filter, Bool.and_eq_true, decide_eq_true_eq]
  constructor
  · rintro ⟨⟨id', p, r⟩, ⟨hmem, rfl, hle⟩, heq⟩
    obtain ⟨rfl, rfl⟩ := Prod.mk.inj heq
    exact ⟨hmem, hle⟩
  · rintro ⟨hmem, hle⟩
    exact ⟨_, ⟨hmem, rfl, hle⟩, rfl⟩

lemma requestsTo_send (h : opened ≤ id) :
    requestsTo peer opened (sent ++ [(id, peer, request)]) =
      requestsTo peer opened sent ++ [(id, request)] := by
  unfold requestsTo
  rw [List.filter_append, List.map_append]
  simp [h]

lemma requestsTo_ne (h : p ≠ peer) :
    requestsTo peer opened (sent ++ [(id, p, request)]) = requestsTo peer opened sent := by
  unfold requestsTo
  rw [List.filter_append, List.map_append]
  simp [h]

/-- The requests to a peer whose answers or results are still to come. -/
def expected (peer : PeerId) (o : Dues) : Finset RequestId :=
  {e ∈ o.asked ∪ o.comparing | e.2 = peer}.image Prod.fst

lemma mem_expected {o : Dues} :
    id ∈ expected peer o ↔ (id, peer) ∈ o.asked ∨ (id, peer) ∈ o.comparing := by
  unfold expected
  simp

lemma expected_mono {o o' : Dues} (hasked : ∀ id, (id, peer) ∈ o.asked → (id, peer) ∈ o'.asked)
    (hcomparing : ∀ id, (id, peer) ∈ o.comparing → (id, peer) ∈ o'.comparing) :
    expected peer o ⊆ expected peer o' :=
  fun id hid => mem_expected.mpr ((mem_expected.mp hid).imp (hasked id) (hcomparing id))

lemma expected_report {o : Dues} : expected peer (Dues.report e o) ⊆ expected peer o :=
  expected_mono (fun _ hid => (Finset.mem_sdiff.mp hid).1) fun _ hid => (Finset.mem_sdiff.mp hid).1

lemma expected_send : expected peer (x.send peer request).toDues =
    insert x.next (expected peer x.toDues) := by
  ext id
  rw [Finset.mem_insert, mem_expected, mem_expected, ← or_assoc]
  refine or_congr_left ?_
  rw [show (x.send peer request).asked = insert (x.next, peer) x.asked from rfl,
    Finset.mem_insert, Prod.mk.injEq, and_iff_left rfl]

lemma expected_gone (hkept : Kept x) (howed : e.answered ⊆ x.asked ∧ e.delivered ⊆ x.comparing)
    (h : (id, peer) ∈ e.answered ∨ (id, peer) ∈ e.delivered) :
    id ∉ expected peer (report e x).toDues := by
  intro hid
  rcases mem_expected.mp hid with hasked | hcomparing
  · obtain ⟨hasked, hnot⟩ := Finset.mem_sdiff.mp hasked
    exact hkept.apart id peer peer (howed.2 (h.resolve_left hnot)) hasked
  · obtain ⟨hcomparing, hnot⟩ := Finset.mem_sdiff.mp hcomparing
    exact hkept.apart id peer peer hcomparing (howed.1 (h.resolve_right hnot))

lemma expected_lt (hkept : Kept x) : expected peer x.toDues ⊆ Finset.range x.next :=
  fun id hid => Finset.mem_range.mpr
    ((mem_expected.mp hid).elim (hkept.asked id peer) (hkept.comparing id peer))

/-- Nothing has changed for the peer. -/
structure Aside (peer : PeerId) (opened : RequestId) (x x' : Books) : Prop where
  agenda : x'.agenda peer = x.agenda peer
  requests : requestsTo peer opened x'.sent = requestsTo peer opened x.sent
  jobs : x.jobs ⊆ x'.jobs
  expects : expected peer x'.toDues ⊆ expected peer x.toDues

lemma aside_refl : Aside peer opened x x := ⟨rfl, rfl, List.Subset.refl _, subset_rfl⟩

lemma Aside.trans {x'' : Books} (h : Aside peer opened x x') (h' : Aside peer opened x' x'') :
    Aside peer opened x x'' :=
  ⟨h'.agenda.trans h.agenda, h'.requests.trans h.requests, List.Subset.trans h.jobs h'.jobs,
    h'.expects.trans h.expects⟩

lemma aside_report : Aside peer opened x (report e x) := ⟨rfl, rfl, List.Subset.refl _, expected_report⟩

lemma aside_put (h : p ≠ peer) {o : Option Agenda} : Aside peer opened x (x.put p o) :=
  ⟨Books.put_agenda_ne h.symm, rfl, List.Subset.refl _, subset_rfl⟩

lemma aside_send (h : p ≠ peer) : Aside peer opened x (x.send p request) := by
  refine ⟨rfl, requestsTo_ne h, List.Subset.refl _, expected_mono (fun id hid => ?_) fun _ => id⟩
  exact (Finset.mem_insert.mp hid).resolve_left fun heq => h (Prod.mk.inj heq).2.symm

lemma aside_ask (h : p ≠ peer) : Aside peer opened x (x.ask p request) :=
  (aside_send h).trans (aside_put h)

lemma aside_start (h : p ≠ peer) : Aside peer opened x (x.start p) :=
  (aside_send h).trans ⟨Books.put_agenda_ne h.symm, rfl, List.Subset.refl _, subset_rfl⟩

lemma aside_settle (h : p ≠ peer) : Aside peer opened x ((x.take id).settle p id) :=
  ⟨Books.put_agenda_ne h.symm, rfl, List.Subset.refl _, subset_rfl⟩

lemma aside_drop (h : p ≠ peer) : Aside peer opened x (x.drop p) :=
  ⟨Books.put_agenda_ne h.symm, rfl, List.Subset.refl _, subset_rfl⟩

lemma aside_fetch (h : p ≠ peer) : Aside peer opened x (x.fetch p missing) := by
  unfold Books.fetch
  split_ifs
  · exact aside_ask h
  · exact aside_refl

lemma aside_goOn (h : p ≠ peer) : Aside peer opened x (x.goOn p bucket nextCursor) := by
  unfold Books.goOn Books.continueBucket
  split
  · exact aside_refl
  · split
    · exact aside_refl
    · split_ifs
      · exact aside_ask h
      · exact aside_put h

lemma aside_pumps (h : p ≠ peer) (hpumps : Books.Pumps p x x') : Aside peer opened x x' := by
  induction hpumps with
  | idle => exact aside_refl
  | wait => exact aside_refl
  | finish => exact ⟨Books.put_agenda_ne h.symm, rfl, List.Subset.refl _, subset_rfl⟩
  | next _ _ _ ih => exact ((aside_put h).trans (aside_ask h)).trans ih

end Protonet.SyncTrace
